import BundleForge.Bundle
import BundleForge.Toml.Decoder
/-!
# What a manifest says

A manifest lists types and bundles as they were written: names may be invalid, repeated or unknown.
The decoders here decide which fields there are and which of them may be left out, and nothing else.
-/

namespace BundleForge

/-- A type as it was declared; blanks around its name are gone. -/
structure TypeDeclaration where
  name : TypeName
  supertypes : List TypeName
  extensions : Option (List String)
deriving DecidableEq, Repr

structure Declarations where
  types : List TypeDeclaration
  bundles : List Bundle
deriving DecidableEq, Repr

namespace Declarations

open Toml

def typeName : Decoder TypeName := fun value => (Decoder.text value).map TypeName.ofText

def typeForm : RecordForm := ⟨"TypeSpec", ["name", "extends", "default_extensions"]⟩

def type : Decoder TypeDeclaration := fun value => do
  let fields ← typeForm.open? value
  return {
    name := ← typeForm.required fields "name" typeName
    supertypes := ← typeForm.defaulted fields "extends" [] (Decoder.list typeName)
    extensions := ← typeForm.optional fields "default_extensions" (Decoder.list Decoder.text) }

def accessorForm : RecordForm :=
  ⟨"AccessorSpec",
   ["name", "kind", "source", "mime_type", "embed", "width", "height", "locale"]⟩

def accessor : Decoder Accessor := fun value => do
  let fields ← accessorForm.open? value
  return {
    name := ← accessorForm.required fields "name" Decoder.text
    kind := ← accessorForm.required fields "kind" typeName
    source := ← accessorForm.optional fields "source" (Decoder.list Decoder.text)
    mimeType := ← accessorForm.optional fields "mime_type" Decoder.text
    embed := ← accessorForm.defaulted fields "embed" true Decoder.flag
    width := ← accessorForm.optional fields "width" Decoder.word32
    height := ← accessorForm.optional fields "height" Decoder.word32
    locale := ← accessorForm.optional fields "locale" Decoder.text }

def bundleForm : RecordForm :=
  ⟨"BundleSpec", ["name", "package", "enclosing", "extends", "accessors"]⟩

def bundle : Decoder Bundle := fun value => do
  let fields ← bundleForm.open? value
  return {
    name := ← bundleForm.required fields "name" typeName
    package := ← bundleForm.defaulted fields "package" "" Decoder.text
    enclosing := ← bundleForm.defaulted fields "enclosing" [] (Decoder.list Decoder.text)
    supertypes := ← bundleForm.defaulted fields "extends" [] (Decoder.list typeName)
    accessors := ← bundleForm.defaulted fields "accessors" [] (Decoder.list accessor) }

def form : RecordForm := ⟨"ManifestFile", ["types", "bundles"]⟩

def decode : Decoder Declarations := fun value => do
  let fields ← form.open? value
  return {
    types := ← form.defaulted fields "types" [] (Decoder.list type)
    bundles := ← form.defaulted fields "bundles" [] (Decoder.list bundle) }

end Declarations

end BundleForge
