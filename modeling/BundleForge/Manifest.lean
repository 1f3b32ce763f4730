import BundleForge.LoadError
/-!
# Manifests

A manifest without problems gives the bundles in their order, each with its inherited accessors, and
the hierarchy of all types: the built-in ones, the declared ones, and every bundle below what it
extends and below the type of all bundles.
-/

namespace BundleForge

structure Manifest where
  hierarchy : Hierarchy
  bundles : Bundles

namespace Manifest

def supertypes (bundle : Bundle) : List TypeName :=
  if .clientBundle ∈ bundle.supertypes then bundle.supertypes
  else bundle.supertypes ++ [.clientBundle]

def ofDeclarations (declarations : Declarations) : Except (List Problem) Manifest :=
  match declarations.problems with
  | first :: rest => .error (first :: rest)
  | [] =>
    let tables := declarations.firstTables
    .ok {
      hierarchy := tables.values.foldl
        (fun hierarchy bundle => hierarchy.declare bundle.name (supertypes bundle) none)
        declarations.typeHierarchy
      bundles := tables.mapValues fun name bundle =>
        { bundle with accessors := Inheritance.accessors tables [] name } }

def parse (text : String) : Except LoadError Manifest :=
  match Toml.read Declarations.decode text with
  | .error error => .error { cause := .toml error, attempts := [.decodeManifest] }
  | .ok declarations => (ofDeclarations declarations).mapError fun found => { cause := .problems found }

def load (files : FileSystem) (path : Path) : Except LoadError Manifest :=
  match files.readText path with
  | .error error => .error { cause := .file error, attempts := [.readManifest path] }
  | .ok text => (parse text).mapError (·.within (.acceptManifest path))

end Manifest

end BundleForge
