import BundleForge.Text.Blank
import BundleForge.Text.Segments
/-!
# Names of declared types

A type is named by its path: segments joined by `::`, the last of which is its simple name and the
rest its module. Five types of the runtime may be written by their simple name alone.
-/

namespace BundleForge

structure TypeName where
  path : String
deriving DecidableEq, Repr, Inhabited

namespace TypeName

/-- What every resource value of generated code implements. -/
def resourcePrototype : TypeName := ⟨"::bundle_runtime::ResourcePrototype"⟩

def textResource : TypeName := ⟨"::bundle_runtime::TextResource"⟩

def dataResource : TypeName := ⟨"::bundle_runtime::DataResource"⟩

def imageResource : TypeName := ⟨"::bundle_runtime::ImageResource"⟩

/-- What every generated bundle implements. -/
def clientBundle : TypeName := ⟨"::bundle_runtime::ClientBundle"⟩

/-- The type from which every type derives without saying so. -/
def root : TypeName := ⟨"::core::any::Any"⟩

/-- The types that may be written by their simple name. -/
def aliases : List (String × TypeName) :=
  [("ResourcePrototype", resourcePrototype), ("TextResource", textResource),
   ("DataResource", dataResource), ("ImageResource", imageResource),
   ("ClientBundle", clientBundle)]

def ofText (text : String) : TypeName :=
  let path := Text.trim text
  (aliases.lookup path).getD ⟨path⟩

def isRoot (ty : TypeName) : Bool := ty == root

def cutPath : List Char → Option (List Char × List Char)
  | [] => none
  | c :: rest =>
    match cutPath rest with
    | some (before, after) => some (c :: before, after)
    | none => if c = ':' ∧ rest.head? = some ':' then some ([], rest.tail) else none

def simpleName (ty : TypeName) : String :=
  match cutPath ty.path.toList with
  | some (_, after) => String.ofList after
  | none => ty.path

def modulePath (ty : TypeName) : String :=
  match cutPath ty.path.toList with
  | some (before, _) => String.ofList before
  | none => ""

/-- The path of a name inside a module, which is the name itself when the module is empty. -/
def qualify (module simple : String) : String :=
  if module = "" then simple else module ++ "::" ++ simple

theorem eq_append_of_cutPath {path before after : List Char}
    (h : cutPath path = some (before, after)) : path = before ++ ':' :: ':' :: after := by
  induction path generalizing before with
  | nil => simp [cutPath] at h
  | cons c rest ih =>
    rw [cutPath] at h
    split at h
    · rename_i b a hb
      obtain ⟨rfl, rfl⟩ := Prod.mk.inj (Option.some.inj h)
      rw [ih hb, List.cons_append]
    · split at h
      · rename_i hc
        obtain ⟨rfl, rfl⟩ := Prod.mk.inj (Option.some.inj h)
        obtain ⟨tail, rfl⟩ := List.head?_eq_some_iff.1 hc.2
        rw [hc.1, List.nil_append, List.tail_cons]
      · simp at h

end TypeName

end BundleForge
