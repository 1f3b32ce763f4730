import BundleForge.Diagnostic
import BundleForge.Generator.Data
import BundleForge.Generator.Image
import BundleForge.Generator.Nested
import BundleForge.Generator.Text
/-!
# Which generator serves which accessor

Generators are registered for result types. A type without a registration of its own is served by the
registration of the transitive supertype that was discovered last; a type with no supertype but the
root is taken for a nested bundle. The accessors of a bundle are grouped by generator into tasks, in
the order in which generators are first needed, and an accessor no generator serves is reported.
-/

namespace BundleForge

structure GeneratorKind where
  id : GeneratorId
  generator : Generator

namespace GeneratorKind

def text : GeneratorKind := ⟨⟨"text"⟩, .text⟩

def data : GeneratorKind := ⟨⟨"data"⟩, .data⟩

def image : GeneratorKind := ⟨⟨"image"⟩, .image⟩

def bundle : GeneratorKind := ⟨⟨"bundle"⟩, .nested⟩

end GeneratorKind

structure Registry where
  kinds : OrderedMap TypeName GeneratorKind
  nested : GeneratorKind

structure Task where
  kind : GeneratorKind
  accessors : List Accessor

namespace Registry

/-- A registry that knows nothing but nested bundles. -/
def bare (nested : GeneratorKind) : Registry := ⟨.empty, nested⟩

def register (registry : Registry) (ty : TypeName) (kind : GeneratorKind) : Registry :=
  { registry with kinds := registry.kinds.insert ty kind }

def standard : Registry :=
  (bare .bundle)
    |>.register .textResource .text
    |>.register .dataResource .data
    |>.register .imageResource .image
    |>.register .clientBundle .bundle

def resolve (registry : Registry) (hierarchy : Hierarchy) (ty : TypeName) :
    Except ResourceError GeneratorKind :=
  match registry.kinds.get? ty with
  | some kind => .ok kind
  | none =>
    match hierarchy.parents? ty with
    | none => .error (.noGenerator ty)
    | some parents =>
      if parents = [] ∨ parents = [.root] then .ok registry.nested
      else
        match parents.reverse.findSome? registry.kinds.get? with
        | some kind => .ok kind
        | none => .error (.noGenerator ty)

end Registry

structure Dispatch where
  tasks : List Task
  refused : List (Accessor × ResourceError)

namespace Dispatch

def addTo (kind : GeneratorKind) (accessor : Accessor) : List Task → List Task
  | [] => [⟨kind, [accessor]⟩]
  | task :: rest =>
    if task.kind.id = kind.id then { task with accessors := task.accessors ++ [accessor] } :: rest
    else task :: addTo kind accessor rest

def add (registry : Registry) (hierarchy : Hierarchy) (dispatch : Dispatch) (accessor : Accessor) :
    Dispatch :=
  match registry.resolve hierarchy accessor.kind with
  | .ok kind => { dispatch with tasks := addTo kind accessor dispatch.tasks }
  | .error error => { dispatch with refused := dispatch.refused ++ [(accessor, error)] }

def ofBundle (registry : Registry) (hierarchy : Hierarchy) (bundle : Bundle) : Dispatch :=
  bundle.accessors.foldl (add registry hierarchy) ⟨[], []⟩

def diagnostics (dispatch : Dispatch) (bundle : Bundle) : List Diagnostic :=
  dispatch.refused.map fun (accessor, error) =>
    ⟨bundle.name, some accessor.name, .initializing, error⟩

end Dispatch

end BundleForge
