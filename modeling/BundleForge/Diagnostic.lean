import BundleForge.ResourceError
/-!
# Diagnostics

An error met in a pass, with the bundle, the accessor if one is to blame, and the phase of the pass.
A failed pass is its list of diagnostics.
-/

namespace BundleForge

inductive Phase where
  | initializing
  | preparing
  | emitting
  | finishing
  | done
  | failed
deriving DecidableEq, Repr

def Phase.label : Phase → String
  | .initializing => "initializing"
  | .preparing => "preparing"
  | .emitting => "emitting"
  | .finishing => "finishing"
  | .done => "done"
  | .failed => "failed"

structure Diagnostic where
  bundle : TypeName
  /-- None for an error of a generator as a whole. -/
  accessor : Option String
  phase : Phase
  error : ResourceError
deriving DecidableEq, Repr

def Diagnostic.line (d : Diagnostic) : String :=
  let subject :=
    match d.accessor with
    | some accessor => s!"{d.bundle.path}::{accessor}"
    | none => d.bundle.path
  s!"{subject} ({d.error.category.label} error while {d.phase.label}): {d.error.message}"

structure FailedPass where
  bundle : TypeName
  locale : Option String
  diagnostics : List Diagnostic
deriving DecidableEq, Repr

def FailedPass.message (failed : FailedPass) : String :=
  let scope :=
    match failed.locale with
    | some locale => s!" for locale {locale}"
    | none => ""
  s!"Generation of {failed.bundle.path}{scope} failed with {failed.diagnostics.length} error(s)"

end BundleForge
