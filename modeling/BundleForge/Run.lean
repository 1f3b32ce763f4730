import BundleForge.Pass
/-!
# All passes of a run

Every declared bundle is generated without a locale and then for each configured locale. A pass that
fails does not stop the others.
-/

namespace BundleForge

structure Report where
  generated : List GeneratedType := []
  skipped : Nat := 0
  failures : List FailedPass := []
deriving DecidableEq

namespace Report

def isSuccess (report : Report) : Bool := report.failures.isEmpty

def diagnostics (report : Report) : List Diagnostic := report.failures.flatMap (·.diagnostics)

def add (report : Report) : PassResult → Report
  | .generated type => { report with generated := report.generated ++ [type] }
  | .skipped => { report with skipped := report.skipped + 1 }
  | .failed pass => { report with failures := report.failures ++ [pass] }

end Report

namespace Run

variable {σ : Type} [Sink σ]

def locales (configured : List String) : List (Option String) := none :: configured.map some

def passes (bundles : Bundles) (configured : List String) : List (Bundle × Option String) :=
  bundles.values.flatMap fun bundle => (locales configured).map fun locale => (bundle, locale)

def each (plan : Plan) (world : World σ) (report : Report) :
    List (Bundle × Option String) → Report × World σ
  | [] => (report, world)
  | (bundle, locale) :: rest =>
    let pass := Pass.run plan bundle locale world
    each plan pass.world (report.add pass.result) rest

def all (plan : Plan) (configured : List String) (world : World σ) : Report × World σ :=
  each plan world {} (passes plan.bundles configured)

end Run

end BundleForge
