import BundleForge.Proofs.TypePath
/-!
# What a path stands for

Items have members by name, modules among them have a parent, and some names are known everywhere. The
anchor of a path says where its first name is looked up; each further name is a member of what the names
before it stand for. A name alone is looked up in the module itself and then among those known everywhere,
but not in the modules around it.
-/

namespace BundleForge

/-- The types and modules of a program. -/
structure Scope (E : Type) where
  root : E
  parent? : E → Option E
  member? : E → String → Option E
  external? : String → Option E
  prelude? : String → Option E

namespace Scope

variable {E : Type}

def follow (scope : Scope E) (item : E) : List String → Option E
  | [] => some item
  | name :: rest => (scope.member? item name).bind (scope.follow · rest)

def up (scope : Scope E) (module : E) : Nat → Option E
  | 0 => some module
  | ups + 1 => (scope.parent? module).bind (scope.up · ups)

variable (scope : Scope E)

def entry? (module : E) (name : String) : Anchor → Option E
  | .external => scope.external? name
  | .root => scope.member? scope.root name
  | .here ups => (scope.up module ups).bind (scope.member? · name)
  | .above ups => (scope.up module (ups + 1)).bind (scope.member? · name)
  | .plain => scope.member? module name <|> scope.external? name <|> scope.prelude? name

def resolve (module : E) (path : TypePath) : Option E :=
  (scope.entry? module path.first path.anchor).bind (scope.follow · path.rest)

/-- The item that a text stands for in a module. -/
def denotes? (module : E) (text : String) : Option E :=
  (TypePath.read text).bind (scope.resolve module)

@[simp]
theorem denotes?_text (module : E) (path : TypePath) :
    scope.denotes? module path.text = scope.resolve module path := by
  rw [denotes?, TypePath.read_text, Option.bind_some]

variable {scope} {inner outer : E} (hparent : scope.parent? inner = some outer)
include hparent

theorem up_succ (ups : Nat) : scope.up inner (ups + 1) = scope.up outer ups := by
  rw [up, hparent, Option.bind_some]

/-- One level below, the path from there finds the first name in the module around. -/
theorem entry?_inside (name : String) (anchor : Anchor) :
    scope.entry? inner name anchor.inside =
      if anchor = .plain then scope.member? outer name else scope.entry? outer name anchor := by
  have hup : ∀ ups, (scope.up inner (ups + 1)).bind (scope.member? · name) =
      (scope.up outer ups).bind (scope.member? · name) := fun ups => by rw [up_succ hparent]
  cases anchor with
  | external => rfl
  | root => rfl
  | here ups => exact hup ups
  | above ups => exact hup (ups + 1)
  | plain => exact hup 0

/-- The path from one level below stands for what the path stands for, unless that is a name alone
which is not found in the module itself. -/
theorem resolve_inside_iff {path : TypePath} :
    scope.resolve inner path.inside = scope.resolve outer path ↔
      (path.anchor = .plain →
        (scope.member? outer path.first).isSome ∨ scope.resolve outer path = none) := by
  have hinside : scope.resolve inner path.inside =
      (scope.entry? inner path.first path.anchor.inside).bind (scope.follow · path.rest) := rfl
  rw [hinside, entry?_inside hparent]
  by_cases hplain : path.anchor = .plain
  · rw [if_pos hplain]
    cases hmember : scope.member? outer path.first with
    | none => simp [hplain, eq_comm]
    | some item =>
      have hresolve : scope.resolve outer path = scope.follow item path.rest := by
        rw [resolve, hplain, entry?, hmember]
        rfl
      simp [hresolve]
  · rw [if_neg hplain]
    exact ⟨fun _ h => absurd h hplain, fun _ => rfl⟩

end Scope

end BundleForge
