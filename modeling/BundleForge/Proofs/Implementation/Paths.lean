import BundleForge.Proofs.Scope
/-!
# Paths in a generated module

A generated module stands one level below the module of its bundle, which exports the implementing type from
it. What it writes for a declared type leads up one level first and stands for the type there. A path that it
writes as it is stands for the same item only if it does not start from the module it is written in, or starts
with the implementing type.
-/

namespace BundleForge

/-- How far above a module an anchor looks for a name, if that depends on the module. -/
def Anchor.ups? : Anchor → Option Nat
  | .external => none
  | .root => none
  | .here ups => some ups
  | .above ups => some (ups + 1)
  | .plain => some 0

/-- A path that one level below, in the module that `exported` is exported from, stands for the same. -/
def TypePath.SameInside (path : TypePath) (exported : String) : Prop :=
  path.anchor.ups? = none ∨ path.anchor.ups? = some 0 ∧ path.first = exported

instance (path : TypePath) (exported : String) : Decidable (path.SameInside exported) :=
  inferInstanceAs (Decidable (_ ∨ _))

namespace Implementation

variable {E : Type}

/-- A generated module in its place. Of the names that paths can begin with it has the implementing type,
which the module around exports, and its holders. -/
structure Placed (implementation : Implementation) (scope : Scope E) (outer inner : E) : Prop where
  parent : scope.parent? inner = some outer
  exported : scope.member? outer implementation.simpleName =
    scope.member? inner implementation.simpleName
  declares : ∀ name, (scope.member? inner name).isSome = true ↔
    name = implementation.simpleName ∨ name ∈ implementation.holders.map (·.name)

/-- What is written stands for a declared type, wherever the module is placed: it means what the path of
the type means in the module around, unless that path is a name alone which the module around does not
have. -/
def Stands (implementation : Implementation) (ty : TypeName) (written : String) : Prop :=
  ∀ path : TypePath, ty.path = path.text → ∀ {E : Type} (scope : Scope E) (outer inner : E),
    implementation.Placed scope outer inner →
      (scope.denotes? inner written = scope.denotes? outer ty.path ↔
        (path.anchor = .plain → (scope.member? outer path.first).isSome = true ∨
          scope.denotes? outer ty.path = none))

theorem stands_pathInside (implementation : Implementation) (ty : TypeName) :
    implementation.Stands ty (pathInside ty) := by
  intro path hpath E scope outer inner hplaced
  rw [TypePath.pathInside_eq hpath, hpath, Scope.denotes?_text, Scope.denotes?_text]
  exact Scope.resolve_inside_iff hplaced.parent

/-- Wherever the module is placed, a text means the same in it as in the module around. -/
def Keeps (implementation : Implementation) (text : String) : Prop :=
  ∀ {E : Type} (scope : Scope E) (outer inner : E), implementation.Placed scope outer inner →
    scope.denotes? inner text = scope.denotes? outer text

variable {implementation : Implementation} {path : TypePath}

/-- The first name of such a path is found in the module as it is in the module around. -/
theorem entry?_of_sameInside (h : path.SameInside implementation.simpleName) {scope : Scope E}
    {outer inner : E} (hplaced : implementation.Placed scope outer inner) :
    scope.entry? inner path.first path.anchor = scope.entry? outer path.first path.anchor := by
  rcases h with hfixed | ⟨hhere, hfirst⟩
  · cases hanchor : path.anchor with
    | external => rfl
    | root => rfl
    | here ups => simp [hanchor, Anchor.ups?] at hfixed
    | above ups => simp [hanchor, Anchor.ups?] at hfixed
    | plain => simp [hanchor, Anchor.ups?] at hfixed
  · have hmember : scope.member? inner path.first = scope.member? outer path.first := by
      rw [hfirst, hplaced.exported]
    have hsome : (scope.member? inner path.first).isSome = true :=
      (hplaced.declares path.first).2 (Or.inl hfirst)
    obtain ⟨item, hitem⟩ := Option.isSome_iff_exists.1 hsome
    cases hanchor : path.anchor with
    | external => rfl
    | root => rfl
    | here ups =>
      rw [hanchor, Anchor.ups?, Option.some.injEq] at hhere
      rw [hhere]
      exact hmember
    | above ups => simp [hanchor, Anchor.ups?] at hhere
    | plain => rw [Scope.entry?, Scope.entry?, ← hmember, hitem]

theorem keeps_of_sameInside (h : path.SameInside implementation.simpleName) :
    implementation.Keeps path.text := by
  intro E scope outer inner hplaced
  rw [Scope.denotes?_text, Scope.denotes?_text, Scope.resolve, Scope.resolve,
    entry?_of_sameInside h hplaced]

/-! ### A place in which paths that look upwards lead to different items -/

/-- Modules at all depths, with everything in the module at depth 0 and the generated module below it. An item
is known by the depth of the module it is found in, and by the names that lead to it from there. -/
def levels (implementation : Implementation) : Scope (Int × List String) where
  root := (0, [])
  parent? item := some (item.1 - 1, [])
  member? item name :=
    if item = (1, []) then
      if name = implementation.simpleName ∨ name ∈ implementation.holders.map (·.name) then some (1, [name])
      else none
    else if item = (0, []) ∧ name = implementation.simpleName then some (1, [name])
    else some (item.1, item.2 ++ [name])
  external? _ := none
  prelude? _ := none

theorem placed_levels (implementation : Implementation) :
    implementation.Placed implementation.levels (0, []) (1, []) where
  parent := rfl
  exported := by simp [levels]
  declares name := by simp [levels]

theorem up_levels (depth : Int) (ups : Nat) :
    implementation.levels.up (depth, []) ups = some (depth - ups, []) := by
  induction ups generalizing depth with
  | zero => simp [Scope.up]
  | succ ups ih =>
    show implementation.levels.up (depth - 1, []) ups = _
    rw [ih]
    congr 2
    omega

theorem follow_levels (depth : Int) {names : List String} (hnames : names ≠ []) (rest : List String) :
    implementation.levels.follow (depth, names) rest = some (depth, names ++ rest) := by
  induction rest generalizing names with
  | nil => simp [Scope.follow]
  | cons name rest ih =>
    have hmember : implementation.levels.member? (depth, names) name = some (depth, names ++ [name]) := by
      simp [levels, hnames]
    rw [Scope.follow, hmember, Option.bind_some, ih (by simp), List.append_assoc, List.singleton_append]

theorem le_of_follow_levels {depth : Int} {name : String} {rest : List String} {item : Int × List String}
    (h : (implementation.levels.member? (depth, []) name).bind (implementation.levels.follow · rest) =
      some item) : depth ≤ item.1 := by
  obtain ⟨⟨found, names⟩, hfound, hitem⟩ := Option.bind_eq_some_iff.1 h
  have hle : depth ≤ found ∧ names ≠ [] := by
    simp only [levels] at hfound
    split at hfound
    · rename_i hinner
      split at hfound
      · obtain ⟨rfl, rfl⟩ := Prod.mk.inj (Option.some.inj hfound)
        exact ⟨Int.le_of_eq (Prod.mk.inj hinner).1, List.cons_ne_nil _ _⟩
      · simp at hfound
    · split at hfound
      · rename_i houter
        obtain ⟨rfl, rfl⟩ := Prod.mk.inj (Option.some.inj hfound)
        obtain ⟨hdepth, -⟩ := Prod.mk.inj houter.1
        exact ⟨by omega, List.cons_ne_nil _ _⟩
      · obtain ⟨rfl, rfl⟩ := Prod.mk.inj (Option.some.inj hfound)
        exact ⟨Int.le_refl _, by simp⟩
  rw [follow_levels found hle.2] at hitem
  obtain rfl := Option.some.inj hitem
  exact hle.1

theorem follow_levels_of_le {depth : Int} (hdepth : depth ≤ 0) {name : String}
    (hname : depth = 0 → name ≠ implementation.simpleName) (rest : List String) :
    (implementation.levels.member? (depth, []) name).bind (implementation.levels.follow · rest) =
      some (depth, name :: rest) := by
  have hmember : implementation.levels.member? (depth, []) name = some (depth, [name]) := by
    simp only [levels]
    rw [if_neg (by simp; omega), if_neg (by simpa using hname), List.nil_append]
  rw [hmember, Option.bind_some, follow_levels depth (List.cons_ne_nil _ _), List.singleton_append]

theorem resolve_levels {ups : Nat} (hups : path.anchor.ups? = some ups) (depth : Int) :
    implementation.levels.resolve (depth, []) path =
      (implementation.levels.member? (depth - ups, []) path.first).bind
        (implementation.levels.follow · path.rest) := by
  have hup : ∀ count : Nat, implementation.levels.up (depth, []) count = some (depth - count, []) :=
    up_levels depth
  rw [Scope.resolve]
  cases hanchor : path.anchor with
  | external => simp [hanchor, Anchor.ups?] at hups
  | root => simp [hanchor, Anchor.ups?] at hups
  | here count =>
    rw [hanchor, Anchor.ups?, Option.some.injEq] at hups
    rw [Scope.entry?, hups, hup, Option.bind_some]
  | above count =>
    rw [hanchor, Anchor.ups?, Option.some.injEq] at hups
    rw [Scope.entry?, hups, hup, Option.bind_some]
  | plain =>
    rw [hanchor, Anchor.ups?, Option.some.injEq] at hups
    have hnone : ∀ found : Option (Int × List String), (found <|> none <|> none) = found := by
      rintro (_ | _) <;> rfl
    rw [← hups, show depth - (0 : Nat) = depth by omega, Scope.entry?]
    exact congrArg (·.bind (implementation.levels.follow · path.rest)) (hnone _)

/-- A path that starts from the module finds something in the module around or above it, and from one
level below nothing that is so far up. -/
theorem sameInside_of_keeps (h : implementation.Keeps path.text) :
    path.SameInside implementation.simpleName := by
  cases hups : path.anchor.ups? with
  | none => exact Or.inl hups
  | some ups =>
    by_contra hnot
    have hname : (0 - ups : Int) = 0 → path.first ≠ implementation.simpleName := by
      intro hzero hfirst
      have hnone : ups = 0 := by omega
      exact hnot (Or.inr ⟨hnone ▸ hups, hfirst⟩)
    have hsame := h implementation.levels (0, []) (1, []) implementation.placed_levels
    rw [Scope.denotes?_text, Scope.denotes?_text, resolve_levels hups, resolve_levels hups,
      follow_levels_of_le (by omega) hname] at hsame
    have hle := le_of_follow_levels hsame
    omega

/-- Exactly the paths that do not depend on the module, or start with the implementing type, keep their
meaning. -/
theorem keeps_iff : implementation.Keeps path.text ↔ path.SameInside implementation.simpleName :=
  ⟨sameInside_of_keeps, keeps_of_sameInside⟩

end Implementation

end BundleForge
