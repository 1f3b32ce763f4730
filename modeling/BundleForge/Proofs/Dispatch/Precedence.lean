import BundleForge.Dispatch
import BundleForge.Proofs.Hierarchy.Order
/-!
# Which supertype decides

A type without a registration of its own is served by the last registered type that the walk over its
supertypes enters. What the walk enters for the last supertype comes after all the rest, but only what was
not met from an earlier one. So the last supertype decides if it brings a registered type of its own; if
all that is registered at or above it was met before, the earlier supertypes decide among themselves.
-/

namespace BundleForge.Registry

open Relation (ReflTransGen TransGen)

variable {registry : Registry} {h : Hierarchy} {ty last : TypeName} {types first rest : List TypeName}
  {kind : GeneratorKind}

/-! ### The last registered type -/

/-- The generator of the last of some types that has one. -/
def LastOf (registry : Registry) (types : List TypeName) (kind : GeneratorKind) : Prop :=
  ∃ before found after, types = before ++ found :: after ∧ registry.kinds.get? found = some kind ∧
    ∀ other ∈ after, registry.kinds.get? other = none

theorem findSome?_reverse_eq_some_iff :
    types.reverse.findSome? registry.kinds.get? = some kind ↔ registry.LastOf types kind := by
  rw [List.findSome?_eq_some_iff]
  constructor
  · rintro ⟨after, found, before, hsplit, hfound, hafter⟩
    refine ⟨before.reverse, found, after.reverse, ?_, hfound, fun other hother => ?_⟩
    · rw [← List.reverse_reverse types, hsplit]
      simp
    · exact hafter other (List.mem_reverse.1 hother)
  · rintro ⟨before, found, after, rfl, hfound, hafter⟩
    refine ⟨after.reverse, found, before.reverse, by simp, hfound, fun other hother => ?_⟩
    exact hafter other (List.mem_reverse.1 hother)

theorem LastOf.exists_mem (hlast : registry.LastOf types kind) :
    ∃ found ∈ types, registry.kinds.get? found = some kind := by
  obtain ⟨before, found, after, rfl, hfound, -⟩ := hlast
  exact ⟨found, List.mem_append_right _ List.mem_cons_self, hfound⟩

theorem LastOf.unique {other : GeneratorKind} (hkind : registry.LastOf types kind)
    (hother : registry.LastOf types other) : kind = other := by
  rw [← findSome?_reverse_eq_some_iff] at hkind hother
  exact Option.some.inj (hkind.symm.trans hother)

theorem exists_lastOf (hmem : ty ∈ types) (hkind : registry.kinds.get? ty = some kind) :
    ∃ kind, registry.LastOf types kind := by
  have hsome : (types.reverse.findSome? registry.kinds.get?).isSome = true := by
    rw [List.findSome?_isSome_iff]
    exact ⟨ty, List.mem_reverse.2 hmem, by rw [hkind, Option.isSome_some]⟩
  obtain ⟨found, hfound⟩ := Option.isSome_iff_exists.1 hsome
  exact ⟨found, findSome?_reverse_eq_some_iff.1 hfound⟩

theorem LastOf.append_left (hlast : registry.LastOf rest kind) (first : List TypeName) :
    registry.LastOf (first ++ rest) kind := by
  obtain ⟨before, found, after, rfl, hfound, hafter⟩ := hlast
  exact ⟨first ++ before, found, after, (List.append_assoc _ _ _).symm, hfound, hafter⟩

/-- What follows is passed over if nothing of it is registered. -/
theorem lastOf_append_iff (hrest : ∀ other ∈ rest, registry.kinds.get? other = none) :
    registry.LastOf (first ++ rest) kind ↔ registry.LastOf first kind := by
  have hnone : rest.reverse.findSome? registry.kinds.get? = none :=
    List.findSome?_eq_none_iff.2 fun other hother => hrest other (List.mem_reverse.1 hother)
  rw [← findSome?_reverse_eq_some_iff, ← findSome?_reverse_eq_some_iff, List.reverse_append,
    List.findSome?_append, hnone, Option.none_or]

theorem get?_standard (ty : TypeName) :
    standard.kinds.get? ty =
      if ty = .clientBundle then some .bundle
      else if ty = .imageResource then some .image
      else if ty = .dataResource then some .data
      else if ty = .textResource then some .text
      else none := by
  simp only [standard, bare, register, OrderedMap.get?_insert, OrderedMap.get?_empty]

/-! ### One type -/

theorem resolve_of_registered (hkind : registry.kinds.get? ty = some kind) (h : Hierarchy) :
    registry.resolve h ty = .ok kind := by
  rw [resolve, hkind]

theorem ne_of_registered {other : TypeName} (hfree : registry.kinds.get? ty = none)
    (hkind : registry.kinds.get? other = some kind) : other ≠ ty := by
  rintro rfl
  rw [hfree] at hkind
  exact absurd hkind (Option.some_ne_none kind).symm

theorem resolve_of_parents_eq_root (hfree : registry.kinds.get? ty = none)
    (hparents : h.parents? ty = some [.root]) : registry.resolve h ty = .ok registry.nested := by
  simp [resolve, hfree, hparents]

theorem resolve_eq_ok_iff {parents : List TypeName} (hfree : registry.kinds.get? ty = none)
    (hparents : h.parents? ty = some parents) (hany : parents ≠ []) (hroot : parents ≠ [.root]) :
    registry.resolve h ty = .ok kind ↔ registry.LastOf parents kind := by
  rw [← findSome?_reverse_eq_some_iff]
  simp only [resolve, hfree, hparents, hany, hroot, or_self, if_false]
  cases parents.reverse.findSome? registry.kinds.get? with
  | none => simp
  | some found => simp

/-! ### Later supertypes -/

/-- A generator is registered for one of some types, or for a type above one of them. -/
def Offers (registry : Registry) (h : Hierarchy) (types : List TypeName) (kind : GeneratorKind) : Prop :=
  ∃ above, h.AtOrAbove types above ∧ registry.kinds.get? above = some kind

/-- A generator is registered for a type at or above later supertypes that is not met from the earlier
ones. -/
def Brings (registry : Registry) (h : Hierarchy) (ty : TypeName) (first rest : List TypeName)
    (kind : GeneratorKind) : Prop :=
  ∃ above, h.AtOrAbove rest above ∧ registry.kinds.get? above = some kind ∧ ¬ h.Met ty first above

theorem Brings.offers (hbrings : registry.Brings h ty first rest kind) : registry.Offers h rest kind := by
  obtain ⟨above, habove, hkind, -⟩ := hbrings
  exact ⟨above, habove, hkind⟩

section

variable (hfree : registry.kinds.get? ty = none) (hsupertypes : h.supertypes? ty = some (first ++ rest))
  (hroot : h.parents? ty ≠ some [.root])

include hfree hsupertypes hroot

theorem exists_resolve_of_brings (hbrings : ∃ kind, registry.Brings h ty first rest kind) :
    ∃ kind, registry.resolve h ty = .ok kind ∧ registry.Brings h ty first rest kind := by
  obtain ⟨added, hparents, hadded⟩ := Hierarchy.exists_parents_append hsupertypes
  obtain ⟨kind, above, habove, hkind, hnew⟩ := hbrings
  have hmem : above ∈ added := (hadded above).2 ⟨ne_of_registered hfree hkind, habove, hnew⟩
  -- What is added for the later supertypes stands at the end, where the search begins.
  obtain ⟨kind, hlast⟩ := exists_lastOf hmem hkind
  refine ⟨kind, (resolve_eq_ok_iff hfree hparents ?_ fun h => hroot (h ▸ hparents)).2 (hlast.append_left _), ?_⟩
  · exact List.append_ne_nil_of_right_ne_nil _ (List.ne_nil_of_mem hmem)
  · obtain ⟨found, hfound, hkind⟩ := hlast.exists_mem
    obtain ⟨-, habove, hnew⟩ := (hadded found).1 hfound
    exact ⟨found, habove, hkind, hnew⟩

theorem exists_resolve_of_not_brings (hoffers : ∃ kind, registry.Offers h rest kind)
    (hnothing : ¬ ∃ kind, registry.Brings h ty first rest kind) :
    ∃ kind, registry.resolve h ty = .ok kind ∧ registry.LastOf (h.walk ty [] first) kind := by
  obtain ⟨added, hparents, hadded⟩ := Hierarchy.exists_parents_append hsupertypes
  have hnone : ∀ other ∈ added, registry.kinds.get? other = none := by
    intro other hother
    obtain ⟨-, habove, hnew⟩ := (hadded other).1 hother
    by_contra hsome
    obtain ⟨kind, hkind⟩ := Option.ne_none_iff_exists'.1 hsome
    exact hnothing ⟨kind, other, habove, hkind, hnew⟩
  -- So the search passes over all that is added, and something registered was met before.
  obtain ⟨kind, above, habove, hkind⟩ := hoffers
  have hmet : h.Met ty first above := by
    by_contra hnew
    exact hnothing ⟨kind, above, habove, hkind, hnew⟩
  have hmem : above ∈ h.walk ty [] first := Hierarchy.mem_walk_iff.2 ⟨ne_of_registered hfree hkind, hmet⟩
  obtain ⟨kind, hlast⟩ := exists_lastOf hmem hkind
  refine ⟨kind, (resolve_eq_ok_iff hfree hparents ?_ fun h => hroot (h ▸ hparents)).2
    ((lastOf_append_iff hnone).2 hlast), hlast⟩
  exact List.append_ne_nil_of_left_ne_nil (List.ne_nil_of_mem hmem) _

end

/-- How the last supertype of a type takes part in the choice of its generator. -/
structure Precedence (registry : Registry) (h : Hierarchy) (ty : TypeName) (earlier : List TypeName)
    (last : TypeName) : Prop where
  /-- A type whose only parent is the root is a nested bundle. -/
  onlyRoot : h.parents? ty = some [.root] → registry.resolve h ty = .ok registry.nested
  brings : h.parents? ty ≠ some [.root] → (∃ kind, registry.Brings h ty earlier [last] kind) →
    ∃ kind, registry.resolve h ty = .ok kind ∧ registry.Brings h ty earlier [last] kind
  /-- All that is registered at or above the last supertype is met before. -/
  shares : h.parents? ty ≠ some [.root] → (¬ ∃ kind, registry.Brings h ty earlier [last] kind) →
    ∃ kind, registry.resolve h ty = .ok kind ∧ registry.LastOf (h.walk ty [] earlier) kind
  /-- When the generator is one that the last supertype offers. -/
  offers_iff : h.parents? ty ≠ some [.root] →
    ((∃ kind, registry.resolve h ty = .ok kind ∧ registry.Offers h [last] kind) ↔
      (∃ kind, registry.Brings h ty earlier [last] kind) ∨
        ∃ kind, registry.LastOf (h.walk ty [] earlier) kind ∧ registry.Offers h [last] kind)

/-- The last supertype decides by what it brings; if it shares all that it offers, the earlier ones
decide. -/
theorem precedence_of_offers {earlier : List TypeName} (hfree : registry.kinds.get? ty = none)
    (hsupertypes : h.supertypes? ty = some (earlier ++ [last]))
    (hoffers : ∃ kind, registry.Offers h [last] kind) : Precedence registry h ty earlier last := by
  constructor
  case onlyRoot => exact resolve_of_parents_eq_root hfree
  case brings => exact fun hroot => exists_resolve_of_brings hfree hsupertypes hroot
  case shares => exact fun hroot => exists_resolve_of_not_brings hfree hsupertypes hroot hoffers
  case offers_iff =>
    intro hroot
    by_cases hbrings : ∃ kind, registry.Brings h ty earlier [last] kind
    · obtain ⟨kind, hkind, hnew⟩ := exists_resolve_of_brings hfree hsupertypes hroot hbrings
      exact iff_of_true ⟨kind, hkind, hnew.offers⟩ (Or.inl hbrings)
    · obtain ⟨kind, hkind, hlast⟩ :=
        exists_resolve_of_not_brings hfree hsupertypes hroot hoffers hbrings
      have hwhole : ∀ other, registry.resolve h ty = .ok other ↔
          registry.LastOf (h.walk ty [] earlier) other := by
        intro other
        rw [hkind, Except.ok.injEq]
        exact ⟨fun heq => heq ▸ hlast, fun hother => hlast.unique hother⟩
      simp only [hwhole, hbrings, false_or]

/-- Both supertypes of a type lead to a registered type, which is entered for the first of them. -/
def diamond : Hierarchy :=
  Hierarchy.builtin
    |>.declare ⟨"crate::Left"⟩ [.textResource, .dataResource] none
    |>.declare ⟨"crate::Right"⟩ [.textResource] none
    |>.declare ⟨"crate::Both"⟩ [⟨"crate::Left"⟩, ⟨"crate::Right"⟩] none

private theorem offers_diamond_iff : standard.Offers diamond [⟨"crate::Right"⟩] kind ↔ kind = .text := by
  have hright : diamond.supertypes? ⟨"crate::Right"⟩ = some [.textResource] := by decide +kernel
  constructor
  · rintro ⟨above, ⟨origin, horigin, hway⟩, hkind⟩
    have hparents : diamond.parents? ⟨"crate::Right"⟩ = some [.textResource, .resourcePrototype] :=
      Hierarchy.parents?_of_walkWithin 2 (by decide +kernel)
    rw [List.mem_singleton.1 horigin] at hway
    have hmem : above ∈ [⟨"crate::Right"⟩, .textResource, .resourcePrototype] := by
      rcases Relation.reflTransGen_iff_eq_or_transGen.1 hway with rfl | habove
      · exact List.mem_cons_self
      · exact List.mem_cons.2 (Hierarchy.mem_parents_of_below hparents habove)
    simp only [List.mem_cons, List.not_mem_nil, or_false] at hmem
    rcases hmem with rfl | rfl | rfl
    · exact absurd hkind (Option.some_ne_none kind).symm
    · exact (Option.some.inj hkind).symm
    · exact absurd hkind (Option.some_ne_none kind).symm
  · rintro rfl
    exact ⟨.textResource, ⟨_, List.mem_singleton_self _, .single ⟨_, hright, List.mem_singleton_self _⟩⟩, rfl⟩

theorem precedence_diamond :
    Precedence standard diamond ⟨"crate::Both"⟩ [⟨"crate::Left"⟩] ⟨"crate::Right"⟩ ∧
      (∀ kind, standard.Offers diamond [⟨"crate::Right"⟩] kind ↔ kind = .text) ∧
      standard.resolve diamond ⟨"crate::Both"⟩ = .ok .data := by
  have hfree : standard.kinds.get? ⟨"crate::Both"⟩ = none := rfl
  refine ⟨precedence_of_offers hfree (by decide +kernel) ⟨.text, offers_diamond_iff.2 rfl⟩,
    fun _ => offers_diamond_iff, ?_⟩
  have hparents : diamond.parents? ⟨"crate::Both"⟩ =
      some [⟨"crate::Left"⟩, .textResource, .resourcePrototype, .dataResource, ⟨"crate::Right"⟩] :=
    Hierarchy.parents?_of_walkWithin 7 (by decide +kernel)
  rw [resolve_eq_ok_iff hfree hparents (by decide) (by decide)]
  exact ⟨[⟨"crate::Left"⟩, .textResource, .resourcePrototype], .dataResource, [⟨"crate::Right"⟩], rfl, rfl,
    List.forall_mem_singleton.2 rfl⟩

end BundleForge.Registry
