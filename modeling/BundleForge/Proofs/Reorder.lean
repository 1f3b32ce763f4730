import BundleForge.Pass
import BundleForge.Proofs.OrderedMap
/-!
# Declarations in another order

A map answers alike whatever the order of its entries. What a pass asks of the hierarchy and of the declared
bundles are lookups, so a plan whose declarations stand in another order groups the accessors of a bundle into the
same tasks, implements the same bundles and gives generators context that answer alike.
-/

namespace BundleForge

namespace OrderedMap

universe u v

variable {κ : Type u} {ν : Type v} [DecidableEq κ]

theorem get?_eq_of_perm {m other : OrderedMap κ ν} (h : m.entries.Perm other.entries) (key : κ) :
    m.get? key = other.get? key := by
  rw [Option.ext_iff]
  intro value
  rw [get?_eq_some_iff, get?_eq_some_iff, h.mem_iff]

end OrderedMap

namespace Hierarchy

variable {hierarchy other : Hierarchy}

/-- Hierarchies that know the same of every type. -/
def Agrees (hierarchy other : Hierarchy) : Prop :=
  ∀ ty, hierarchy.types.get? ty = other.types.get? ty

theorem Agrees.supertypes? (h : hierarchy.Agrees other) (ty : TypeName) :
    hierarchy.supertypes? ty = other.supertypes? ty := by
  rw [Hierarchy.supertypes?, Hierarchy.supertypes?, h ty]

theorem Agrees.extensions? (h : hierarchy.Agrees other) (ty : TypeName) :
    hierarchy.extensions? ty = other.extensions? ty := by
  rw [Hierarchy.extensions?, Hierarchy.extensions?, h ty]

theorem Agrees.walk (h : hierarchy.Agrees other) (start : TypeName) (entered pending : List TypeName) :
    hierarchy.walk start entered pending = other.walk start entered pending := by
  induction entered, pending using Hierarchy.walk.induct hierarchy start with
  | case1 entered => rw [Hierarchy.walk, Hierarchy.walk]
  | case2 entered ty pending hskip ih =>
    rw [Hierarchy.walk, Hierarchy.walk, dif_pos hskip, dif_pos hskip, ih]
  | case3 entered ty pending hskip supertypes hty ih =>
    have hty' := (h.supertypes? ty).symm.trans hty
    rw [Hierarchy.walk, Hierarchy.walk, dif_neg hskip, dif_neg hskip]
    split <;> rename_i hfound <;> rw [hty] at hfound
    · obtain rfl := Option.some.inj hfound
      split <;> rename_i hfound' <;> rw [hty'] at hfound'
      · obtain rfl := Option.some.inj hfound'
        exact ih
      · simp at hfound'
    · simp at hfound
  | case4 entered ty pending hskip hty ih =>
    have hty' := (h.supertypes? ty).symm.trans hty
    rw [Hierarchy.walk, Hierarchy.walk, dif_neg hskip, dif_neg hskip]
    split <;> rename_i hfound <;> rw [hty] at hfound
    · simp at hfound
    · split <;> rename_i hfound' <;> rw [hty'] at hfound'
      · simp at hfound'
      · exact ih

theorem Agrees.parents? (h : hierarchy.Agrees other) (ty : TypeName) :
    hierarchy.parents? ty = other.parents? ty := by
  have hwalk : hierarchy.walk ty [] = other.walk ty [] := by
    funext pending
    exact h.walk ty [] pending
  rw [Hierarchy.parents?, Hierarchy.parents?, h.supertypes? ty, hwalk]

theorem Agrees.defaultExtensions (h : hierarchy.Agrees other) (ty : TypeName) :
    hierarchy.defaultExtensions ty = other.defaultExtensions ty := by
  have hextensions : hierarchy.extensions? = other.extensions? := by
    funext ty
    exact h.extensions? ty
  rw [Hierarchy.defaultExtensions, Hierarchy.defaultExtensions, hextensions, h.parents? ty]

theorem Agrees.resolve (h : hierarchy.Agrees other) (registry : Registry) (ty : TypeName) :
    registry.resolve hierarchy ty = registry.resolve other ty := by
  rw [Registry.resolve, Registry.resolve, h.parents? ty]

theorem Agrees.ofBundle (h : hierarchy.Agrees other) (registry : Registry) (bundle : Bundle) :
    Dispatch.ofBundle registry hierarchy bundle = Dispatch.ofBundle registry other bundle := by
  have hadd : Dispatch.add registry hierarchy = Dispatch.add registry other := by
    funext dispatch accessor
    rw [Dispatch.add, Dispatch.add, h.resolve registry accessor.kind]
  rw [Dispatch.ofBundle, Dispatch.ofBundle, hadd]

end Hierarchy

namespace Plan

/-- A plan with the same declarations, types and bundles perhaps in another order. -/
structure Reorders (plan other : Plan) : Prop where
  types : plan.hierarchy.types.entries.Perm other.hierarchy.types.entries
  bundles : plan.bundles.entries.Perm other.bundles.entries
  registry : plan.registry = other.registry
  deployment : plan.deployment = other.deployment
  stripComments : plan.stripComments = other.stripComments

variable {plan other : Plan}

theorem Reorders.refl (plan : Plan) : plan.Reorders plan :=
  ⟨.refl _, .refl _, rfl, rfl, rfl⟩

theorem Reorders.agrees (h : plan.Reorders other) : plan.hierarchy.Agrees other.hierarchy :=
  OrderedMap.get?_eq_of_perm h.types

theorem Reorders.get?_bundles (h : plan.Reorders other) (ty : TypeName) :
    plan.bundles.get? ty = other.bundles.get? ty :=
  OrderedMap.get?_eq_of_perm h.bundles ty

theorem Reorders.implemented (h : plan.Reorders other) (bundle : Bundle) :
    Pass.implemented plan bundle = Pass.implemented other bundle := by
  have hcontains : plan.bundles.contains = other.bundles.contains := by
    funext ty
    rw [OrderedMap.contains, OrderedMap.contains, h.get?_bundles ty]
  rw [Pass.implemented, Pass.implemented, h.agrees.parents? bundle.name, hcontains]

end Plan

end BundleForge
