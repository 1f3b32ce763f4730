import BundleForge.OrderedMap
import BundleForge.TypeName
/-!
# The hierarchy of types

Each known type has direct supertypes and, possibly, default extensions of its own. Supertypes need
not be known. `parents?` is the closure over supertypes in the order of a depth-first walk that
enters every type once: the walk goes through the pending supertypes from the left and puts those of
a type it enters before the others. Entering a known type leaves fewer known types to enter, entering
an unknown one or passing over a type leaves fewer pending ones, so it ends also where supertypes
form a cycle.
-/

namespace BundleForge

structure TypeEntry where
  supertypes : List TypeName
  extensions : Option (List String)
deriving DecidableEq, Repr

structure Hierarchy where
  types : OrderedMap TypeName TypeEntry

namespace Hierarchy

def declare (h : Hierarchy) (ty : TypeName) (supertypes : List TypeName)
    (extensions : Option (List String)) : Hierarchy :=
  ⟨h.types.insert ty ⟨supertypes, extensions⟩⟩

def builtin : Hierarchy :=
  let prototypes := (⟨.empty⟩ : Hierarchy)
    |>.declare .resourcePrototype [] none
    |>.declare .clientBundle [] none
  prototypes
    |>.declare .textResource [.resourcePrototype] (some [".txt"])
    |>.declare .dataResource [.resourcePrototype] none
    |>.declare .imageResource [.resourcePrototype] (some [".png", ".jpg", ".gif", ".bmp"])

def contains (h : Hierarchy) (ty : TypeName) : Bool := h.types.contains ty

def supertypes? (h : Hierarchy) (ty : TypeName) : Option (List TypeName) :=
  (h.types.get? ty).map (·.supertypes)

def extensions? (h : Hierarchy) (ty : TypeName) : Option (List String) :=
  (h.types.get? ty).bind (·.extensions)

def unentered (h : Hierarchy) (entered : List TypeName) : List TypeName :=
  h.types.keys.filter (· ∉ entered)

theorem mem_keys_of_supertypes? {h : Hierarchy} {ty : TypeName} {supertypes : List TypeName}
    (hty : h.supertypes? ty = some supertypes) : ty ∈ h.types.keys := by
  obtain ⟨entry, hentry, -⟩ := Option.map_eq_some_iff.1 hty
  obtain ⟨before, after, hsplit, -⟩ := List.lookup_eq_some_iff.1 hentry
  simp [OrderedMap.keys, hsplit]

theorem length_unentered_lt {h : Hierarchy} {ty : TypeName} {entered : List TypeName}
    (hknown : ty ∈ h.types.keys) (hnew : ty ∉ entered) :
    (h.unentered (entered ++ [ty])).length < (h.unentered entered).length := by
  have hfilter : h.unentered (entered ++ [ty]) = (h.unentered entered).filter (· ≠ ty) := by
    simp [unentered, List.filter_filter, Bool.and_comm]
  rw [hfilter]
  refine List.length_filter_lt_length_iff_exists.2 ⟨ty, ?_, by simp⟩
  simp [unentered, hknown, hnew]

set_option linter.unusedVariables false in
def walk (h : Hierarchy) (start : TypeName) (entered : List TypeName) :
    List TypeName → List TypeName
  | [] => entered
  | ty :: pending =>
    if hskip : ty = start ∨ ty ∈ entered then h.walk start entered pending
    else
      match hty : h.supertypes? ty with
      | some supertypes => h.walk start (entered ++ [ty]) (supertypes ++ pending)
      | none => h.walk start (entered ++ [ty]) pending
termination_by pending => ((h.unentered entered).length, pending.length)
decreasing_by
  · exact Prod.Lex.right _ (Nat.lt_succ_self _)
  · exact Prod.Lex.left _ _
      (length_unentered_lt (mem_keys_of_supertypes? hty) fun hmem => hskip (.inr hmem))
  · have hunknown : h.unentered (entered ++ [ty]) = h.unentered entered := by
      have hnot : ty ∉ h.types.keys := fun hmem => by
        obtain ⟨entry, hentry, hfst⟩ := List.mem_map.1 hmem
        have hsome : (h.types.entries.lookup ty).isSome = true := by
          rw [List.lookup_isSome_iff]
          exact ⟨entry, hentry, by simp [hfst]⟩
        rw [supertypes?, Option.map_eq_none_iff] at hty
        rw [OrderedMap.get?] at hty
        simp [hty] at hsome
      refine List.filter_congr fun other hother => ?_
      have hne : other ≠ ty := fun heq => hnot (heq ▸ hother)
      simp [hne]
    rw [hunknown]
    exact Prod.Lex.right _ (Nat.lt_succ_self _)

/-- The transitive supertypes of a known type, the type itself left out. -/
def parents? (h : Hierarchy) (ty : TypeName) : Option (List TypeName) :=
  (h.supertypes? ty).map (h.walk ty [])

/-- The extensions a type declares, else those of the first transitive supertype that declares
some. -/
def defaultExtensions (h : Hierarchy) (ty : TypeName) : List String :=
  match h.extensions? ty with
  | some extensions => extensions
  | none => (((h.parents? ty).getD []).findSome? h.extensions?).getD []

end Hierarchy

end BundleForge
