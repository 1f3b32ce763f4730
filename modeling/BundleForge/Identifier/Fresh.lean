import Std.Data.String.ToNat
/-!
# Names not yet in use

A name that is taken gets the smallest number that makes it free: `base`, then `base` followed by a
separator and 0, 1, 2 and so on. Among one more candidate than there are names in use some candidate
is free, so `fresh` needs no bound of its own and always answers.
-/

namespace BundleForge.Identifier

def numbered (separator base : String) : Nat → String
  | 0 => base
  | n + 1 => base ++ separator ++ n.repr

theorem numbered_injective (separator base : String) {m n : Nat}
    (h : numbered separator base m = numbered separator base n) : m = n := by
  have key : ∀ k : Nat, base ≠ base ++ separator ++ k.repr := fun k hk => by
    have := congrArg String.length hk
    simp only [String.length_append] at this
    have hpos : 0 < k.repr.length :=
      Nat.pos_of_ne_zero fun hz => Nat.repr_ne_empty (String.length_eq_zero_iff.1 hz)
    omega
  cases m with
  | zero =>
    cases n with
    | zero => rfl
    | succ n => exact absurd h (key n)
  | succ m =>
    cases n with
    | zero => exact absurd h.symm (key m)
    | succ n =>
      have := Nat.repr_injective (String.append_right_inj _ |>.1 h)
      omega

def candidates (used : List String) (separator base : String) : List String :=
  (List.range (used.length + 1)).map (numbered separator base)

theorem nodup_candidates (used : List String) (separator base : String) :
    (candidates used separator base).Nodup := by
  rw [candidates, List.nodup_iff_pairwise_ne, List.pairwise_map]
  exact (List.nodup_iff_pairwise_ne.1 List.nodup_range).imp
    fun hne h => hne (numbered_injective separator base h)

theorem exists_candidate (used : List String) (separator base : String) :
    ((candidates used separator base).find? (· ∉ used)).isSome = true := by
  rw [List.find?_isSome]
  refine Classical.byContradiction fun h => ?_
  have hsub : candidates used separator base ⊆ used := fun name hname =>
    Classical.byContradiction fun hused => h ⟨name, hname, by simpa using hused⟩
  have := (nodup_candidates used separator base).length_le_of_subset hsub
  simp only [candidates, List.length_map, List.length_range] at this
  omega

def fresh (used : List String) (separator base : String) : String :=
  ((candidates used separator base).find? (· ∉ used)).get (exists_candidate used separator base)

theorem find?_candidates (used : List String) (separator base : String) :
    (candidates used separator base).find? (· ∉ used) = some (fresh used separator base) := by
  rw [fresh, Option.some_get]

theorem fresh_not_mem (used : List String) (separator base : String) :
    fresh used separator base ∉ used := by
  simpa using List.find?_some (find?_candidates used separator base)

end BundleForge.Identifier
