import Mathlib.Init
/-!
# Computations that may fail

What is known of a computation in steps once it has given a result.
-/

namespace BundleForge

theorem bind_eq_ok {ε α β : Type} {first : Except ε α} {next : α → Except ε β} {result : β}
    (h : (first >>= next) = .ok result) : ∃ value, first = .ok value ∧ next value = .ok result := by
  cases first with
  | error cause => simp [bind, Except.bind] at h
  | ok value => exact ⟨value, rfl, h⟩

end BundleForge
