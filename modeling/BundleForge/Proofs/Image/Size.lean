import BundleForge.Image.Size
import Mathlib
/-!
# Sizes in proportion

The other side of an image is the whole number nearest to the exact ratio, as long as that is a word. The product of
two words with half of a third never fills a double word, so that nothing is lost on the way.
-/

namespace BundleForge.Image

/-! ### Rounding -/

/-- Half of the divisor, added in front, makes a quotient of whole numbers the nearest one. -/
theorem round_div (n : ℕ) {side : ℕ} (hside : 0 < side) :
    round ((n : ℚ) / side) = ((n + side / 2) / side : ℕ) := by
  have hpos : (0 : ℚ) < side := Nat.cast_pos.2 hside
  have hlower : (n + side / 2) / side * side ≤ n + side / 2 := Nat.div_mul_le_self _ _
  have hupper : n + side / 2 < ((n + side / 2) / side + 1) * side := by
    rw [Nat.add_mul, Nat.one_mul]
    exact Nat.lt_div_mul_add hside
  generalize (n + side / 2) / side = quotient at hlower hupper
  -- Doubled, as half of an odd divisor is no whole number.
  have hbelow : 2 * (quotient * side) ≤ 2 * n + side := by omega
  have habove : 2 * n + side < 2 * ((quotient + 1) * side) := by omega
  rw [round_eq_iff, Set.mem_Ico, Int.cast_natCast, le_div_iff₀ hpos, div_lt_iff₀ hpos]
  have hbelow' : (2 : ℚ) * (quotient * side) ≤ 2 * n + side := mod_cast hbelow
  have habove' : (2 : ℚ) * n + side < 2 * ((quotient + 1) * side) := mod_cast habove
  constructor <;> linarith

/-! ### Words -/

section

variable (target side other : UInt32)

theorem product_le : target.toNat * other.toNat ≤ (2 ^ 32 - 1) * (2 ^ 32 - 1) :=
  Nat.mul_le_mul (Nat.le_pred_of_lt target.toNat_lt) (Nat.le_pred_of_lt other.toNat_lt)

theorem toNat_product : (target.toUInt64 * other.toUInt64).toNat = target.toNat * other.toNat := by
  rw [UInt64.toNat_mul, UInt32.toNat_toUInt64, UInt32.toNat_toUInt64]
  exact Nat.mod_eq_of_lt (Nat.lt_of_le_of_lt (product_le target other) (by decide))

theorem toNat_dividend :
    (dividend target side other).toNat = target.toNat * other.toNat + side.toNat / 2 := by
  have hproduct := product_le target other
  have hside := side.toNat_lt
  have hhalf : (side.toUInt64 / 2).toNat = side.toNat / 2 := by
    rw [UInt64.toNat_div, UInt32.toNat_toUInt64]
    rfl
  rw [dividend, UInt64.toNat_add, toNat_product, hhalf]
  exact Nat.mod_eq_of_lt (by omega)

theorem toNat_narrow (wide : UInt64) : (narrow wide).toNat = min wide.toNat (UInt32.size - 1) := by
  rw [narrow]
  split
  · rename_i hle
    have hword : wide.toNat ≤ UInt32.size - 1 := UInt64.le_iff_toNat_le.1 hle
    rw [UInt64.toNat_toUInt32, Nat.min_eq_left hword]
    exact Nat.mod_eq_of_lt (Nat.lt_of_le_of_lt hword (by decide))
  · rename_i hlt
    have hword : UInt32.size - 1 < wide.toNat := UInt64.lt_iff_toNat_lt.1 (UInt64.not_le.1 hlt)
    rw [Nat.min_eq_right (Nat.le_of_lt hword)]
    rfl

theorem scaled_zero : scaled target 0 other = 0 := by
  rw [scaled, if_pos rfl]

variable {side}

theorem toNat_scaled (hside : side ≠ 0) :
    ((scaled target side other).toNat : ℤ) =
      min (round (target.toNat * other.toNat / side.toNat : ℚ)) (UInt32.size - 1 : ℕ) := by
  have hpos : 0 < side.toNat := Nat.pos_of_ne_zero fun hzero => hside (UInt32.toNat_inj.1 hzero)
  have hround := round_div (target.toNat * other.toNat) hpos
  rw [Nat.cast_mul] at hround
  rw [scaled, if_neg hside, toNat_narrow, UInt64.toNat_div, toNat_dividend, UInt32.toNat_toUInt64, hround,
    Nat.cast_min]

theorem scaled_self (hside : side ≠ 0) : scaled side side other = other := by
  have hpos : (side.toNat : ℚ) ≠ 0 := fun hzero => hside (UInt32.toNat_inj.1 (Nat.cast_eq_zero.1 hzero))
  have hother : (other.toNat : ℤ) ≤ (UInt32.size - 1 : ℕ) := mod_cast Nat.le_pred_of_lt other.toNat_lt
  have hscaled := toNat_scaled side other hside
  rw [mul_div_cancel_left₀ _ hpos, round_natCast, min_eq_left hother] at hscaled
  exact UInt32.toNat_inj.1 (Nat.cast_inj.1 hscaled)

end

/-! ### Overrides -/

theorem proper_of_ne {side : UInt32} (hside : side ≠ 0) : proper (some side) = some side := by
  rw [proper, Option.filter_some, if_pos (decide_eq_true (UInt32.pos_iff_ne_zero.2 hside))]

/-- The other side of an image when one side becomes the target. -/
structure InProportion (target side other result : UInt32) : Prop where
  /-- Neither the product nor its sum with the half is too large for a double word. -/
  product : (target.toUInt64 * other.toUInt64).toNat = target.toNat * other.toNat
  sum : (dividend target side other).toNat = target.toNat * other.toNat + side.toNat / 2
  /-- The nearest whole number, where halves go up, or the largest word. -/
  nearest : side ≠ 0 →
    (result.toNat : ℤ) = min (round (target.toNat * other.toNat / side.toNat : ℚ)) 4294967295
  degenerate : side = 0 → result = 0

theorem inProportion_scaled (target side other : UInt32) :
    InProportion target side other (scaled target side other) where
  product := toNat_product target other
  sum := toNat_dividend target side other
  nearest := toNat_scaled target other
  degenerate := fun hside => hside ▸ scaled_zero target other

/-- How an image of some size is shown under overrides. -/
structure KeepsProportion (width height : UInt32) : Prop where
  zero_width : ∀ other, displaySize width height (some 0) other = displaySize width height none other
  zero_height : ∀ other, displaySize width height other (some 0) = displaySize width height other none
  both : ∀ across down, across ≠ 0 → down ≠ 0 →
    displaySize width height (some across) (some down) = (across, down)
  neither : displaySize width height none none = (width, height)
  by_width : ∀ across, across ≠ 0 →
    ∃ down, displaySize width height (some across) none = (across, down) ∧
      InProportion across width height down
  by_height : ∀ down, down ≠ 0 →
    ∃ across, displaySize width height none (some down) = (across, down) ∧
      InProportion down height width across
  same_width : displaySize width height (some width) none = (width, height)
  same_height : displaySize width height none (some height) = (width, height)

/-- An image keeps its proportion when one of its sides is overridden. -/
theorem keepsProportion_displaySize (width height : UInt32) : KeepsProportion width height := by
  constructor
  case zero_width => exact fun _ => rfl
  case zero_height => exact fun _ => rfl
  case both =>
    intro across down hacross hdown
    rw [displaySize, proper_of_ne hacross, proper_of_ne hdown]
  case neither => rfl
  case by_width =>
    intro across hacross
    refine ⟨scaled across width height, ?_, inProportion_scaled across width height⟩
    rw [displaySize, proper_of_ne hacross]
    rfl
  case by_height =>
    intro down hdown
    refine ⟨scaled down height width, ?_, inProportion_scaled down height width⟩
    rw [displaySize, proper_of_ne hdown]
    rfl
  case same_width =>
    by_cases hwidth : width = 0
    · rw [hwidth]
      rfl
    · rw [displaySize, proper_of_ne hwidth]
      exact congrArg (Prod.mk width) (scaled_self height hwidth)
  case same_height =>
    by_cases hheight : height = 0
    · rw [hheight]
      rfl
    · rw [displaySize, proper_of_ne hheight]
      exact congrArg (Prod.mk · height) (scaled_self width hheight)

/-- The largest sides, and a half that goes up. -/
theorem keepsProportion_extremes :
    (4294967295 : UInt32) ≠ 0 ∧ (3 : UInt32) ≠ 0 ∧
      displaySize 1 4294967295 (some 4294967295) (some 3) = (4294967295, 3) ∧
      (∃ down, displaySize 1 4294967295 (some 4294967295) none = (4294967295, down) ∧
        InProportion 4294967295 1 4294967295 down) ∧
      ∃ across, displaySize 5 6 none (some 3) = (across, 3) ∧ InProportion 3 6 5 across ∧ across = 3 := by
  have hlarge : (4294967295 : UInt32) ≠ 0 := by decide
  have hthree : (3 : UInt32) ≠ 0 := by decide
  have hwide := keepsProportion_displaySize 1 4294967295
  obtain ⟨across, hshown, hacross⟩ := (keepsProportion_displaySize 5 6).by_height 3 hthree
  have hup : displaySize 5 6 none (some 3) = (3, 3) := by decide +kernel
  exact ⟨hlarge, hthree, hwide.both _ _ hlarge hthree, hwide.by_width _ hlarge, across, hshown, hacross,
    (Prod.mk.inj (hshown.symm.trans hup)).1⟩

end BundleForge.Image
