import BundleForge.Image.Header
import Mathlib.Data.List.Induction
/-!
# Numbers in bytes

A number is written down in a fixed count of bytes, most significant byte first, and read back from them wherever
they stand in some data.
-/

namespace BundleForge

namespace Bytes

/-- A number in so many bytes, most significant byte first; what is too large for them is cut off. -/
def ofNat : Nat → Nat → Bytes
  | 0, _ => []
  | count + 1, n => ofNat count (n / 256) ++ [UInt8.ofNat n]

theorem length_ofNat (count n : Nat) : (ofNat count n).length = count := by
  induction count generalizing n with
  | zero => rfl
  | succ count ih => rw [ofNat, List.length_append, ih, List.length_singleton]

theorem bigEndian_concat (bytes : Bytes) (byte : UInt8) :
    bigEndian (bytes ++ [byte]) = bigEndian bytes * 256 + byte.toNat := by
  rw [bigEndian, List.foldl_append]
  rfl

theorem bigEndian_pair (high low : UInt8) : bigEndian [high, low] = 256 * high.toNat + low.toNat := by
  rw [← List.singleton_append, bigEndian_concat, Nat.mul_comm 256]
  simp only [bigEndian, List.foldl_cons, List.foldl_nil, Nat.zero_mul, Nat.zero_add]

theorem bigEndian_ofNat {count n : Nat} (h : n < Nat.pow 256 count) : bigEndian (ofNat count n) = n := by
  induction count generalizing n with
  | zero => exact (Nat.lt_one_iff.1 h).symm
  | succ count ih =>
    have hfront : n / 256 < Nat.pow 256 count := Nat.div_lt_of_lt_mul (Nat.mul_comm 256 _ ▸ h)
    have hlast : (UInt8.ofNat n).toNat = n % 256 := UInt8.toNat_ofNat'
    rw [ofNat, bigEndian_concat, ih hfront, hlast]
    omega

theorem ofNat_bigEndian (bytes : Bytes) : ofNat bytes.length (bigEndian bytes) = bytes := by
  induction bytes using List.reverseRecOn with
  | nil => rfl
  | append_singleton front byte ih =>
    have hbyte := byte.toNat_lt
    have hfront : (bigEndian front * 256 + byte.toNat) / 256 = bigEndian front := by omega
    have hlast : UInt8.ofNat (bigEndian front * 256 + byte.toNat) = byte := by
      rw [← UInt8.toNat_inj, UInt8.toNat_ofNat']
      omega
    rw [bigEndian_concat, List.length_append, List.length_singleton, ofNat, hfront, hlast, ih]

theorem ofNat_two (high low : UInt8) : ofNat 2 (UInt16.ofNat (bigEndian [high, low])).toNat = [high, low] := by
  have hvalue : (UInt16.ofNat (bigEndian [high, low])).toNat = bigEndian [high, low] := by
    have hhigh := high.toNat_lt
    have hlow := low.toNat_lt
    rw [UInt16.toNat_ofNat', bigEndian_pair]
    omega
  rw [hvalue]
  exact ofNat_bigEndian [high, low]

end Bytes

namespace Image

theorem le_length_of_bigEndianAt? {bytes : Bytes} {offset count : Nat} {n : UInt32}
    (h : bigEndianAt? bytes offset count = some n) : count ≤ bytes.length - offset := by
  by_contra hshort
  have hfield : ((bytes.drop offset).take count).length ≠ count := by
    rw [List.length_take, List.length_drop]
    omega
  rw [bigEndianAt?, if_neg hfield] at h
  exact Option.some_ne_none n h.symm

theorem bigEndianAt?_ofNat (before : Bytes) {offset count n : Nat} (hbefore : before.length = offset)
    (hn : n < Nat.pow 256 count) (after : Bytes) :
    bigEndianAt? (before ++ (Bytes.ofNat count n ++ after)) offset count = some (UInt32.ofNat n) := by
  have hfield : ((before ++ (Bytes.ofNat count n ++ after)).drop offset).take count = Bytes.ofNat count n := by
    rw [List.drop_left' hbefore, List.take_left' (Bytes.length_ofNat count n)]
  rw [bigEndianAt?, hfield, if_pos (Bytes.length_ofNat count n), Bytes.bigEndian_ofNat hn]

theorem bigEndianAt?_four (before : Bytes) {offset : Nat} (hbefore : before.length = offset) (n : UInt32)
    (after : Bytes) : bigEndianAt? (before ++ (Bytes.ofNat 4 n.toNat ++ after)) offset 4 = some n := by
  rw [bigEndianAt?_ofNat before hbefore n.toNat_lt, UInt32.ofNat_toNat]

theorem bigEndianAt?_two (before : Bytes) {offset : Nat} (hbefore : before.length = offset) (n : UInt16)
    (after : Bytes) : bigEndianAt? (before ++ (Bytes.ofNat 2 n.toNat ++ after)) offset 2 = some n.toUInt32 := by
  rw [bigEndianAt?_ofNat before hbefore n.toNat_lt, UInt32.ofNat_uInt16ToNat]

end Image

end BundleForge
