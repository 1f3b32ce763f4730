import BundleForge.Encoding.Base64
import Mathlib.Data.List.Basic
import Mathlib.Data.Option.Basic
/-!
# Base64 is read back

Encoding and strict decoding are inverse to each other, so a payload has exactly one text that decodes to it:
its groups of four characters are of the standard alphabet, and padding stands only where the last group has
too few bytes.
-/

namespace BundleForge.Base64

theorem value?_digit : ∀ bits < 64, value? (digit bits) = some bits := by decide

theorem lt_of_value? {c : Char} {bits : Nat} (h : value? c = some bits) :
    bits < 64 ∧ digit bits = c := by
  obtain ⟨hbits, hc, -⟩ := List.findIdx?_eq_some_iff_getElem.1 h
  have hlength : alphabet.length = 64 := by decide
  refine ⟨hlength ▸ hbits, ?_⟩
  rw [digit, List.getElem?_eq_getElem hbits, Option.getD_some]
  exact of_decide_eq_true hc

theorem value?_pad : value? '=' = none := by decide

theorem digit_ne_pad {bits : Nat} (h : bits < 64) : digit bits ≠ '=' := by
  intro heq
  have := value?_digit bits h
  rw [heq, value?_pad] at this
  simp at this

theorem decode?_group {c₃ : Char} (h : c₃ ≠ '=') (c₀ c₁ c₂ : Char) (rest : List Char) :
    decode? (c₀ :: c₁ :: c₂ :: c₃ :: rest) = do
      let v₀ ← value? c₀
      let v₁ ← value? c₁
      let v₂ ← value? c₂
      let v₃ ← value? c₃
      let bytes ← decode? rest
      return UInt8.ofNat (v₀ * 4 + v₁ / 16) :: UInt8.ofNat (v₁ % 16 * 16 + v₂ / 4) ::
        UInt8.ofNat (v₂ % 4 * 64 + v₃) :: bytes := by
  rw [decode?]
  · intro _ hpad
    exact absurd hpad h
  · intro hpad
    exact absurd hpad h

private theorem ofNat_eq {n : Nat} {byte : UInt8} (h : n = byte.toNat) : UInt8.ofNat n = byte := by
  rw [h, UInt8.ofNat_toNat]

theorem decode?_encode (bytes : Bytes) : decode? (encode bytes) = some bytes := by
  fun_induction encode bytes with
  | case1 => rfl
  | case2 a =>
    have ha := a.toNat_lt
    rw [decode?, value?_digit _ (by omega), value?_digit _ (by omega)]
    have hrest : a.toNat % 4 * 16 % 16 = 0 := by omega
    simp only [Option.bind_eq_bind, Option.bind_some, guard, hrest, if_true]
    rw [ofNat_eq (by omega : a.toNat / 4 * 4 + a.toNat % 4 * 16 / 16 = a.toNat)]
    rfl
  | case3 a b =>
    have ha := a.toNat_lt
    have hb := b.toNat_lt
    rw [decode?, value?_digit _ (by omega), value?_digit _ (by omega), value?_digit _ (by omega)]
    · have hrest : b.toNat % 16 * 4 % 4 = 0 := by omega
      simp only [Option.bind_eq_bind, Option.bind_some, guard, hrest, if_true]
      rw [@ofNat_eq _ a (by omega), @ofNat_eq _ b (by omega)]
      rfl
    · exact digit_ne_pad (by omega)
  | case4 a b c rest ih =>
    have ha := a.toNat_lt
    have hb := b.toNat_lt
    have hc := c.toNat_lt
    rw [decode?_group (digit_ne_pad (by omega)), ih, value?_digit _ (by omega),
      value?_digit _ (by omega), value?_digit _ (by omega), value?_digit _ (by omega)]
    simp only [Option.bind_eq_bind, Option.bind_some]
    rw [@ofNat_eq _ a (by omega), @ofNat_eq _ b (by omega), @ofNat_eq _ c (by omega)]
    rfl

private theorem toNat_ofNat {n : Nat} (h : n < 256) : (UInt8.ofNat n).toNat = n := by
  rw [UInt8.toNat_ofNat', Nat.mod_eq_of_lt h]

theorem eq_encode_of_decode? {text : List Char} {bytes : Bytes} (h : decode? text = some bytes) :
    text = encode bytes := by
  fun_induction decode? text generalizing bytes with
  | case1 =>
    obtain rfl := Option.some.inj h
    rfl
  | case2 c₀ c₁ =>
    simp only [Option.bind_eq_bind, Option.bind_eq_some_iff, guard] at h
    obtain ⟨v₀, h₀, v₁, h₁, _, hguard, hbytes⟩ := h
    obtain ⟨hv₀, rfl⟩ := lt_of_value? h₀
    obtain ⟨hv₁, rfl⟩ := lt_of_value? h₁
    obtain rfl := Option.some.inj hbytes
    split at hguard
    · rw [encode, toNat_ofNat (by omega), (by omega : (v₀ * 4 + v₁ / 16) / 4 = v₀),
        (by omega : (v₀ * 4 + v₁ / 16) % 4 * 16 = v₁)]
    · simp at hguard
  | case3 c₀ c₁ c₂ =>
    simp only [Option.bind_eq_bind, Option.bind_eq_some_iff, guard] at h
    obtain ⟨v₀, h₀, v₁, h₁, v₂, h₂, _, hguard, hbytes⟩ := h
    obtain ⟨hv₀, rfl⟩ := lt_of_value? h₀
    obtain ⟨hv₁, rfl⟩ := lt_of_value? h₁
    obtain ⟨hv₂, rfl⟩ := lt_of_value? h₂
    obtain rfl := Option.some.inj hbytes
    split at hguard
    · rw [encode, toNat_ofNat (by omega), toNat_ofNat (by omega),
        (by omega : (v₀ * 4 + v₁ / 16) / 4 = v₀),
        (by omega : (v₀ * 4 + v₁ / 16) % 4 * 16 + (v₁ % 16 * 16 + v₂ / 4) / 16 = v₁),
        (by omega : (v₁ % 16 * 16 + v₂ / 4) % 16 * 4 = v₂)]
    · simp at hguard
  | case4 c₀ c₁ c₂ c₃ rest _ _ ih =>
    simp only [Option.bind_eq_bind, Option.bind_eq_some_iff] at h
    obtain ⟨v₀, h₀, v₁, h₁, v₂, h₂, v₃, h₃, bytes', hrest, hbytes⟩ := h
    obtain ⟨hv₀, rfl⟩ := lt_of_value? h₀
    obtain ⟨hv₁, rfl⟩ := lt_of_value? h₁
    obtain ⟨hv₂, rfl⟩ := lt_of_value? h₂
    obtain ⟨hv₃, rfl⟩ := lt_of_value? h₃
    obtain rfl := Option.some.inj hbytes
    rw [encode, toNat_ofNat (by omega), toNat_ofNat (by omega), toNat_ofNat (by omega),
      (by omega : (v₀ * 4 + v₁ / 16) / 4 = v₀),
      (by omega : (v₀ * 4 + v₁ / 16) % 4 * 16 + (v₁ % 16 * 16 + v₂ / 4) / 16 = v₁),
      (by omega : (v₁ % 16 * 16 + v₂ / 4) % 16 * 4 + (v₂ % 4 * 64 + v₃) / 64 = v₂),
      (by omega : (v₂ % 4 * 64 + v₃) % 64 = v₃), ih hrest]
  | case5 => simp at h

theorem length_encode (bytes : Bytes) : (encode bytes).length = 4 * ((bytes.length + 2) / 3) := by
  fun_induction encode bytes with
  | case1 => rfl
  | case2 a => simp
  | case3 a b => simp
  | case4 a b c rest ih =>
    simp only [List.length_cons, ih]
    omega

theorem digit_mem {bits : Nat} (h : bits < 64) : digit bits ∈ alphabet := by
  have hbits : bits < alphabet.length := h
  rw [digit, List.getElem?_eq_getElem hbits, Option.getD_some]
  exact List.getElem_mem hbits

/-- A text that spells a payload: full groups of characters of the alphabet, the last one padded, and nothing
but the payload comes out when it is decoded strictly. -/
structure Spells (text : List Char) (bytes : Bytes) : Prop where
  groups : text.length = 4 * ((bytes.length + 2) / 3)
  padded : ∃ digits, text = digits ++ List.replicate ((3 - bytes.length % 3) % 3) '=' ∧
    ∀ c ∈ digits, c ∈ alphabet
  decoded : decode? text = some bytes

theorem padded_encode (bytes : Bytes) :
    ∃ digits, encode bytes = digits ++ List.replicate ((3 - bytes.length % 3) % 3) '=' ∧
      ∀ c ∈ digits, c ∈ alphabet := by
  fun_induction encode bytes with
  | case1 => exact ⟨[], rfl, by simp⟩
  | case2 a =>
    have ha := a.toNat_lt
    refine ⟨[digit (a.toNat / 4), digit (a.toNat % 4 * 16)], rfl, ?_⟩
    simp only [List.forall_mem_cons]
    exact ⟨digit_mem (by omega), digit_mem (by omega), by simp⟩
  | case3 a b =>
    have ha := a.toNat_lt
    have hb := b.toNat_lt
    refine ⟨[digit (a.toNat / 4), digit (a.toNat % 4 * 16 + b.toNat / 16),
      digit (b.toNat % 16 * 4)], rfl, ?_⟩
    simp only [List.forall_mem_cons]
    exact ⟨digit_mem (by omega), digit_mem (by omega), digit_mem (by omega), by simp⟩
  | case4 a b c rest ih =>
    have ha := a.toNat_lt
    have hb := b.toNat_lt
    have hc := c.toNat_lt
    obtain ⟨digits, hdigits, hmem⟩ := ih
    have hlength : (a :: b :: c :: rest).length % 3 = rest.length % 3 := by
      simp only [List.length_cons]
      omega
    rw [hdigits, hlength]
    refine ⟨digit (a.toNat / 4) :: digit (a.toNat % 4 * 16 + b.toNat / 16) ::
      digit (b.toNat % 16 * 4 + c.toNat / 64) :: digit (c.toNat % 64) :: digits, rfl, ?_⟩
    simp only [List.forall_mem_cons]
    exact ⟨digit_mem (by omega), digit_mem (by omega), digit_mem (by omega), digit_mem (by omega), hmem⟩

theorem spells_encode (bytes : Bytes) : Spells (encode bytes) bytes :=
  ⟨length_encode bytes, padded_encode bytes, decode?_encode bytes⟩

end BundleForge.Base64
