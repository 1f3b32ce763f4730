import BundleForge.Bytes
/-!
# Base64

Three bytes are written as four characters of the standard alphabet, six bits each; a last group of
one or two bytes is padded with equals signs. `decode?` reads exactly what `encode` writes: groups of
four, padding only at the end, no bits set beyond the last byte.
-/

namespace BundleForge.Base64

def alphabet : List Char :=
  "ABCDEFGHIJKLMNOPQRSTUVWXYZabcdefghijklmnopqrstuvwxyz0123456789+/".toList

def digit (bits : Nat) : Char := (alphabet[bits]?).getD 'A'

def value? (c : Char) : Option Nat := alphabet.findIdx? (· = c)

def encode : Bytes → List Char
  | [] => []
  | [a] => [digit (a.toNat / 4), digit (a.toNat % 4 * 16), '=', '=']
  | [a, b] =>
    [digit (a.toNat / 4), digit (a.toNat % 4 * 16 + b.toNat / 16), digit (b.toNat % 16 * 4), '=']
  | a :: b :: c :: rest =>
    digit (a.toNat / 4) :: digit (a.toNat % 4 * 16 + b.toNat / 16) ::
      digit (b.toNat % 16 * 4 + c.toNat / 64) :: digit (c.toNat % 64) :: encode rest

def decode? : List Char → Option Bytes
  | [] => some []
  | [c₀, c₁, '=', '='] => do
    let v₀ ← value? c₀
    let v₁ ← value? c₁
    guard (v₁ % 16 = 0)
    return [UInt8.ofNat (v₀ * 4 + v₁ / 16)]
  | [c₀, c₁, c₂, '='] => do
    let v₀ ← value? c₀
    let v₁ ← value? c₁
    let v₂ ← value? c₂
    guard (v₂ % 4 = 0)
    return [UInt8.ofNat (v₀ * 4 + v₁ / 16), UInt8.ofNat (v₁ % 16 * 16 + v₂ / 4)]
  | c₀ :: c₁ :: c₂ :: c₃ :: rest => do
    let v₀ ← value? c₀
    let v₁ ← value? c₁
    let v₂ ← value? c₂
    let v₃ ← value? c₃
    let bytes ← decode? rest
    return UInt8.ofNat (v₀ * 4 + v₁ / 16) :: UInt8.ofNat (v₁ % 16 * 16 + v₂ / 4) ::
      UInt8.ofNat (v₂ % 4 * 64 + v₃) :: bytes
  | _ => none

end BundleForge.Base64
