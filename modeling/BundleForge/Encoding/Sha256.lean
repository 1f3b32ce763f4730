import BundleForge.Bytes
/-!
# SHA-256

The digest of a payload: it is padded to blocks of sixteen words, and each block stirs eight words of
state in sixty-four rounds. The message schedule is a window of sixteen words that moves on by one
word in each round.
-/

namespace BundleForge.Sha256

structure State where
  a : UInt32
  b : UInt32
  c : UInt32
  d : UInt32
  e : UInt32
  f : UInt32
  g : UInt32
  h : UInt32

def initial : State :=
  ⟨0x6a09e667, 0xbb67ae85, 0x3c6ef372, 0xa54ff53a, 0x510e527f, 0x9b05688c, 0x1f83d9ab, 0x5be0cd19⟩

def roundConstants : List UInt32 :=
  [0x428a2f98, 0x71374491, 0xb5c0fbcf, 0xe9b5dba5, 0x3956c25b, 0x59f111f1, 0x923f82a4, 0xab1c5ed5,
   0xd807aa98, 0x12835b01, 0x243185be, 0x550c7dc3, 0x72be5d74, 0x80deb1fe, 0x9bdc06a7, 0xc19bf174,
   0xe49b69c1, 0xefbe4786, 0x0fc19dc6, 0x240ca1cc, 0x2de92c6f, 0x4a7484aa, 0x5cb0a9dc, 0x76f988da,
   0x983e5152, 0xa831c66d, 0xb00327c8, 0xbf597fc7, 0xc6e00bf3, 0xd5a79147, 0x06ca6351, 0x14292967,
   0x27b70a85, 0x2e1b2138, 0x4d2c6dfc, 0x53380d13, 0x650a7354, 0x766a0abb, 0x81c2c92e, 0x92722c85,
   0xa2bfe8a1, 0xa81a664b, 0xc24b8b70, 0xc76c51a3, 0xd192e819, 0xd6990624, 0xf40e3585, 0x106aa070,
   0x19a4c116, 0x1e376c08, 0x2748774c, 0x34b0bcb5, 0x391c0cb3, 0x4ed8aa4a, 0x5b9cca4f, 0x682e6ff3,
   0x748f82ee, 0x78a5636f, 0x84c87814, 0x8cc70208, 0x90befffa, 0xa4506ceb, 0xbef9a3f7, 0xc67178f2]

def rotateRight (word amount : UInt32) : UInt32 :=
  (word >>> amount) ||| (word <<< (32 - amount))

/-- The window after one round: its first word has been used, the next one of the schedule joins at
the end. -/
def slide (window : List UInt32) : List UInt32 :=
  let word (index : Nat) : UInt32 := (window[index]?).getD 0
  let early := word 1
  let late := word 14
  let s₀ := rotateRight early 7 ^^^ rotateRight early 18 ^^^ (early >>> 3)
  let s₁ := rotateRight late 17 ^^^ rotateRight late 19 ^^^ (late >>> 10)
  window.tail ++ [word 0 + s₀ + word 9 + s₁]

def round (s : State) (constant word : UInt32) : State :=
  let s₁ := rotateRight s.e 6 ^^^ rotateRight s.e 11 ^^^ rotateRight s.e 25
  let choice := (s.e &&& s.f) ^^^ ((~~~s.e) &&& s.g)
  let t₁ := s.h + s₁ + choice + constant + word
  let s₀ := rotateRight s.a 2 ^^^ rotateRight s.a 13 ^^^ rotateRight s.a 22
  let majority := (s.a &&& s.b) ^^^ (s.a &&& s.c) ^^^ (s.b &&& s.c)
  ⟨t₁ + s₀ + majority, s.a, s.b, s.c, s.d + t₁, s.e, s.f, s.g⟩

def rounds (s : State) (block : List UInt32) : State :=
  (roundConstants.foldl
    (fun (s, window) constant => (round s constant (window.headD 0), slide window))
    (s, block)).1

def compress (s : State) (block : List UInt32) : State :=
  let t := rounds s block
  ⟨s.a + t.a, s.b + t.b, s.c + t.c, s.d + t.d, s.e + t.e, s.f + t.f, s.g + t.g, s.h + t.h⟩

/-- The payload, a one bit, zeros up to a multiple of 64 bytes, and its length in bits. -/
def padded (bytes : Bytes) : Bytes :=
  let zeros := (119 - bytes.length % 64) % 64
  let bits := 8 * bytes.length
  let lengthByte (place : Nat) : UInt8 := UInt8.ofNat (bits >>> (8 * place))
  bytes ++ 0x80 :: List.replicate zeros 0 ++ (List.range 8).reverse.map lengthByte

def gather (before : List UInt32) : Bytes → List UInt32
  | b₃ :: b₂ :: b₁ :: b₀ :: rest =>
    gather (UInt32.ofNat (Bytes.bigEndian [b₃, b₂, b₁, b₀]) :: before) rest
  | _ => before.reverse

def absorb (s : State) (words : List UInt32) : State :=
  match _h : words.drop 15 with
  | [] => s
  | _ :: rest => absorb (compress s (words.take 16)) rest
termination_by words.length
decreasing_by
  have := congrArg List.length _h
  rw [List.length_drop, List.length_cons] at this
  omega

def wordBytes (word : UInt32) : Bytes :=
  [(word >>> 24).toUInt8, (word >>> 16).toUInt8, (word >>> 8).toUInt8, word.toUInt8]

def digest (bytes : Bytes) : Bytes :=
  let s := absorb initial (gather [] (padded bytes))
  [s.a, s.b, s.c, s.d, s.e, s.f, s.g, s.h].flatMap wordBytes

end BundleForge.Sha256
