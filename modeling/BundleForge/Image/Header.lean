import BundleForge.Bytes
/-!
# Image headers

The format of an image and its intrinsic geometry are read off its first bytes; pixel data is never
decoded. PNG is a list of chunks, GIF a list of blocks, JPEG a list of marker segments, and each of
the three readers goes from one item to the next by dropping the item from the front of the payload,
so it ends however the lengths in a hostile payload are chosen.
-/

namespace BundleForge.Image

inductive Format where
  | png
  | gif
  | bmp
  | jpeg
deriving DecidableEq, Repr

def Format.mimeType : Format → String
  | .png => "image/png"
  | .gif => "image/gif"
  | .bmp => "image/bmp"
  | .jpeg => "image/jpeg"

structure Header where
  format : Format
  width : UInt32
  height : UInt32
  animated : Bool
  lossy : Bool
deriving DecidableEq, Repr

def bigEndianAt? (bytes : Bytes) (offset count : Nat) : Option UInt32 :=
  let field := (bytes.drop offset).take count
  if field.length = count then some (UInt32.ofNat (Bytes.bigEndian field)) else none

def littleEndianAt? (bytes : Bytes) (offset count : Nat) : Option UInt32 :=
  let field := (bytes.drop offset).take count
  if field.length = count then some (UInt32.ofNat (Bytes.littleEndian field)) else none

/-! ## PNG -/

def pngSignature : Bytes := [0x89, 0x50, 0x4e, 0x47, 0x0d, 0x0a, 0x1a, 0x0a]

/-- Whether an animation control chunk comes before the first image data and before the end. A chunk
is its length, its kind, its data and a check sum, which takes twelve bytes besides the data. -/
def animationControl (chunks : Bytes) : Bool :=
  match h : chunks with
  | l₃ :: l₂ :: l₁ :: l₀ :: k₃ :: k₂ :: k₁ :: k₀ :: _ =>
    let kind := [k₃, k₂, k₁, k₀]
    if kind = Bytes.ascii "acTL" then true
    else if kind = Bytes.ascii "IDAT" ∨ kind = Bytes.ascii "IEND" then false
    else animationControl (chunks.drop (12 + Bytes.bigEndian [l₃, l₂, l₁, l₀]))
  | _ => false
termination_by chunks.length
decreasing_by
  subst h
  simp only [List.length_drop, List.length_cons]
  omega

def ofPng? (bytes : Bytes) : Option Header := do
  guard ((bytes.drop 12).take 4 = Bytes.ascii "IHDR")
  let width ← bigEndianAt? bytes 16 4
  let height ← bigEndianAt? bytes 20 4
  let animated := animationControl (bytes.drop pngSignature.length)
  return ⟨.png, width, height, animated, false⟩

/-! ## GIF -/

/-- What follows a list of sub-blocks, each led by its size, the last of size zero. -/
def afterSubBlocks? (bytes : Bytes) : Option Bytes :=
  match bytes with
  | [] => none
  | size :: rest => if size = 0 then some rest else afterSubBlocks? (rest.drop size.toNat)
termination_by bytes.length
decreasing_by
  simp only [List.length_drop, List.length_cons]
  omega

theorem length_afterSubBlocks? {bytes rest : Bytes} (h : afterSubBlocks? bytes = some rest) :
    rest.length < bytes.length := by
  fun_induction afterSubBlocks? bytes with
  | case1 => simp at h
  | case2 size =>
    obtain rfl := Option.some.inj h
    simp
  | case3 _ _ _ ih =>
    have := ih h
    simp only [List.length_drop, List.length_cons] at this ⊢
    omega

def colourTableSize (packed : UInt8) : Nat :=
  if packed &&& 0x80 = 0 then 0 else 3 * Nat.pow 2 ((packed &&& 0x07).toNat + 1)

/-- What follows the rest of an image block: its descriptor of nine bytes, the colour table announced
by the last of them, the code size and the data. -/
def afterImage? (rest : Bytes) : Option Bytes := do
  let packed ← rest[8]?
  afterSubBlocks? (rest.drop (9 + colourTableSize packed + 1))

set_option linter.unusedVariables false in
/-- The number of image blocks, counted up to the second; none if the data ends before a block that
is neither image nor extension. -/
def countFrames? (frames : Nat) (blocks : Bytes) : Option Nat :=
  match blocks with
  | [] => none
  | introducer :: rest =>
    if introducer = 0x2c then
      if 0 < frames then some (frames + 1)
      else
        match hrest : afterImage? rest with
        | some next => countFrames? (frames + 1) next
        | none => none
    else if introducer = 0x21 then
      match hrest : afterSubBlocks? (rest.drop 1) with
      | some next => countFrames? frames next
      | none => none
    else some frames
termination_by blocks.length
decreasing_by
  · obtain ⟨packed, -, hblocks⟩ := Option.bind_eq_some_iff.1 hrest
    have := length_afterSubBlocks? hblocks
    simp only [List.length_drop, List.length_cons] at this ⊢
    omega
  · have := length_afterSubBlocks? hrest
    simp only [List.length_drop, List.length_cons] at this ⊢
    omega

/-- A payload that ends early is a still image of the size of its screen. -/
def ofGif? (bytes : Bytes) : Option Header := do
  let width ← littleEndianAt? bytes 6 2
  let height ← littleEndianAt? bytes 8 2
  let frames := do
    let packed ← bytes[10]?
    countFrames? 0 (bytes.drop (13 + colourTableSize packed))
  return ⟨.gif, width, height, decide (1 < frames.getD 1), false⟩

/-! ## BMP -/

def magnitude (word : UInt32) : UInt32 :=
  if word < 0x80000000 then word else 0 - word

/-- A negative height marks an image stored from the top down. -/
def ofBmp? (bytes : Bytes) : Option Header := do
  let width ← littleEndianAt? bytes 18 4
  let height ← littleEndianAt? bytes 22 4
  return ⟨.bmp, magnitude width, magnitude height, false, false⟩

/-! ## JPEG -/

/-- Markers that stand alone, without a segment. -/
def isStandalone (marker : UInt8) : Bool :=
  marker == 0x01 || (0xd0 ≤ marker && marker ≤ 0xd8)

def isStartOfFrame (marker : UInt8) : Bool :=
  0xc0 ≤ marker && marker ≤ 0xcf && marker != 0xc4 && marker != 0xc8 && marker != 0xcc

/-- Width and height in the first frame header of a list of markers. A segment is led by its length,
which counts its own two bytes. -/
def frameSize? (markers : Bytes) : Option (UInt32 × UInt32) :=
  match markers with
  | lead :: marker :: rest =>
    if lead ≠ 0xff then none
    else if marker = 0xff then frameSize? (marker :: rest)
    else if isStandalone marker then frameSize? rest
    else if marker = 0xd9 then none
    else if isStartOfFrame marker then do
      let height ← bigEndianAt? rest 3 2
      let width ← bigEndianAt? rest 5 2
      return (width, height)
    else
      match bigEndianAt? rest 0 2 with
      | some length => frameSize? (rest.drop length.toNat)
      | none => none
  | _ => none
termination_by markers.length
decreasing_by
  all_goals simp only [List.length_drop, List.length_cons]
  all_goals omega

def ofJpeg? (bytes : Bytes) : Option Header := do
  let (width, height) ← frameSize? (bytes.drop 2)
  return ⟨.jpeg, width, height, false, true⟩

/-! ## Any format -/

def sniff? (bytes : Bytes) : Option Header :=
  if pngSignature.isPrefixOf bytes then ofPng? bytes
  else if (Bytes.ascii "GIF87a").isPrefixOf bytes || (Bytes.ascii "GIF89a").isPrefixOf bytes then
    ofGif? bytes
  else if (Bytes.ascii "BM").isPrefixOf bytes then ofBmp? bytes
  else if [0xff, 0xd8].isPrefixOf bytes then ofJpeg? bytes
  else none

end BundleForge.Image
