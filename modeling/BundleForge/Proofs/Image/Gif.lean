import BundleForge.Image.Header
import Mathlib.Data.List.Basic
/-!
# Streams of blocks

A stream is a screen with a colour table, then blocks, then a trailer. Blocks end in a chain of sub-blocks,
each led by its size, and a packed byte tells how large a colour table is. `Stream.bytes` writes a stream down;
the reader goes from block to block and so never takes data for a block, whatever the data is. What it counts
in a part of a stream, it counts in the whole: the end of the data stops it, but never leads it astray.
-/

namespace BundleForge.Image

/-! ### The reader on more data -/

section

variable {part rest more : Bytes}

theorem afterSubBlocks?_append (h : afterSubBlocks? part = some rest) (more : Bytes) :
    afterSubBlocks? (part ++ more) = some (rest ++ more) := by
  fun_induction afterSubBlocks? part with
  | case1 => simp at h
  | case2 others =>
    obtain rfl := Option.some.inj h
    rw [List.cons_append, afterSubBlocks?, if_pos rfl]
  | case3 size others hsize ih =>
    rw [List.cons_append, afterSubBlocks?, if_neg hsize]
    -- A sub-block that takes all the data would leave none for the end of the chain.
    have hle : size.toNat ≤ others.length := by
      by_contra hlt
      rw [List.drop_of_length_le (by omega), afterSubBlocks?] at h
      exact absurd h.symm (Option.some_ne_none rest)
    rw [List.drop_append_of_le_length hle]
    exact ih h

theorem afterImage?_append (h : afterImage? part = some rest) (more : Bytes) :
    afterImage? (part ++ more) = some (rest ++ more) := by
  obtain ⟨packed, hpacked, hblocks⟩ := Option.bind_eq_some_iff.1 h
  have hlength : 9 + colourTableSize packed + 1 ≤ part.length := by
    by_contra hlt
    rw [List.drop_of_length_le (by omega), afterSubBlocks?] at hblocks
    exact absurd hblocks.symm (Option.some_ne_none rest)
  have hmore : (part ++ more)[8]? = some packed := by
    rw [List.getElem?_append_left (by omega), hpacked]
  rw [afterImage?, hmore, Option.bind_eq_bind, Option.bind_some, List.drop_append_of_le_length hlength,
    afterSubBlocks?_append hblocks]

end

/-! ### Blocks one by one -/

section

variable {rest next : Bytes} {frames : Nat}

theorem countFrames?_first (h : afterImage? rest = some next) :
    countFrames? 0 (0x2c :: rest) = countFrames? 1 next := by
  rw [countFrames?, if_pos rfl, if_neg (Nat.lt_irrefl 0)]
  split <;> simp_all

theorem countFrames?_second (frames : Nat) (rest : Bytes) :
    countFrames? (frames + 1) (0x2c :: rest) = some (frames + 2) := by
  rw [countFrames?, if_pos rfl, if_pos (Nat.succ_pos frames)]

theorem countFrames?_extension (h : afterSubBlocks? (rest.drop 1) = some next) (frames : Nat) :
    countFrames? frames (0x21 :: rest) = countFrames? frames next := by
  rw [countFrames?, if_neg (by decide), if_pos rfl]
  split <;> simp_all

theorem countFrames?_other {introducer : UInt8} (himage : introducer ≠ 0x2c)
    (hextension : introducer ≠ 0x21) (frames : Nat) (rest : Bytes) :
    countFrames? frames (introducer :: rest) = some frames := by
  rw [countFrames?, if_neg himage, if_neg hextension]

/-- What is counted in a part of the blocks is counted in all of them. -/
theorem countFrames?_append {part : Bytes} {count : Nat} (h : countFrames? frames part = some count)
    (more : Bytes) : countFrames? frames (part ++ more) = some count := by
  fun_induction countFrames? frames part with
  | case1 => simp at h
  | case2 frames others hframes =>
    obtain ⟨before, rfl⟩ := Nat.exists_eq_succ_of_ne_zero (Nat.ne_of_gt hframes)
    rw [List.cons_append, countFrames?_second, ← h]
  | case3 frames others hframes next hnext ih =>
    obtain rfl := Nat.eq_zero_of_not_pos hframes
    rw [List.cons_append, countFrames?_first (afterImage?_append hnext more)]
    exact ih h
  | case4 => simp at h
  | case5 frames others next hnext _ ih =>
    have hlength : 1 ≤ others.length := by
      have := length_afterSubBlocks? hnext
      rw [List.length_drop] at this
      omega
    have hmore : afterSubBlocks? ((others ++ more).drop 1) = some (next ++ more) := by
      rw [List.drop_append_of_le_length hlength, afterSubBlocks?_append hnext]
    rw [List.cons_append, countFrames?_extension hmore]
    exact ih h
  | case6 => simp at h
  | case7 frames introducer others himage hextension =>
    rw [List.cons_append, countFrames?_other himage hextension, h]

end

namespace Gif

/-! ### The grammar -/

def word (n : UInt16) : Bytes := [UInt8.ofNat (n.toNat % 256), UInt8.ofNat (n.toNat / 256)]

/-- Some of the data of a block: what the size in one byte can count, but not nothing. -/
structure SubBlock where
  data : Bytes
  nonempty : 0 < data.length := by decide
  short : data.length < 256 := by decide

def SubBlock.bytes (part : SubBlock) : Bytes := UInt8.ofNat part.data.length :: part.data

/-- The data of a block, with an empty sub-block at its end. -/
def chain (parts : List SubBlock) : Bytes := parts.flatMap SubBlock.bytes ++ [0]

structure Colour where
  red : UInt8
  green : UInt8
  blue : UInt8

/-- A colour table that may be missing. Its size is the exponent of the number of colours, and stands in the
packed byte even if there is no table. -/
structure Palette where
  size : Fin 8
  /-- Four bits of the packed byte that have no part in the table. -/
  flags : Fin 16 := 0
  colours : Option (List Colour) := none
  length_colours : ∀ table ∈ colours, table.length = Nat.pow 2 (size.val + 1) := by decide

namespace Palette

/-- The packed byte: whether there is a table, the flags, and the size of the table. -/
def packed (palette : Palette) : UInt8 :=
  UInt8.ofNat ((if palette.colours.isSome then 128 else 0) + 8 * palette.flags.val + palette.size.val)

def bytes (palette : Palette) : Bytes :=
  (palette.colours.getD []).flatMap fun colour => [colour.red, colour.green, colour.blue]

end Palette

inductive Block where
  | extension (label : UInt8) (parts : List SubBlock)
  | image (left top width height : UInt16) (palette : Palette) (codeSize : UInt8) (parts : List SubBlock)

namespace Block

def bytes : Block → Bytes
  | extension label parts => 0x21 :: label :: chain parts
  | image left top width height palette codeSize parts =>
    0x2c :: (word left ++ word top ++ word width ++ word height ++
      palette.packed :: (palette.bytes ++ codeSize :: chain parts))

def isImage : Block → Bool
  | extension .. => false
  | image .. => true

end Block

inductive Revision where
  | gif87a
  | gif89a

def Revision.bytes : Revision → Bytes
  | gif87a => Bytes.ascii "GIF87a"
  | gif89a => Bytes.ascii "GIF89a"

structure Stream where
  revision : Revision
  width : UInt16
  height : UInt16
  palette : Palette
  background : UInt8
  aspect : UInt8
  blocks : List Block
  trailing : Bytes := []

namespace Stream

/-- The ten bytes that tell the format and the size of the screen. -/
def screen (stream : Stream) : Bytes :=
  stream.revision.bytes ++ word stream.width ++ word stream.height

def body (stream : Stream) : Bytes :=
  stream.blocks.flatMap Block.bytes ++ 0x3b :: stream.trailing

def bytes (stream : Stream) : Bytes :=
  stream.screen ++ stream.palette.packed :: stream.background :: stream.aspect ::
    (stream.palette.bytes ++ stream.body)

def images (stream : Stream) : Nat := stream.blocks.countP Block.isImage

end Stream

/-! ### The reader on blocks -/

theorem afterSubBlocks?_chain (parts : List SubBlock) (rest : Bytes) :
    afterSubBlocks? (chain parts ++ rest) = some rest := by
  induction parts with
  | nil =>
    show afterSubBlocks? (0 :: rest) = some rest
    rw [afterSubBlocks?, if_pos rfl]
  | cons part others ih =>
    have hshort := part.short
    have hsize : (UInt8.ofNat part.data.length).toNat = part.data.length := by
      rw [UInt8.toNat_ofNat']
      omega
    have hne : UInt8.ofNat part.data.length ≠ 0 := by
      intro hzero
      rw [hzero] at hsize
      exact absurd hsize (Nat.ne_of_lt part.nonempty)
    have hbytes : chain (part :: others) ++ rest =
        UInt8.ofNat part.data.length :: (part.data ++ (chain others ++ rest)) := by
      simp [chain, SubBlock.bytes]
    rw [hbytes, afterSubBlocks?, if_neg hne, hsize, List.drop_left, ih]

theorem length_bytes (palette : Palette) :
    palette.bytes.length = 3 * (palette.colours.getD []).length := by
  rw [Palette.bytes, List.length_flatMap]
  simp [Nat.mul_comm]

/-- The size of a colour table is read off the packed byte, whatever its flags are. -/
theorem colourTableSize_packed (palette : Palette) :
    colourTableSize palette.packed = palette.bytes.length := by
  have hpacked : ∀ (announced : Bool) (flags : Fin 16) (size : Fin 8),
      colourTableSize (UInt8.ofNat ((if announced then 128 else 0) + 8 * flags.val + size.val)) =
        if announced then 3 * Nat.pow 2 (size.val + 1) else 0 := by decide +kernel
  rw [Palette.packed, hpacked, length_bytes]
  cases hcolours : palette.colours with
  | none => rfl
  | some table =>
    rw [Option.getD_some, palette.length_colours table hcolours]
    rfl

theorem afterImage?_image (left top width height : UInt16) (palette : Palette) (codeSize : UInt8)
    (parts : List SubBlock) (rest : Bytes) :
    afterImage? (word left ++ word top ++ word width ++ word height ++
      palette.packed :: (palette.bytes ++ codeSize :: chain parts) ++ rest) = some rest := by
  have hpacked : (word left ++ word top ++ word width ++ word height ++
      palette.packed :: (palette.bytes ++ codeSize :: chain parts) ++ rest)[8]? = some palette.packed := rfl
  have hdrop : (word left ++ word top ++ word width ++ word height ++
      palette.packed :: (palette.bytes ++ codeSize :: chain parts) ++ rest).drop
        (9 + colourTableSize palette.packed + 1) = chain parts ++ rest := by
    have hsplit : word left ++ word top ++ word width ++ word height ++
        palette.packed :: (palette.bytes ++ codeSize :: chain parts) ++ rest =
          (word left ++ word top ++ word width ++ word height ++
            palette.packed :: (palette.bytes ++ [codeSize])) ++ (chain parts ++ rest) := by simp
    rw [hsplit, colourTableSize_packed]
    refine List.drop_left' ?_
    simp [word]
    omega
  rw [afterImage?, hpacked, Option.bind_eq_bind, Option.bind_some, hdrop, afterSubBlocks?_chain]

theorem countFrames?_blocks (blocks : List Block) (trailing : Bytes) {frames : Nat} (hframes : frames ≤ 1) :
    countFrames? frames (blocks.flatMap Block.bytes ++ 0x3b :: trailing) =
      some (min (frames + blocks.countP Block.isImage) 2) := by
  induction blocks generalizing frames with
  | nil =>
    rw [List.flatMap_nil, List.nil_append, countFrames?_other (by decide) (by decide), List.countP_nil]
    congr 1
    omega
  | cons block others ih =>
    rw [List.flatMap_cons, List.append_assoc, List.countP_cons]
    cases block with
    | extension label parts =>
      have hnext : afterSubBlocks? ((label :: chain parts ++ (others.flatMap Block.bytes ++
          0x3b :: trailing)).drop 1) = some (others.flatMap Block.bytes ++ 0x3b :: trailing) :=
        afterSubBlocks?_chain parts _
      show countFrames? frames (0x21 :: (label :: chain parts ++ _)) = _
      rw [countFrames?_extension hnext, ih hframes]
      rfl
    | image left top width height palette codeSize parts =>
      have hnext := afterImage?_image left top width height palette codeSize parts
        (others.flatMap Block.bytes ++ 0x3b :: trailing)
      show countFrames? frames (0x2c :: (_ ++ _)) = some (min (frames + (others.countP Block.isImage + 1)) 2)
      rcases Nat.le_one_iff_eq_zero_or_eq_one.1 hframes with rfl | rfl
      · rw [countFrames?_first hnext, ih (Nat.le_refl 1)]
        congr 2
        omega
      · rw [countFrames?_second]
        congr 1
        omega

/-! ### What is read off a stream -/

theorem littleEndian_word (n : UInt16) : Bytes.littleEndian (word n) = n.toNat := by
  have hlt := n.toNat_lt
  have hlow : (UInt8.ofNat (n.toNat % 256)).toNat = n.toNat % 256 := by
    rw [UInt8.toNat_ofNat']
    omega
  have hhigh : (UInt8.ofNat (n.toNat / 256)).toNat = n.toNat / 256 := by
    rw [UInt8.toNat_ofNat']
    omega
  simp only [word, Bytes.littleEndian, List.foldr_cons, List.foldr_nil, hlow, hhigh]
  omega

theorem length_word (n : UInt16) : (word n).length = 2 := rfl

theorem littleEndianAt?_word {before : Bytes} {offset : Nat} (h : before.length = offset) (n : UInt16)
    (after : Bytes) : littleEndianAt? (before ++ (word n ++ after)) offset 2 = some n.toUInt32 := by
  have hfield : ((before ++ (word n ++ after)).drop offset).take 2 = word n := by
    rw [List.drop_left' h, List.take_left' (length_word n)]
  rw [littleEndianAt?, hfield, littleEndian_word, if_pos (length_word n), UInt32.ofNat_uInt16ToNat]

/-- The number of image blocks in some data, as far as they are counted. -/
def frames? (bytes : Bytes) : Option Nat := do
  let packed ← bytes[10]?
  countFrames? 0 (bytes.drop (13 + colourTableSize packed))

theorem frames?_append {part : Bytes} {count : Nat} (h : frames? part = some count) (more : Bytes) :
    frames? (part ++ more) = some count := by
  obtain ⟨packed, hpacked, hcount⟩ := Option.bind_eq_some_iff.1 h
  have hlength : 13 + colourTableSize packed ≤ part.length := by
    by_contra hlt
    rw [List.drop_of_length_le (by omega), countFrames?] at hcount
    exact absurd hcount.symm (Option.some_ne_none count)
  have hmore : (part ++ more)[10]? = some packed := by
    rw [List.getElem?_append_left (by omega), hpacked]
  rw [frames?, hmore, Option.bind_eq_bind, Option.bind_some, List.drop_append_of_le_length hlength,
    countFrames?_append hcount]

variable (stream : Stream)

theorem length_revision (revision : Revision) : revision.bytes.length = 6 := by
  cases revision <;> rfl

theorem length_screen : stream.screen.length = 10 := by
  rw [Stream.screen, List.length_append, List.length_append, length_revision, length_word, length_word]

theorem frames?_bytes : frames? stream.bytes = some (min stream.images 2) := by
  have hpacked : stream.bytes[10]? = some stream.palette.packed := by
    rw [Stream.bytes, List.getElem?_append_right (Nat.le_of_eq (length_screen stream)), length_screen]
    rfl
  have hsplit : stream.bytes = (stream.screen ++ stream.palette.packed :: stream.background ::
      stream.aspect :: stream.palette.bytes) ++ stream.body := by
    simp [Stream.bytes]
  have hdrop : stream.bytes.drop (13 + colourTableSize stream.palette.packed) = stream.body := by
    rw [hsplit, colourTableSize_packed]
    refine List.drop_left' ?_
    rw [List.length_append, length_screen]
    simp only [List.length_cons]
    omega
  rw [frames?, hpacked, Option.bind_eq_bind, Option.bind_some, hdrop, Stream.body,
    countFrames?_blocks _ _ (Nat.zero_le 1), Nat.zero_add, Stream.images]

/-- Whatever follows the screen, its size is read; what follows decides about animation alone. -/
theorem sniff?_screen (tail : Bytes) :
    sniff? (stream.screen ++ tail) = some ⟨.gif, stream.width.toUInt32, stream.height.toUInt32,
      decide (1 < (frames? (stream.screen ++ tail)).getD 1), false⟩ := by
  have hwidth : littleEndianAt? (stream.screen ++ tail) 6 2 = some stream.width.toUInt32 := by
    rw [Stream.screen, List.append_assoc, List.append_assoc]
    exact littleEndianAt?_word (length_revision _) _ _
  have hheight : littleEndianAt? (stream.screen ++ tail) 8 2 = some stream.height.toUInt32 := by
    rw [Stream.screen, List.append_assoc]
    refine littleEndianAt?_word ?_ _ _
    rw [List.length_append, length_revision, length_word]
  have hpng : pngSignature.isPrefixOf (stream.screen ++ tail) = false := by
    rw [Stream.screen]
    cases stream.revision <;> rfl
  have hgif : ((Bytes.ascii "GIF87a").isPrefixOf (stream.screen ++ tail) ||
      (Bytes.ascii "GIF89a").isPrefixOf (stream.screen ++ tail)) = true := by
    rw [Stream.screen]
    cases stream.revision <;> rfl
  rw [sniff?, hpng, if_neg Bool.false_ne_true, if_pos hgif, ofGif?, hwidth, hheight]
  rfl

/-- A stream is read as its screen, animated if it has two images or more. Of a part of it that has the size
of the screen nothing else is read, and it is not taken for animated if the stream is not. -/
theorem recognizes_stream (stream : Stream) :
    sniff? stream.bytes = some ⟨.gif, stream.width.toUInt32, stream.height.toUInt32,
        decide (2 ≤ stream.images), false⟩ ∧
      ∀ part, part <+: stream.bytes → 10 ≤ part.length →
        ∃ animated, sniff? part = some ⟨.gif, stream.width.toUInt32, stream.height.toUInt32, animated, false⟩ ∧
          (animated = true → 2 ≤ stream.images) := by
  constructor
  · have hanimated : decide (1 < (frames? stream.bytes).getD 1) = decide (2 ≤ stream.images) := by
      rw [frames?_bytes, Option.getD_some, decide_eq_decide]
      omega
    rw [← hanimated]
    exact sniff?_screen stream _
  · rintro part hpart hlength
    obtain ⟨more, hmore⟩ := hpart
    have hscreen : stream.screen <+: part := by
      refine List.prefix_of_prefix_length_le (List.prefix_append _ _) ⟨more, hmore⟩ ?_
      rwa [length_screen]
    obtain ⟨tail, htail⟩ := hscreen
    have hread := sniff?_screen stream tail
    rw [htail] at hread
    refine ⟨_, hread, fun hanimated => ?_⟩
    -- What was counted in the part is counted in the stream.
    rw [decide_eq_true_iff] at hanimated
    cases hframes : frames? part with
    | none =>
      rw [hframes, Option.getD_none] at hanimated
      exact absurd hanimated (Nat.lt_irrefl 1)
    | some count =>
      have hcount := frames?_append hframes more
      rw [hmore, frames?_bytes] at hcount
      rw [hframes, Option.getD_some, ← Option.some.inj hcount] at hanimated
      omega

/-- Two images among extensions, with data that looks like blocks. -/
def blinking : Stream where
  revision := .gif89a
  width := 300
  height := 8
  palette := { size := 0, flags := 5, colours := some [⟨0x2c, 0x2c, 0x2c⟩, ⟨0x3b, 0x21, 0⟩] }
  background := 0
  aspect := 0
  blocks :=
    [.extension 0xf9 [{ data := [0x2c, 0x21, 0x3b, 0] }],
      .image 0 0 300 8 { size := 1 } 2 [{ data := [0x2c, 0x2c] }, { data := [0x3b] }],
      .extension 0xfe [],
      .image 0 0 2 1 { size := 0, flags := 8, colours := some [⟨0, 0, 0⟩, ⟨0x3b, 0x3b, 0x3b⟩] } 2 []]
  trailing := [0x21]

/-- The stream, and a part of it that ends within the first image. -/
theorem recognizes_stream_blinking :
    sniff? blinking.bytes = some ⟨.gif, 300, 8, true, false⟩ ∧
      blinking.bytes.take 40 <+: blinking.bytes ∧ 10 ≤ (blinking.bytes.take 40).length ∧
      ∃ animated, sniff? (blinking.bytes.take 40) = some ⟨.gif, 300, 8, animated, false⟩ ∧
        (animated = true → 2 ≤ blinking.images) := by
  obtain ⟨hwhole, hparts⟩ := recognizes_stream blinking
  have hpart : blinking.bytes.take 40 <+: blinking.bytes := List.take_prefix _ _
  have hlength : 10 ≤ (blinking.bytes.take 40).length := by decide +kernel
  exact ⟨hwhole, hpart, hlength, hparts _ hpart hlength⟩

end Gif

end BundleForge.Image
