import BundleForge.Proofs.Bytes
import Mathlib.Data.List.Basic
import Mathlib.Logic.Relation
import Mathlib.Order.WellFounded
/-!
# Streams of markers

Behind its opening a stream is a list of markers. Some stand alone, most lead a segment that tells its own length,
and any may have more of its first byte in front of it. `Advances` is one step of a scan for the frame, by what the
data says at that place; each step leaves less of the data, so that a scan of any data ends, and what it finds is
what stands where it ends.
-/

namespace BundleForge.Image.Jpeg

/-! ### Markers -/

def standaloneMarkers : List UInt8 :=
  [0x01, 0xd0, 0xd1, 0xd2, 0xd3, 0xd4, 0xd5, 0xd6, 0xd7, 0xd8]

def frameMarkers : List UInt8 :=
  [0xc0, 0xc1, 0xc2, 0xc3, 0xc5, 0xc6, 0xc7, 0xc9, 0xca, 0xcb, 0xcd, 0xce, 0xcf]

/-- A marker of a segment that is led by its length and is no frame: neither of the two kinds above, nor the end of
the stream, nor another first byte of a marker. -/
def IsDelimited (marker : UInt8) : Prop :=
  marker ∉ standaloneMarkers ∧ marker ∉ frameMarkers ∧ marker ≠ 0xd9 ∧ marker ≠ 0xff

instance (marker : UInt8) : Decidable (IsDelimited marker) := inferInstanceAs (Decidable (_ ∧ _))

theorem isStandalone_iff (marker : UInt8) : isStandalone marker = true ↔ marker ∈ standaloneMarkers := by
  have hall : ∀ value : Fin 256,
      isStandalone (.ofFin value) = true ↔ UInt8.ofFin value ∈ standaloneMarkers := by decide +kernel
  exact hall marker.toFin

theorem isStartOfFrame_iff (marker : UInt8) : isStartOfFrame marker = true ↔ marker ∈ frameMarkers := by
  have hall : ∀ value : Fin 256,
      isStartOfFrame (.ofFin value) = true ↔ UInt8.ofFin value ∈ frameMarkers := by decide +kernel
  exact hall marker.toFin

/-! ### The grammar -/

def opening : Bytes := [0xff, 0xd8]

/-- What may stand in front of the frame. -/
inductive Item where
  /-- One more first byte of a marker, in front of the marker. -/
  | fill
  | standalone (marker : UInt8) (alone : marker ∈ standaloneMarkers)
  | segment (marker : UInt8) (data : Bytes) (delimited : IsDelimited marker) (short : data.length + 2 < UInt16.size)

def Item.bytes : Item → Bytes
  | fill => [0xff]
  | standalone marker _ => [0xff, marker]
  | segment marker data _ _ => 0xff :: marker :: (Bytes.ofNat 2 (data.length + 2) ++ data)

/-- The header of a frame, up to the size of the image. -/
structure Frame where
  marker : UInt8
  length : UInt16
  precision : UInt8
  height : UInt16
  width : UInt16
  isFrame : marker ∈ frameMarkers := by decide

namespace Frame

def segment (frame : Frame) : Bytes :=
  Bytes.ofNat 2 frame.length.toNat ++ frame.precision ::
    (Bytes.ofNat 2 frame.height.toNat ++ Bytes.ofNat 2 frame.width.toNat)

def bytes (frame : Frame) : Bytes := 0xff :: frame.marker :: frame.segment

def size (frame : Frame) : UInt32 × UInt32 := (frame.width.toUInt32, frame.height.toUInt32)

def header (frame : Frame) : Header :=
  ⟨.jpeg, frame.width.toUInt32, frame.height.toUInt32, false, true⟩

end Frame

/-! ### The scan -/

/-- One step of a scan, from what is left of the data to what is left behind the step. A length may be any, and then
the segment ends with the data, or within itself. -/
inductive Advances : Bytes → Bytes → Prop
  | fill (rest : Bytes) : Advances (0xff :: 0xff :: rest) (0xff :: rest)
  | standalone {marker : UInt8} (alone : marker ∈ standaloneMarkers) (rest : Bytes) :
      Advances (0xff :: marker :: rest) rest
  | segment {marker : UInt8} (delimited : IsDelimited marker) (high low : UInt8) (rest : Bytes) :
      Advances (0xff :: marker :: high :: low :: rest)
        ((high :: low :: rest).drop (256 * high.toNat + low.toNat))

section

variable {here next : Bytes}

theorem Advances.suffix (h : Advances here next) : next <:+ here := by
  cases h with
  | fill rest => exact List.suffix_cons _ _
  | standalone alone rest => exact (List.suffix_cons _ _).trans (List.suffix_cons _ _)
  | segment delimited high low rest =>
    exact (List.drop_suffix _ _).trans ((List.suffix_cons _ _).trans (List.suffix_cons _ _))

theorem Advances.length_lt (h : Advances here next) : next.length < here.length := by
  cases h with
  | fill rest => exact Nat.lt_succ_self _
  | standalone alone rest => exact Nat.lt_succ_of_lt (Nat.lt_succ_self _)
  | segment delimited high low rest =>
    simp only [List.length_drop, List.length_cons]
    omega

/-- No scan goes on for ever, whatever the data is. -/
theorem wellFounded_advances : WellFounded fun next here => Advances here next :=
  Subrelation.wf Advances.length_lt (InvImage.wf List.length Nat.lt_wfRel.wf)

theorem exists_end (markers : Bytes) :
    ∃ last, Relation.ReflTransGen Advances markers last ∧ ∀ next, ¬ Advances last next := by
  obtain ⟨last, hreaches, hleast⟩ :=
    wellFounded_advances.has_min {rest | Relation.ReflTransGen Advances markers rest} ⟨markers, .refl⟩
  exact ⟨last, hreaches, fun next hnext => hleast next (hreaches.tail hnext) hnext⟩

end

/-! ### The reader at a marker -/

section

variable {marker : UInt8}

theorem frameSize?_stray {lead : UInt8} (hlead : lead ≠ 0xff) (rest : Bytes) : frameSize? (lead :: rest) = none := by
  cases rest with
  | nil => simp [frameSize?]
  | cons marker rest => rw [frameSize?, if_pos hlead]

theorem frameSize?_fill (rest : Bytes) : frameSize? (0xff :: 0xff :: rest) = frameSize? (0xff :: rest) := by
  rw [frameSize?, if_neg (not_not_intro rfl), if_pos rfl]

theorem frameSize?_standalone (alone : marker ∈ standaloneMarkers) (rest : Bytes) :
    frameSize? (0xff :: marker :: rest) = frameSize? rest := by
  have hfill : marker ≠ 0xff := ne_of_mem_of_not_mem alone (by decide)
  rw [frameSize?, if_neg (not_not_intro rfl), if_neg hfill, if_pos ((isStandalone_iff marker).2 alone)]

theorem frameSize?_ending (rest : Bytes) : frameSize? (0xff :: 0xd9 :: rest) = none := by
  rw [frameSize?, if_neg (not_not_intro rfl), if_neg (by decide), if_neg (by decide), if_pos rfl]

theorem frameSize?_frame (isFrame : marker ∈ frameMarkers) (rest : Bytes) :
    frameSize? (0xff :: marker :: rest) = do
      let height ← bigEndianAt? rest 3 2
      let width ← bigEndianAt? rest 5 2
      return (width, height) := by
  have hfill : marker ≠ 0xff := ne_of_mem_of_not_mem isFrame (by decide)
  have hending : marker ≠ 0xd9 := ne_of_mem_of_not_mem isFrame (by decide)
  have hdisjoint : ∀ marker ∈ frameMarkers, marker ∉ standaloneMarkers := by decide +kernel
  have halone : ¬ isStandalone marker = true := by
    rw [isStandalone_iff]
    exact hdisjoint marker isFrame
  rw [frameSize?, if_neg (not_not_intro rfl), if_neg hfill, if_neg halone, if_neg hending,
    if_pos ((isStartOfFrame_iff marker).2 isFrame)]

theorem frameSize?_delimited (delimited : IsDelimited marker) (rest : Bytes) :
    frameSize? (0xff :: marker :: rest) =
      (bigEndianAt? rest 0 2).bind fun length => frameSize? (rest.drop length.toNat) := by
  obtain ⟨halone, hframe, hending, hfill⟩ := delimited
  rw [← isStandalone_iff] at halone
  rw [← isStartOfFrame_iff] at hframe
  rw [frameSize?, if_neg (not_not_intro rfl), if_neg hfill, if_neg halone, if_neg hending, if_neg hframe]
  cases bigEndianAt? rest 0 2 with
  | none => rfl
  | some length => rfl

end

/-! ### The scan and the reader -/

section

variable {here next : Bytes}

theorem Advances.frameSize?_eq (h : Advances here next) : frameSize? here = frameSize? next := by
  cases h with
  | fill rest => exact frameSize?_fill rest
  | standalone alone => exact frameSize?_standalone alone _
  | segment delimited high low rest =>
    have hhigh := high.toNat_lt
    have hlow := low.toNat_lt
    have hlength : bigEndianAt? (high :: low :: rest) 0 2 =
        some (UInt32.ofNat (256 * high.toNat + low.toNat)) := by
      rw [← Bytes.bigEndian_pair]
      rfl
    have hword : (UInt32.ofNat (256 * high.toNat + low.toNat)).toNat = 256 * high.toNat + low.toNat := by
      rw [UInt32.toNat_ofNat']
      omega
    rw [frameSize?_delimited delimited, hlength, Option.bind_some, hword]

theorem frameSize?_eq_of_reaches (h : Relation.ReflTransGen Advances here next) :
    frameSize? here = frameSize? next := by
  induction h with
  | refl => rfl
  | tail _ hstep ih => exact ih.trans hstep.frameSize?_eq

theorem frameSize?_of_frame {frame : Frame} (h : frame.bytes <+: here) : frameSize? here = some frame.size := by
  obtain ⟨rest, rfl⟩ := h
  have hheight : bigEndianAt? (frame.segment ++ rest) 3 2 = some frame.height.toUInt32 :=
    bigEndianAt?_two (Bytes.ofNat 2 frame.length.toNat ++ [frame.precision]) rfl _ _
  have hwidth : bigEndianAt? (frame.segment ++ rest) 5 2 = some frame.width.toUInt32 :=
    bigEndianAt?_two (Bytes.ofNat 2 frame.length.toNat ++ frame.precision ::
      Bytes.ofNat 2 frame.height.toNat) rfl _ _
  rw [Frame.bytes, List.cons_append, List.cons_append, frameSize?_frame frame.isFrame, hheight, hwidth]
  rfl

/-- Any seven bytes behind its marker are those of a frame. -/
theorem exists_frame {marker : UInt8} (isFrame : marker ∈ frameMarkers) {rest : Bytes} (hlength : 7 ≤ rest.length) :
    ∃ frame : Frame, frame.bytes <+: 0xff :: marker :: rest := by
  match rest, hlength with
  | l₁ :: l₀ :: precision :: h₁ :: h₀ :: w₁ :: w₀ :: more, _ =>
    refine ⟨⟨marker, UInt16.ofNat (Bytes.bigEndian [l₁, l₀]), precision, UInt16.ofNat (Bytes.bigEndian [h₁, h₀]),
      UInt16.ofNat (Bytes.bigEndian [w₁, w₀]), isFrame⟩, more, ?_⟩
    simp only [Frame.bytes, Frame.segment, Bytes.ofNat_two]
    rfl

theorem exists_advances {marker : UInt8} (delimited : IsDelimited marker) {rest : Bytes} (hlength : 2 ≤ rest.length) :
    ∃ next, Advances (0xff :: marker :: rest) next := by
  match rest, hlength with
  | high :: low :: others, _ => exact ⟨_, .segment delimited high low others⟩

theorem frameSize?_eq_some_iff (hend : ∀ next, ¬ Advances here next) {size : UInt32 × UInt32} :
    frameSize? here = some size ↔ ∃ frame : Frame, frame.bytes <+: here ∧ frame.size = size := by
  constructor
  · intro h
    suffices hframe : ∃ frame : Frame, frame.bytes <+: here by
      obtain ⟨frame, hfront⟩ := hframe
      exact ⟨frame, hfront, Option.some.inj ((frameSize?_of_frame hfront).symm.trans h)⟩
    obtain _ | ⟨lead, _ | ⟨marker, rest⟩⟩ := here
    case nil => simp [frameSize?] at h
    case cons.nil => simp [frameSize?] at h
    case cons.cons =>
      by_cases hlead : lead = 0xff
      · subst hlead
        by_cases hfill : marker = 0xff
        · subst hfill
          exact absurd (.fill rest) (hend _)
        by_cases halone : marker ∈ standaloneMarkers
        · exact absurd (.standalone halone rest) (hend _)
        by_cases hending : marker = 0xd9
        · rw [hending, frameSize?_ending] at h
          exact absurd h.symm (Option.some_ne_none size)
        by_cases hframe : marker ∈ frameMarkers
        · rw [frameSize?_frame hframe] at h
          obtain ⟨height, -, h⟩ := Option.bind_eq_some_iff.1 h
          obtain ⟨width, hwidth, -⟩ := Option.bind_eq_some_iff.1 h
          have hlength := le_length_of_bigEndianAt? hwidth
          exact exists_frame hframe (by omega)
        · have hdelimited : IsDelimited marker := ⟨halone, hframe, hending, hfill⟩
          rw [frameSize?_delimited hdelimited] at h
          obtain ⟨length, hvalue, -⟩ := Option.bind_eq_some_iff.1 h
          obtain ⟨next, hstep⟩ := exists_advances hdelimited (le_length_of_bigEndianAt? hvalue)
          exact absurd hstep (hend next)
      · rw [frameSize?_stray hlead] at h
        exact absurd h.symm (Option.some_ne_none size)
  · rintro ⟨frame, hfront, rfl⟩
    exact frameSize?_of_frame hfront

end

/-! ### What is read off a stream -/

theorem head?_bytes (item : Item) (rest : Bytes) : (item.bytes ++ rest).head? = some 0xff := by
  cases item <;> rfl

theorem advances_item {item : Item} {rest : Bytes} (hfill : item = .fill → rest.head? = some 0xff) :
    Advances (item.bytes ++ rest) rest := by
  cases item with
  | fill =>
    obtain ⟨others, rfl⟩ := List.head?_eq_some_iff.1 (hfill rfl)
    exact .fill others
  | standalone marker alone => exact .standalone alone rest
  | segment marker data delimited short =>
    obtain ⟨high, low, hlength⟩ := List.length_eq_two.1 (Bytes.length_ofNat 2 (data.length + 2))
    have hvalue : 256 * high.toNat + low.toNat = data.length + 2 := by
      rw [← Bytes.bigEndian_pair, ← hlength, Bytes.bigEndian_ofNat short]
    have hstep := Advances.segment delimited high low (data ++ rest)
    rw [hvalue, List.drop_succ_cons, List.drop_succ_cons, List.drop_left] at hstep
    rw [Item.bytes, hlength]
    exact hstep

/-- The scan goes through all items, unless the last one takes what stands behind it for a marker. -/
theorem reaches_items {items : List Item} {rest : Bytes}
    (hfill : items.getLast? = some .fill → rest.head? = some 0xff) :
    Relation.ReflTransGen Advances (items.flatMap Item.bytes ++ rest) rest := by
  induction items with
  | nil => exact .refl
  | cons item others ih =>
    rw [List.flatMap_cons, List.append_assoc]
    cases others with
    | nil => exact .single (advances_item fun hitem => hfill (hitem ▸ rfl))
    | cons second more =>
      rw [List.getLast?_cons_cons] at hfill
      refine .head (advances_item fun _ => ?_) (ih hfill)
      rw [List.flatMap_cons, List.append_assoc]
      exact head?_bytes second _

theorem sniff?_opening (markers : Bytes) :
    sniff? (opening ++ markers) =
      (frameSize? markers).map fun size => ⟨.jpeg, size.1, size.2, false, true⟩ := by
  have hpng : pngSignature.isPrefixOf (opening ++ markers) = false := rfl
  have hgif : ((Bytes.ascii "GIF87a").isPrefixOf (opening ++ markers) ||
      (Bytes.ascii "GIF89a").isPrefixOf (opening ++ markers)) = false := rfl
  have hbmp : (Bytes.ascii "BM").isPrefixOf (opening ++ markers) = false := rfl
  have hjpeg : [0xff, 0xd8].isPrefixOf (opening ++ markers) = true := rfl
  rw [sniff?, hpng, hgif, hbmp, hjpeg, if_neg Bool.false_ne_true, if_neg Bool.false_ne_true,
    if_neg Bool.false_ne_true, if_pos rfl, ofJpeg?]
  show (frameSize? markers).bind _ = _
  cases frameSize? markers <;> rfl

/-- What is read behind a list of items. -/
structure Takes (items : List Item) : Prop where
  frame : ∀ (frame : Frame) (rest : Bytes),
    sniff? (opening ++ (items.flatMap Item.bytes ++ (frame.bytes ++ rest))) = some frame.header
  ending : ∀ rest : Bytes,
    sniff? (opening ++ (items.flatMap Item.bytes ++ 0xff :: 0xd9 :: rest)) = none
  /-- A byte that begins no marker, where no first byte of one is left open. -/
  stray : ∀ (byte : UInt8) (rest : Bytes), byte ≠ 0xff → items.getLast? ≠ some .fill →
    sniff? (opening ++ (items.flatMap Item.bytes ++ byte :: rest)) = none

/-- How a scan of any data goes. -/
structure Ends (markers : Bytes) : Prop where
  advances : ∀ here next, Relation.ReflTransGen Advances markers here → Advances here next →
    next <:+ here ∧ next.length < here.length
  /-- The reader goes along with the scan. -/
  same : ∀ here, Relation.ReflTransGen Advances markers here → frameSize? here = frameSize? markers
  /-- The scan comes to a place that it does not leave, and a frame there is what is read. -/
  last : ∃ last, Relation.ReflTransGen Advances markers last ∧ (∀ next, ¬ Advances last next) ∧
    ∀ header, sniff? (opening ++ markers) = some header ↔
      ∃ frame : Frame, frame.bytes <+: last ∧ frame.header = header

/-- The first frame is found behind any items, and a scan ends whatever the data is. -/
theorem finds_first_frame : (∀ items, Takes items) ∧ ∀ markers, Ends markers := by
  constructor
  · intro items
    constructor
    case frame =>
      intro frame rest
      have hreaches : Relation.ReflTransGen Advances (items.flatMap Item.bytes ++ (frame.bytes ++ rest))
          (frame.bytes ++ rest) := reaches_items fun _ => rfl
      rw [sniff?_opening, frameSize?_eq_of_reaches hreaches, frameSize?_of_frame (List.prefix_append _ _)]
      rfl
    case ending =>
      intro rest
      have hreaches : Relation.ReflTransGen Advances (items.flatMap Item.bytes ++ 0xff :: 0xd9 :: rest)
          (0xff :: 0xd9 :: rest) := reaches_items fun _ => rfl
      rw [sniff?_opening, frameSize?_eq_of_reaches hreaches, frameSize?_ending, Option.map_none]
    case stray =>
      intro byte rest hbyte hlast
      have hreaches : Relation.ReflTransGen Advances (items.flatMap Item.bytes ++ byte :: rest)
          (byte :: rest) := reaches_items fun hfill => absurd hfill hlast
      rw [sniff?_opening, frameSize?_eq_of_reaches hreaches, frameSize?_stray hbyte, Option.map_none]
  · intro markers
    constructor
    case advances => exact fun here next _ hstep => ⟨hstep.suffix, hstep.length_lt⟩
    case same => exact fun here hreaches => (frameSize?_eq_of_reaches hreaches).symm
    case last =>
      obtain ⟨last, hreaches, hend⟩ := exists_end markers
      refine ⟨last, hreaches, hend, fun header => ?_⟩
      rw [sniff?_opening, frameSize?_eq_of_reaches hreaches, Option.map_eq_some_iff]
      constructor
      · rintro ⟨size, hsize, rfl⟩
        obtain ⟨frame, hfront, rfl⟩ := (frameSize?_eq_some_iff hend).1 hsize
        exact ⟨frame, hfront, rfl⟩
      · rintro ⟨frame, hfront, rfl⟩
        exact ⟨frame.size, (frameSize?_eq_some_iff hend).2 ⟨frame, hfront, rfl⟩, rfl⟩

/-- Items with data that looks like a frame or like the end, and with more first bytes of a marker. -/
def disguised : List Item :=
  [.segment 0xe0 [0xff, 0xc0, 0, 11, 8, 0, 1, 0, 1] (by decide) (by decide), .fill, .fill,
    .segment 0xc4 [0xff, 0xd9] (by decide) (by decide), .segment 0xc8 [] (by decide) (by decide),
    .segment 0xcc [0xff] (by decide) (by decide), .fill, .standalone 0x01 (by decide),
    .standalone 0xd8 (by decide)]

/-- The items with a frame behind them and with a byte that begins no marker, and a segment of length zero. -/
theorem finds_first_frame_disguised :
    sniff? (opening ++ (disguised.flatMap Item.bytes ++ (Frame.bytes ⟨0xcf, 11, 8, 30, 40, by decide⟩ ++ [1]))) =
        some ⟨.jpeg, 40, 30, false, true⟩ ∧
      (0 : UInt8) ≠ 0xff ∧ disguised.getLast? ≠ some .fill ∧
      sniff? (opening ++ (disguised.flatMap Item.bytes ++ [0])) = none ∧
      Relation.ReflTransGen Advances [0xff, 0xe1, 0, 0] [0xff, 0xe1, 0, 0] ∧
      Advances [0xff, 0xe1, 0, 0] [0, 0] ∧ [0, 0] <:+ ([0xff, 0xe1, 0, 0] : Bytes) ∧
      frameSize? [0, 0] = frameSize? [0xff, 0xe1, 0, 0] := by
  obtain ⟨hitems, hscans⟩ := finds_first_frame
  have hlast : disguised.getLast? ≠ some .fill := fun h => nomatch Option.some.inj h
  have hstep : Advances [0xff, 0xe1, 0, 0] [0, 0] := .segment (by decide) 0 0 []
  obtain ⟨hadvances, hsame, -⟩ := hscans [0xff, 0xe1, 0, 0]
  exact ⟨(hitems disguised).frame ⟨0xcf, 11, 8, 30, 40, by decide⟩ [1], by decide, hlast,
    (hitems disguised).stray 0 [] (by decide) hlast, .refl, hstep, (hadvances _ _ .refl hstep).1,
    hsame _ (.single hstep)⟩

end BundleForge.Image.Jpeg
