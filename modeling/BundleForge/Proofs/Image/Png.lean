import BundleForge.Proofs.Bytes
import Mathlib.Data.List.Basic
/-!
# Streams of chunks

A stream is a signature and a list of chunks, each with its length in front of its kind and its data. `Stream.bytes`
writes a stream down; the reader goes from chunk to chunk by the lengths, so that it takes no data for a chunk, and
stops at the first chunk that decides about animation.
-/

namespace BundleForge.Image.Png

/-! ### The grammar -/

/-- A chunk of any kind, with as much data as its length can count. The check sum may be any, as is the data. -/
structure Chunk where
  kind : Bytes
  data : Bytes
  checksum : UInt32
  length_kind : kind.length = 4 := by decide
  length_data : data.length < UInt32.size := by decide

def Chunk.bytes (chunk : Chunk) : Bytes :=
  Bytes.ofNat 4 chunk.data.length ++ (chunk.kind ++ (chunk.data ++ Bytes.ofNat 4 chunk.checksum.toNat))

/-- What a header says besides the size. -/
structure Coding where
  depth : UInt8
  colour : UInt8
  compression : UInt8
  filter : UInt8
  interlace : UInt8

def Coding.bytes (coding : Coding) : Bytes :=
  [coding.depth, coding.colour, coding.compression, coding.filter, coding.interlace]

structure Stream where
  width : UInt32
  height : UInt32
  coding : Coding
  headerChecksum : UInt32
  chunks : List Chunk
  last : Chunk
  kind_last : last.kind = Bytes.ascii "IEND" := by decide
  trailing : Bytes := []

namespace Stream

def header (stream : Stream) : Chunk where
  kind := Bytes.ascii "IHDR"
  data := Bytes.ofNat 4 stream.width.toNat ++ (Bytes.ofNat 4 stream.height.toNat ++ stream.coding.bytes)
  checksum := stream.headerChecksum
  length_data := show 13 < UInt32.size by decide

def body (stream : Stream) : Bytes :=
  stream.chunks.flatMap Chunk.bytes ++ (stream.last.bytes ++ stream.trailing)

def bytes (stream : Stream) : Bytes :=
  pngSignature ++ (stream.header.bytes ++ stream.body)

end Stream

/-- A chunk that ends the search for an animation control: image data, or the end. -/
def Chunk.Decides (chunk : Chunk) : Prop :=
  chunk.kind = Bytes.ascii "IDAT" ∨ chunk.kind = Bytes.ascii "IEND"

instance (chunk : Chunk) : Decidable chunk.Decides := inferInstanceAs (Decidable (_ ∨ _))

/-- An animation control comes before any image data and any end. -/
def Announced (chunks : List Chunk) : Prop :=
  ∃ before control after, chunks = before ++ control :: after ∧ control.kind = Bytes.ascii "acTL" ∧
    ∀ chunk ∈ before, ¬ chunk.Decides

/-! ### The reader on chunks -/

theorem not_announced_nil : ¬ Announced [] := by
  rintro ⟨before, control, after, hchunks, -⟩
  exact List.append_ne_nil_of_right_ne_nil before (List.cons_ne_nil control after) hchunks.symm

theorem announced_cons_iff {chunk : Chunk} {others : List Chunk} :
    Announced (chunk :: others) ↔
      chunk.kind = Bytes.ascii "acTL" ∨ ¬ chunk.Decides ∧ Announced others := by
  constructor
  · rintro ⟨before, control, after, hchunks, hkind, hbefore⟩
    cases before with
    | nil =>
      obtain ⟨rfl, -⟩ := List.cons.inj hchunks
      exact .inl hkind
    | cons first before =>
      obtain ⟨rfl, hothers⟩ := List.cons.inj hchunks
      rw [List.forall_mem_cons] at hbefore
      exact .inr ⟨hbefore.1, before, control, after, hothers, hkind, hbefore.2⟩
  · rintro (hkind | ⟨hdecides, before, control, after, rfl, hkind, hbefore⟩)
    · exact ⟨[], chunk, others, rfl, hkind, fun _ hmem => absurd hmem List.not_mem_nil⟩
    · exact ⟨chunk :: before, control, after, rfl, hkind, List.forall_mem_cons.2 ⟨hdecides, hbefore⟩⟩

/-- Behind a chunk the reader finds the next one, whatever the data of the chunk is. -/
theorem drop_bytes (chunk : Chunk) (rest : Bytes) :
    (chunk.bytes ++ rest).drop (12 + chunk.data.length) = rest := by
  refine List.drop_left' ?_
  simp only [Chunk.bytes, List.length_append, Bytes.length_ofNat, chunk.length_kind]
  omega

theorem animationControl_chunk (chunk : Chunk) (rest : Bytes) :
    animationControl (chunk.bytes ++ rest) =
      if chunk.kind = Bytes.ascii "acTL" then true
      else if chunk.Decides then false
      else animationControl rest := by
  obtain ⟨k₃, k₂, k₁, k₀, hkind⟩ := List.length_eq_four.1 chunk.length_kind
  obtain ⟨l₃, l₂, l₁, l₀, hlength⟩ := List.length_eq_four.1 (Bytes.length_ofNat 4 chunk.data.length)
  have hvalue : Bytes.bigEndian [l₃, l₂, l₁, l₀] = chunk.data.length := by
    rw [← hlength, Bytes.bigEndian_ofNat chunk.length_data]
  have hbytes : chunk.bytes ++ rest = l₃ :: l₂ :: l₁ :: l₀ :: k₃ :: k₂ :: k₁ :: k₀ ::
      (chunk.data ++ Bytes.ofNat 4 chunk.checksum.toNat ++ rest) := by
    simp [Chunk.bytes, hlength, hkind]
  have hnext := drop_bytes chunk rest
  rw [hbytes] at hnext ⊢
  rw [animationControl, hvalue, hnext, hkind]
  simp only [Chunk.Decides, hkind]

/-- The reader finds an animation control where there is one in time, and stops at the last chunk otherwise. -/
theorem animationControl_chunks (chunks : List Chunk) {last : Chunk} (hlast : last.kind = Bytes.ascii "IEND")
    (rest : Bytes) :
    animationControl (chunks.flatMap Chunk.bytes ++ (last.bytes ++ rest)) = true ↔ Announced chunks := by
  induction chunks with
  | nil =>
    have hcontrol : last.kind ≠ Bytes.ascii "acTL" := by
      rw [hlast]
      decide
    rw [List.flatMap_nil, List.nil_append, animationControl_chunk, if_neg hcontrol, if_pos (.inr hlast)]
    exact iff_of_false Bool.false_ne_true not_announced_nil
  | cons chunk others ih =>
    rw [List.flatMap_cons, List.append_assoc, animationControl_chunk, announced_cons_iff]
    by_cases hcontrol : chunk.kind = Bytes.ascii "acTL"
    · rw [if_pos hcontrol]
      exact iff_of_true rfl (.inl hcontrol)
    · rw [if_neg hcontrol]
      by_cases hdecides : chunk.Decides
      · rw [if_pos hdecides]
        exact iff_of_false Bool.false_ne_true fun h => h.elim hcontrol fun h => h.1 hdecides
      · rw [if_neg hdecides, ih]
        exact ⟨fun h => .inr ⟨hdecides, h⟩, fun h => h.elim (absurd · hcontrol) And.right⟩

/-! ### What is read off a stream -/

variable (stream : Stream)

/-- The signature and the lead of the header, behind which its data begins. -/
def opening : Bytes := pngSignature ++ (Bytes.ofNat 4 13 ++ Bytes.ascii "IHDR")

theorem bytes_eq :
    stream.bytes = opening ++ (Bytes.ofNat 4 stream.width.toNat ++ (Bytes.ofNat 4 stream.height.toNat ++
      (stream.coding.bytes ++ (Bytes.ofNat 4 stream.headerChecksum.toNat ++ stream.body)))) := rfl

theorem ofPng?_bytes :
    ofPng? stream.bytes = some ⟨.png, stream.width, stream.height,
      animationControl (stream.header.bytes ++ stream.body), false⟩ := by
  have hkind : (stream.bytes.drop 12).take 4 = Bytes.ascii "IHDR" := rfl
  have hwidth : bigEndianAt? stream.bytes 16 4 = some stream.width := by
    rw [bytes_eq]
    exact bigEndianAt?_four _ rfl _ _
  have hheight : bigEndianAt? stream.bytes 20 4 = some stream.height := by
    rw [bytes_eq, ← List.append_assoc]
    exact bigEndianAt?_four _ rfl _ _
  have hchunks : stream.bytes.drop pngSignature.length = stream.header.bytes ++ stream.body :=
    List.drop_left
  rw [ofPng?, hkind, hwidth, hheight, hchunks]
  rfl

theorem animationControl_bytes :
    animationControl (stream.header.bytes ++ stream.body) = true ↔ Announced stream.chunks := by
  have hcontrol : stream.header.kind ≠ Bytes.ascii "acTL" := show Bytes.ascii "IHDR" ≠ _ by decide
  have hdecides : ¬ stream.header.Decides :=
    not_or.2 ⟨show Bytes.ascii "IHDR" ≠ _ by decide, show Bytes.ascii "IHDR" ≠ _ by decide⟩
  rw [animationControl_chunk, if_neg hcontrol, if_neg hdecides, Stream.body]
  exact animationControl_chunks _ stream.kind_last _

/-- A stream is read as its header says, animated if an animation control comes in time. -/
theorem recognizes_chunks (stream : Stream) :
    ∃ animated, sniff? stream.bytes = some ⟨.png, stream.width, stream.height, animated, false⟩ ∧
      (animated = true ↔ Announced stream.chunks) := by
  have hpng : pngSignature.isPrefixOf stream.bytes = true :=
    List.isPrefixOf_iff_prefix.2 (List.prefix_append _ _)
  refine ⟨_, ?_, animationControl_bytes stream⟩
  rw [sniff?, if_pos hpng, ofPng?_bytes]

/-- An animation behind a comment that holds the name of image data where a chunk would have its own. -/
def waving : Stream where
  width := 70000
  height := 1
  coding := ⟨8, 6, 0, 0, 0⟩
  headerChecksum := 0
  chunks :=
    [{ kind := Bytes.ascii "tEXt", data := [0, 0, 0, 0] ++ Bytes.ascii "IDATacTL", checksum := 1 },
      { kind := Bytes.ascii "acTL", data := [0, 0, 0, 1, 0, 0, 0, 0], checksum := 2 },
      { kind := Bytes.ascii "IDAT", data := [], checksum := 3 }]
  last := { kind := Bytes.ascii "IEND", data := [], checksum := 4 }
  trailing := [0xff]

example : sniff? waving.bytes = some ⟨.png, 70000, 1, true, false⟩ := by decide +kernel

end BundleForge.Image.Png
