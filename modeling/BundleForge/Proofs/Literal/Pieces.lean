import BundleForge.Proofs.Literal
import Mathlib
/-!
# Pieces cut in one pass

The pieces of a text can be cut in one pass over its characters, which keeps the byte at which the open piece begins
and the number of its characters, and cuts in front of a character when the open piece is full. The characters of a
text differ in their bytes, yet no cut falls inside of one: what lies between two cuts is the encoding of a piece.
-/

namespace BundleForge.Literal

open String (utf8Len utf8Len_nil utf8Len_cons utf8Len_append utf8Len_eq_zero)

/-! ### The number of pieces -/

theorem Cuts.length_eq {limit : ℕ} {text : List Char} {pieces : List (List Char)} (h : Cuts limit text pieces)
    (hlimit : 1 ≤ limit) : pieces.length = text.length ⌈/⌉ limit := by
  rw [Nat.ceilDiv_eq_add_pred_div, ← h.flatten, List.length_flatten]
  obtain rfl | ⟨before, last, rfl⟩ := pieces.eq_nil_or_concat
  · exact (Nat.div_eq_of_lt (by simpa using Nat.lt_of_succ_le hlimit)).symm
  · have hbefore : before.map List.length = List.replicate before.length limit := by
      rw [List.map_eq_replicate_iff]
      exact fun piece hpiece => h.full piece (by simpa using hpiece)
    have hpos : 0 < last.length := List.length_pos_iff.2 fun hnil => h.nonempty (by simp [hnil])
    have hlast : last.length ≤ limit := h.last last (by simp)
    rw [List.concat_eq_append, List.map_append, List.sum_append, hbefore, List.sum_replicate, smul_eq_mul,
      List.map_singleton, List.sum_singleton, List.length_append, List.length_singleton, eq_comm,
      Nat.div_eq_iff (by omega), Nat.add_mul, Nat.mul_comm]
    omega

/-! ### One pass over the characters -/

/-- The ranges of bytes that are cut in one pass. The piece that is open begins at byte `start` and has `count`
characters so far, and the next character is at byte `index`. -/
def ranges (limit start count index : ℕ) : List Char → List (ℕ × ℕ)
  | [] => if start < index then [(start, index)] else []
  | c :: rest =>
    if count = limit then (start, index) :: ranges limit index 1 (index + c.utf8Size) rest
    else ranges limit start (count + 1) (index + c.utf8Size) rest

def spans (start : ℕ) : List (List Char) → List (ℕ × ℕ)
  | [] => []
  | piece :: rest => (start, start + utf8Len piece) :: spans (start + utf8Len piece) rest

theorem ranges_eq_spans (limit start : ℕ) (piece rest : List Char) (hpiece : piece.length ≤ max limit 1) :
    ranges (max limit 1) start piece.length (start + utf8Len piece) rest =
      spans start (chunks limit (piece ++ rest)) := by
  induction rest generalizing start piece with
  | nil =>
    rw [List.append_nil, ranges]
    by_cases hnil : piece = []
    · rw [hnil, chunks_nil, if_neg (by simp), spans]
    · have hpos : 0 < utf8Len piece := Nat.pos_of_ne_zero fun h => hnil (utf8Len_eq_zero.1 h)
      rw [if_pos (by omega), chunks_of_ne_nil hnil, List.take_of_length_le hpiece, List.drop_of_length_le hpiece,
        chunks_nil, spans, spans]
  | cons c rest ih =>
    rw [ranges]
    split
    · rename_i hfull
      have hnil : piece ++ c :: rest ≠ [] := List.append_ne_nil_of_right_ne_nil _ (List.cons_ne_nil _ _)
      have hnext := ih (start + utf8Len piece) [c] (by simp)
      rw [utf8Len_cons, utf8Len_nil, Nat.zero_add, List.length_singleton, List.singleton_append] at hnext
      rw [chunks_of_ne_nil hnil, List.take_left' hfull, List.drop_left' hfull, spans, hnext]
    · rename_i hopen
      have hnext := ih start (piece ++ [c]) (by rw [List.length_append, List.length_singleton]; omega)
      rwa [List.length_append, List.length_singleton, utf8Len_append, utf8Len_cons, utf8Len_nil, Nat.zero_add,
        ← Nat.add_assoc, List.append_assoc, List.singleton_append] at hnext

/-! ### Ranges of bytes -/

theorem size_utf8Encode (text : List Char) : text.utf8Encode.size = utf8Len text := by
  rw [← String.toByteArray_ofList, String.size_toByteArray, String.utf8ByteSize_ofList]

/-- Behind some characters of a text a character begins, or the text ends. -/
theorem isValid_utf8Len (before after : List Char) :
    (⟨utf8Len before⟩ : String.Pos.Raw).IsValid (String.ofList (before ++ after)) :=
  String.Pos.Raw.isValid_iff_exists_append.2
    ⟨String.ofList before, String.ofList after, String.ofList_append, (String.rawEndPos_ofList before).symm⟩

theorem extract_utf8Encode (before piece after : List Char) :
    (before ++ (piece ++ after)).utf8Encode.extract (utf8Len before) (utf8Len before + utf8Len piece) =
      piece.utf8Encode := by
  have hbefore : utf8Len before = before.utf8Encode.size + 0 := (size_utf8Encode before).symm
  have hpiece : utf8Len before + utf8Len piece = before.utf8Encode.size + piece.utf8Encode.size := by
    rw [size_utf8Encode, size_utf8Encode]
  rw [List.utf8Encode_append, List.utf8Encode_append, hpiece, hbefore, ByteArray.extract_append_size_add,
    ByteArray.extract_append_eq_left rfl]

/-- A range of bytes begins and ends between characters. -/
def Between (text : String) (range : ℕ × ℕ) : Prop :=
  (⟨range.1⟩ : String.Pos.Raw).IsValid text ∧ (⟨range.2⟩ : String.Pos.Raw).IsValid text

theorem between_of_mem_spans (before : List Char) (pieces : List (List Char)) :
    ∀ range ∈ spans (utf8Len before) pieces, Between (String.ofList (before ++ pieces.flatten)) range := by
  induction pieces generalizing before with
  | nil => exact fun _ h => absurd h List.not_mem_nil
  | cons piece rest ih =>
    have hrest := ih (before ++ piece)
    have hend := isValid_utf8Len (before ++ piece) rest.flatten
    rw [utf8Len_append, List.append_assoc] at hrest hend
    exact List.forall_mem_cons.2 ⟨⟨isValid_utf8Len before _, hend⟩, hrest⟩

theorem extract_spans (before : List Char) (pieces : List (List Char)) :
    (spans (utf8Len before) pieces).map
        (fun range => (before ++ pieces.flatten).utf8Encode.extract range.1 range.2) =
      pieces.map List.utf8Encode := by
  induction pieces generalizing before with
  | nil => rfl
  | cons piece rest ih =>
    have hrest := ih (before ++ piece)
    rw [utf8Len_append, List.append_assoc] at hrest
    rw [spans, List.map_cons, List.map_cons, List.flatten_cons, extract_utf8Encode, hrest]

/-- What it is to divide a text into pieces of at most `limit` characters. -/
structure Divides (limit : ℕ) (text : String) (pieces : List (List Char)) : Prop
    extends Cuts limit text.toList pieces where
  length_eq : pieces.length = text.length ⌈/⌉ limit
  length_eq_zero : pieces.length = 0 ↔ text = ""
  /-- The bytes of the pieces are those that one pass over the characters cuts. -/
  slices : pieces.map List.utf8Encode =
    (ranges limit 0 0 0 text.toList).map fun range => text.toByteArray.extract range.1 range.2
  /-- No cut falls inside of a character. -/
  boundaries : ∀ range ∈ ranges limit 0 0 0 text.toList, Between text range

/-- Every text is divided into pieces as its limit says, where a limit of zero counts as one. -/
theorem divides_chunks (limit : ℕ) (text : String) : Divides (max limit 1) text (chunks limit text.toList) := by
  have hcuts := cuts_chunks limit text.toList
  have hranges : ranges (max limit 1) 0 0 0 text.toList = spans 0 (chunks limit text.toList) :=
    ranges_eq_spans limit 0 [] text.toList (Nat.zero_le _)
  have hpieces := between_of_mem_spans [] (chunks limit text.toList)
  have hbytes := extract_spans [] (chunks limit text.toList)
  rw [List.nil_append, hcuts.flatten, String.ofList_toList] at hpieces
  rw [List.nil_append, hcuts.flatten, String.utf8Encode_toList] at hbytes
  refine ⟨hcuts, ?_, ?_, ?_, ?_⟩
  · exact hcuts.length_eq (le_max_right limit 1)
  · rw [List.length_eq_zero_iff, ← String.toList_eq_nil_iff]
    refine ⟨fun hnil => ?_, fun hnil => by rw [hnil, chunks_nil]⟩
    rw [← hcuts.flatten, hnil, List.flatten_nil]
  · rw [hranges]
    exact hbytes.symm
  · rw [hranges]
    exact hpieces

example : ranges 2 0 0 0 "éxü".toList = [(0, 3), (3, 5)] := by decide

end BundleForge.Literal
