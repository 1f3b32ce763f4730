import BundleForge.Manifest.Declarations
import BundleForge.Proofs.Except
/-!
# Decoded declarations

Nothing that is read from a manifest sets the owner of an accessor: owners come from inheritance alone.
-/

namespace BundleForge.Toml

/-- A text is read by its characters, unless there is a byte order mark in front. -/
theorem read_of_lines {α : Type} {decode : Decoder α} {text : String} {chars : List Char} {data : α}
    (htext : text = String.ofList chars) (hmark : chars.head? ≠ some '\ufeff')
    (hlines : (lines? (chars.length + 1) ⟨[], []⟩ chars).map (decode <| .table .header ·) = some (.ok data)) :
    read decode text = .ok data := by
  have hdocument : document? text = lines? (chars.length + 1) ⟨[], []⟩ chars := by
    rw [document?, htext, String.toList_ofList]
    split
    · exact absurd rfl hmark
    · rfl
  obtain ⟨entries, hentries, hdata⟩ := Option.map_eq_some_iff.1 hlines
  rw [read, hdocument, hentries]
  simp only [hdata]

end BundleForge.Toml

namespace BundleForge.Declarations

open Toml

theorem forall_mem_each {α : Type} {item : Decoder α} {p : α → Prop}
    (hitem : ∀ value result, item value = .ok result → p result) {values : List Value}
    {results : List α} (h : Decoder.each item values = .ok results) : ∀ result ∈ results, p result := by
  induction values generalizing results with
  | nil =>
    obtain rfl := Except.ok.inj h
    exact fun _ hmem => absurd hmem List.not_mem_nil
  | cons value rest ih =>
    obtain ⟨first, hfirst, h⟩ := bind_eq_ok h
    obtain ⟨others, hothers, h⟩ := bind_eq_ok h
    obtain rfl := Except.ok.inj h
    exact List.forall_mem_cons.2 ⟨hitem value first hfirst, ih hothers⟩

theorem refuse_ne_ok {α : Type} (value : Value) (expected : String) (result : α) :
    Decoder.refuse value expected ≠ .ok result := by
  unfold Decoder.refuse
  split
  · split <;> simp
  · simp

theorem forall_mem_list {α : Type} {item : Decoder α} {p : α → Prop}
    (hitem : ∀ value result, item value = .ok result → p result) {value : Value}
    {results : List α} (h : Decoder.list item value = .ok results) : ∀ result ∈ results, p result := by
  unfold Decoder.list at h
  split at h
  · exact forall_mem_each hitem h
  · exact absurd h (refuse_ne_ok _ _ _)

theorem forall_mem_defaulted {α : Type} {form : RecordForm} {fields : Fields} {name : String}
    {item : Decoder α} {p : α → Prop} (hitem : ∀ value result, item value = .ok result → p result)
    {results : List α} (h : form.defaulted fields name [] (Decoder.list item) = .ok results) :
    ∀ result ∈ results, p result := by
  unfold RecordForm.defaulted at h
  split at h
  · exact forall_mem_list hitem h
  · obtain rfl := Except.ok.inj h
    exact fun _ hmem => absurd hmem List.not_mem_nil

theorem owner_of_accessor {value : Value} {result : Accessor} (h : accessor value = .ok result) :
    result.owner = none := by
  rw [accessor] at h
  iterate 9 obtain ⟨_, -, h⟩ := bind_eq_ok h
  obtain rfl := Except.ok.inj h
  rfl

theorem owner_of_bundle {value : Value} {result : Bundle} (h : bundle value = .ok result) :
    ∀ accessor ∈ result.accessors, accessor.owner = none := by
  rw [bundle] at h
  iterate 5 obtain ⟨_, -, h⟩ := bind_eq_ok h
  obtain ⟨accessors, haccessors, h⟩ := bind_eq_ok h
  obtain rfl := Except.ok.inj h
  exact forall_mem_defaulted (fun _ _ => owner_of_accessor) haccessors

theorem owner_of_read {text : String} {declarations : Declarations}
    (h : Toml.read decode text = .ok declarations) :
    ∀ table ∈ declarations.bundles, ∀ accessor ∈ table.accessors, accessor.owner = none := by
  unfold Toml.read at h
  split at h
  · simp at h
  · split at h
    · rename_i data hdata
      obtain rfl := Except.ok.inj h
      rw [decode] at hdata
      iterate 2 obtain ⟨_, -, hdata⟩ := bind_eq_ok hdata
      obtain ⟨bundles, hbundles, hdata⟩ := bind_eq_ok hdata
      obtain rfl := Except.ok.inj hdata
      exact forall_mem_defaulted (fun _ _ => owner_of_bundle) hbundles
    · simp at h

end BundleForge.Declarations
