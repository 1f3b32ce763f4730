import BundleForge.Proofs.Field
import BundleForge.Proofs.Implementation.Wires
import Mathlib
/-!
# Items of a module under different names

Statics and holders are named apart from each other within their kind: the registry numbers what would repeat an
identifier, and the names of holders are chosen one after the other. Between the two kinds the case tells them apart.
A static is spelled in upper case, and the name of a holder ends in a word with lower-case letters, whatever number
follows; the letter `z` stands in every one of the latter and in none of the former.
-/

namespace BundleForge

namespace Identifier

theorem not_mem_screaming {c : Char} (h : c.isLower = true) (name : List Char) : c ∉ screaming name := by
  intro hc
  obtain ⟨d, -, rfl⟩ := List.mem_map.1 hc
  rw [Char.isLower_toUpper_eq_false] at h
  exact Bool.false_ne_true h

end Identifier

theorem Field.Answers.not_mem_ident {field : Field} {request : FieldRequest} (h : field.Answers request)
    (hstatic : field.isStatic = true) : 'z' ∉ field.ident.toList := by
  obtain ⟨number, hident⟩ := h.ident
  have hbase : ∀ c ∈ (FieldRegistry.baseName request).toList, c ≠ 'z' := by
    rw [FieldRegistry.baseName, ← h.isStatic, if_pos hstatic]
    split
    · decide
    · rw [Identifier.toScreamingCase, String.toList_ofList]
      exact fun c hc hz => Identifier.not_mem_screaming (by decide) _ (hz ▸ hc)
  rw [hident]
  refine fun hz => Identifier.forall_mem_numbered (p := (· ≠ 'z')) ?_ (by decide) hbase number 'z' hz rfl
  rintro c hdigit rfl
  exact absurd hdigit (by decide)

namespace Implementation

theorem forall₂_holderNames (used accessors : List String) :
    List.Forall₂ (fun accessor name => ∃ number,
      name = Identifier.numbered "" (Identifier.toCamelCase accessor ++ "Initializer") number)
      accessors (holderNames used accessors) := by
  induction accessors generalizing used with
  | nil => exact .nil
  | cons accessor rest ih => exact .cons (Identifier.exists_fresh_eq _ _ _) (ih _)

theorem mem_holderNames_z {used accessors : List String} {name : String} (h : name ∈ holderNames used accessors) :
    'z' ∈ name.toList := by
  rw [← List.map_snd_zip (Nat.le_of_eq (length_holderNames used accessors))] at h
  obtain ⟨⟨accessor, _⟩, hpair, rfl⟩ := List.mem_map.1 h
  obtain ⟨number, hname⟩ := (List.forall₂_iff_zip.1 (forall₂_holderNames used accessors)).2 hpair
  obtain ⟨rest, hrest⟩ := Identifier.exists_numbered_eq "" (Identifier.toCamelCase accessor ++ "Initializer") number
  rw [hname, hrest, String.toList_append, String.toList_append]
  exact List.mem_append_left _ (List.mem_append_right _ (by decide))

/-- No name stands for two items of one kind. -/
structure Distinct (implementation : Implementation) : Prop where
  /-- A holder is a value as well, since it has no fields. -/
  values : (implementation.statics.map (·.ident) ++ implementation.holders.map (·.name)).Nodup
  types : (implementation.simpleName :: implementation.holders.map (·.name)).Nodup
  fields : (implementation.fields.map (·.ident)).Nodup
  functions : ("new" :: implementation.initializers.map (·.accessor ++ "_initializer")).Nodup
  methods : ∀ conformance ∈ implementation.conformances, (conformance.methods.map (·.name)).Nodup

variable {assembly : Assembly}

theorem map_name_holders (assembly : Assembly) : (ofAssembly assembly).holders.map (·.name) =
    holderNames [assembly.simpleName] (assembly.accessors.map (·.accessor.name)) := by
  rw [← map_snd_held]
  show ((held assembly).map holderFor).map (·.name) = _
  rw [List.map_map]
  rfl

theorem map_accessor_holders (assembly : Assembly) :
    (ofAssembly assembly).holders.map (·.accessor) = assembly.accessors.map (·.accessor.name) := by
  rw [← map_fst_held assembly, List.map_map]
  show ((held assembly).map holderFor).map (·.accessor) = _
  rw [List.map_map]
  rfl

theorem not_mem_ident_statics {requests : List FieldRequest}
    (hfields : assembly.fields = FieldRegistry.empty.defineAll requests) {member : Member}
    (h : member ∈ (ofAssembly assembly).statics) : 'z' ∉ member.ident.toList := by
  rcases List.mem_append.1 h with hfixed | hdefined
  · have hall : ∀ ident ∈ reservedIdents, 'z' ∉ ident.toList := by decide
    exact hall _ (List.mem_map_of_mem (f := (·.ident)) hfixed)
  · obtain ⟨field, hfield, rfl⟩ := List.mem_map.1 hdefined
    obtain ⟨hmem, hstatic⟩ := List.mem_filter.1 hfield
    rw [hfields] at hmem
    obtain ⟨request, -, hanswers⟩ := FieldRegistry.answers_of_mem_defineAll hmem
    rw [ident_staticMember]
    exact hanswers.not_mem_ident hstatic

theorem nodup_idents_fields (assembly : Assembly) : ((ofAssembly assembly).fields.map (·.ident)).Nodup := by
  have hidents : (ofAssembly assembly).fields.map (·.ident) =
      assembly.fields.instanceFields.map (·.ident) := by
    show (assembly.fields.instanceFields.map instanceMember).map _ = _
    rw [List.map_map]
    exact List.map_congr_left fun field _ => ident_instanceMember field
  rw [hidents]
  refine (List.nodup_append.1 assembly.fields.nodup_idents).2.1.sublist ?_
  exact (List.filter_sublist (p := (!·.isStatic)) (l := assembly.fields.fields)).map _

/-- The items of a module are told apart by their names, whatever fields were asked for. -/
theorem distinct_ofAssembly {requests : List FieldRequest}
    (hfields : assembly.fields = FieldRegistry.empty.defineAll requests)
    (hnames : (assembly.accessors.map (·.accessor.name)).Nodup) : (ofAssembly assembly).Distinct where
  values := by
    rw [map_name_holders]
    refine List.nodup_append.2 ⟨nodup_idents_statics assembly,
      nodup_holderNames _ (List.nodup_singleton _) _, ?_⟩
    intro ident hident name hname hsame
    obtain ⟨member, hmember, rfl⟩ := List.mem_map.1 hident
    exact not_mem_ident_statics hfields hmember (hsame ▸ mem_holderNames_z hname)
  types := by
    rw [map_name_holders]
    exact nodup_append_holderNames (List.nodup_singleton _) _
  fields := nodup_idents_fields assembly
  functions := by
    have hfunctions : (ofAssembly assembly).initializers.map (·.accessor ++ "_initializer") =
        (assembly.accessors.map (·.accessor.name)).map (· ++ "_initializer") := by
      rw [List.map_map]
      show (assembly.accessors.map initializerOf).map _ = _
      rw [List.map_map]
      rfl
    rw [hfunctions, List.nodup_cons]
    refine ⟨fun hmem => ?_, hnames.map fun name other => (String.append_left_inj _).1⟩
    obtain ⟨name, -, hnew⟩ := List.mem_map.1 hmem
    have hz : 'z' ∈ (name ++ "_initializer").toList := by
      rw [String.toList_append]
      exact List.mem_append_right _ (by decide)
    rw [hnew] at hz
    exact absurd hz (by decide)
  methods := by
    intro conformance hconformance
    obtain ⟨owner, -, rfl⟩ := List.mem_map.1 hconformance
    show ((conformanceOf assembly (held assembly) owner).methods.map _).Nodup
    rw [names_conformanceOf]
    exact hnames.sublist (List.filter_sublist.map _)

end Implementation

end BundleForge
