import BundleForge.Proofs.Implementation.Items
import Mathlib.Data.List.Zip
/-!
# How an accessor is wired

`Wires` lists what a module has for one accessor: its method with the owner, the holder the method gets
its value from, the initializer the holder calls, and the slot the initializer fills. Each of them is
found by the name under which the one before refers to it, and nothing else in the module has that name.
A module has all of this for every accessor it is assembled for, as soon as accessors have different
names and a slot each among the fields.
-/

namespace BundleForge.Implementation

def slotField (accessor : Accessor) (slot : String) : Field :=
  ⟨slot, slotType accessor.kind, none, true, true⟩

structure Wires (implementation : Implementation) (accessor : Accessor) (owner : TypeName)
    (holder slot expression : String) : Prop where
  method : implementation.methods.filter (·.2.name = accessor.name) =
    [(pathInside owner, ⟨accessor.name, pathInside accessor.kind, holder⟩)]
  caller : implementation.methods.filter (·.2.holder = holder) =
    [(pathInside owner, ⟨accessor.name, pathInside accessor.kind, holder⟩)]
  holder : implementation.holders.filter (·.name = holder) =
    [⟨holder, pathInside accessor.kind, accessor.name⟩]
  initializer : ∃ comments rest, LeadingComments expression.toList comments rest ∧
    implementation.initializers.filter (·.accessor = accessor.name) =
      [⟨accessor.name, pathInside accessor.kind, slot, slotType accessor.kind,
        comments.map String.ofList, String.ofList rest⟩] ∧
    implementation.initializers.filter (·.slot = slot) =
      [⟨accessor.name, pathInside accessor.kind, slot, slotType accessor.kind,
        comments.map String.ofList, String.ofList rest⟩]
  static : implementation.statics.filter (·.ident = slot) =
    [⟨slot, cell (slotType accessor.kind), emptyCell⟩]
  not_field : slot ∉ implementation.fields.map (·.ident)

variable {assembly : Assembly}

def holderFor (entry : AccessorCode × String) : Holder :=
  ⟨entry.2, pathInside entry.1.accessor.kind, entry.1.accessor.name⟩

theorem ident_staticMember (field : Field) : (staticMember field).ident = field.ident := by
  unfold staticMember
  split <;> rfl

theorem ident_instanceMember (field : Field) : (instanceMember field).ident = field.ident := by
  unfold instanceMember
  split <;> rfl

theorem nodup_idents_statics (assembly : Assembly) :
    ((ofAssembly assembly).statics.map (·.ident)).Nodup := by
  have hidents : (ofAssembly assembly).statics.map (·.ident) =
      reservedIdents ++ assembly.fields.statics.map (·.ident) := by
    show (fixedStatics assembly.simpleName ++ assembly.fields.statics.map staticMember).map _ = _
    rw [List.map_append, List.map_map]
    exact congrArg₂ _ rfl (List.map_congr_left fun field _ => ident_staticMember field)
  rw [hidents]
  refine assembly.fields.nodup_idents.sublist (List.Sublist.append_left ?_ _)
  exact (List.filter_sublist (p := (·.isStatic)) (l := assembly.fields.fields)).map _

/-- A static field is found among the statics by its identifier, and not among the fields. -/
theorem filter_statics {field : Field} (hmem : field ∈ assembly.fields.fields)
    (hstatic : field.isStatic = true) :
    (ofAssembly assembly).statics.filter (·.ident = field.ident) = [staticMember field] := by
  rw [← ident_staticMember]
  refine filter_eq_singleton (nodup_idents_statics assembly) (List.mem_append_right _ ?_)
  exact List.mem_map_of_mem (List.mem_filter.2 ⟨hmem, hstatic⟩)

theorem ident_not_mem_fields {field : Field} (hmem : field ∈ assembly.fields.fields)
    (hstatic : field.isStatic = true) :
    field.ident ∉ (ofAssembly assembly).fields.map (·.ident) := by
  intro hident
  obtain ⟨member, hmember, hsame⟩ := List.mem_map.1 hident
  obtain ⟨other, hother, rfl⟩ := List.mem_map.1 hmember
  rw [ident_instanceMember] at hsame
  obtain ⟨hother, hinstance⟩ := List.mem_filter.1 hother
  have hnodup := (List.nodup_append.1 assembly.fields.nodup_idents).2.1
  obtain rfl := List.inj_on_of_nodup_map hnodup hother hmem hsame
  simp [hstatic] at hinstance

theorem initializerOf_eq (code : AccessorCode) :
    initializerOf code =
      ⟨code.accessor.name, pathInside code.accessor.kind, code.slot, slotType code.accessor.kind,
        (splitComments code.initializer.toList).1.map String.ofList,
        String.ofList (splitComments code.initializer.toList).2⟩ := rfl

theorem nodup_names_held (hnames : (assembly.accessors.map (·.accessor.name)).Nodup) :
    ((held assembly).map (·.1.accessor.name)).Nodup := by
  rwa [← map_fst_held assembly, List.map_map] at hnames

theorem nodup_holders_held (assembly : Assembly) : ((held assembly).map Prod.snd).Nodup := by
  rw [map_snd_held]
  exact nodup_holderNames _ (List.nodup_singleton _) _

theorem wires_of_mem_held (hnames : (assembly.accessors.map (·.accessor.name)).Nodup)
    (hslots : (assembly.accessors.map (·.slot)).Nodup) {code : AccessorCode} {holder : String}
    (hentry : (code, holder) ∈ held assembly)
    (hslot : slotField code.accessor code.slot ∈ assembly.fields.fields) :
    (ofAssembly assembly).Wires code.accessor (ownerOf assembly code) holder code.slot code.initializer where
  method := by
    refine @filter_methods _ (code, holder) (fun method => method.name = code.accessor.name) ?_
    exact filter_eq_singleton (nodup_names_held hnames) hentry
  caller := by
    refine @filter_methods _ (code, holder) (fun method => method.holder = holder) ?_
    exact filter_eq_singleton (nodup_holders_held assembly) hentry
  holder := filter_map_eq_singleton holderFor (·.name) (fun _ => rfl) (nodup_holders_held assembly) hentry
  initializer := by
    have hcode : code ∈ assembly.accessors := (List.of_mem_zip hentry).1
    refine ⟨_, _, leadingComments_splitComments code.initializer.toList, ?_, ?_⟩
    · rw [← initializerOf_eq]
      exact filter_map_eq_singleton initializerOf (·.accessor) (fun _ => rfl) hnames hcode
    · rw [← initializerOf_eq]
      exact filter_map_eq_singleton initializerOf (·.slot) (fun _ => rfl) hslots hcode
  static := filter_statics hslot rfl
  not_field := ident_not_mem_fields hslot rfl

/-- Every accessor of a module is wired, through holders that do not repeat. -/
theorem exists_wires (hnames : (assembly.accessors.map (·.accessor.name)).Nodup)
    (hslots : (assembly.accessors.map (·.slot)).Nodup)
    (hfields : ∀ code ∈ assembly.accessors,
      slotField code.accessor code.slot ∈ assembly.fields.fields) :
    ∃ holder : AccessorCode → String,
      (assembly.accessors.map holder).Nodup ∧
      (ofAssembly assembly).listed =
        (assembly.accessors.filter (·.isPrototype)).map (fun code =>
          ⟨code.accessor.name, holder code⟩) ∧
      ∀ code ∈ assembly.accessors,
        (ofAssembly assembly).Wires code.accessor (ownerOf assembly code) (holder code) code.slot
          code.initializer := by
  have hlength : (holderNames [assembly.simpleName]
      (assembly.accessors.map (·.accessor.name))).length = assembly.accessors.length := by
    rw [length_holderNames, List.length_map]
  obtain ⟨holder, hholder⟩ := exists_map_eq hnames.of_map hlength
  have hheld : held assembly = assembly.accessors.map fun code => (code, holder code) := by
    rw [held, hholder, List.map_prod_left_eq_zip]
  refine ⟨holder, ?_, ?_, fun code hcode => ?_⟩
  · rw [← hholder, ← map_snd_held]
    exact nodup_holders_held assembly
  · show ((held assembly).filter fun entry => entry.1.isPrototype).map _ = _
    rw [hheld, List.filter_map, List.map_map]
    rfl
  · refine wires_of_mem_held hnames hslots ?_ (hfields code hcode)
    rw [hheld]
    exact List.mem_map_of_mem hcode

end BundleForge.Implementation
