import BundleForge.Implementation
import BundleForge.Proofs.List
import BundleForge.Proofs.Text
/-!
# The items of a module

The items for an accessor refer to each other by name: a method names a holder, a holder the
initializer of its accessor, an initializer a slot. Names of holders are free when they are chosen, the
bundles that a type implements do not repeat, and every accessor has its method with one of them. An
item that is picked by a name is therefore the only one.
-/

namespace BundleForge.Implementation

/-! ### Leading comments -/

/-- The comment lines a text begins with, and what follows them. -/
structure LeadingComments (text : List Char) (comments : List (List Char)) (rest : List Char) :
    Prop where
  text_eq : text = comments.flatMap (· ++ ['\n']) ++ rest
  comment : ∀ line ∈ comments, "//".toList <+: line ∧ '\n' ∉ line
  rest : "//".toList <+: rest → '\n' ∉ rest

private theorem prefix_of_prefix_append {before after : List Char}
    (h : "//".toList <+: before ++ '\n' :: after) : "//".toList <+: before := by
  match before with
  | [] => simp [List.cons_prefix_cons] at h
  | [c] => simp [List.cons_prefix_cons] at h
  | c :: d :: rest => simpa [List.cons_prefix_cons] using h

theorem leadingComments_splitComments (text : List Char) :
    LeadingComments text (splitComments text).1 (splitComments text).2 := by
  induction text using splitComments.induct with
  | case1 text hslashes comment rest hcut _ _ _ ih =>
    rw [splitComments, if_pos hslashes]
    split
    · rename_i comment' rest' hcut'
      obtain ⟨rfl, rfl⟩ := Prod.mk.inj (Option.some.inj (hcut.symm.trans hcut'))
      have htext := Text.eq_append_of_cutFirst? hcut
      have hcomment : "//".toList <+: comment :=
        prefix_of_prefix_append (htext ▸ List.isPrefixOf_iff_prefix.1 hslashes)
      refine ⟨?_, ?_, ih.rest⟩
      · show text = (comment ++ ['\n'] ++ (splitComments rest).1.flatMap (· ++ ['\n'])) ++
          (splitComments rest).2
        rw [List.append_assoc, ← ih.text_eq, htext, List.append_assoc, List.singleton_append]
      · intro line hline
        rcases List.mem_cons.1 hline with rfl | hline
        · exact ⟨hcomment, Text.not_mem_of_cutFirst? hcut⟩
        · exact ih.comment line hline
    · rename_i hnone
      rw [hcut] at hnone
      simp at hnone
  | case2 text hslashes hcut =>
    rw [splitComments, if_pos hslashes]
    split
    · rename_i hsome
      rw [hcut] at hsome
      simp at hsome
    · exact ⟨by simp, by simp, fun _ => Text.cutFirst?_eq_none_iff.1 hcut⟩
  | case3 text hslashes =>
    rw [splitComments, if_neg hslashes]
    exact ⟨by simp, by simp, fun h => absurd (List.isPrefixOf_iff_prefix.2 h) hslashes⟩

/-! ### Holders -/

theorem length_holderNames (used accessors : List String) :
    (holderNames used accessors).length = accessors.length := by
  induction accessors generalizing used with
  | nil => rfl
  | cons accessor rest ih =>
    rw [holderNames, List.length_cons, List.length_cons]
    exact congrArg (· + 1) (ih _)

/-- Names in use stay distinct from each other when those of holders are added to them. -/
theorem nodup_append_holderNames {used : List String} (hused : used.Nodup)
    (accessors : List String) : (used ++ holderNames used accessors).Nodup := by
  induction accessors generalizing used with
  | nil => simpa [holderNames] using hused
  | cons accessor rest ih =>
    rw [holderNames, List.append_cons]
    refine ih (List.nodup_append.2 ⟨hused, List.nodup_singleton _, ?_⟩)
    intro name hname other hother hsame
    rw [List.mem_singleton] at hother
    rw [hsame, hother] at hname
    exact Identifier.fresh_not_mem _ _ _ hname

theorem nodup_holderNames (used : List String) (hused : used.Nodup) (accessors : List String) :
    (holderNames used accessors).Nodup :=
  (List.nodup_append.1 (nodup_append_holderNames hused accessors)).2.1

/-! ### Conformances -/

/-- The methods of a module, each with the bundle it is a method of. -/
def methods (implementation : Implementation) : List (String × Method) :=
  implementation.conformances.flatMap fun conformance =>
    conformance.methods.map (conformance.bundle, ·)

theorem nodup_owners (assembly : Assembly) : (owners assembly).Nodup := nodup_eraseDups _

theorem ownerOf_mem_owners {assembly : Assembly} {code : AccessorCode}
    (h : code ∈ assembly.accessors) : ownerOf assembly code ∈ owners assembly := by
  rw [owners, List.mem_eraseDups]
  exact List.mem_append_right _ (List.mem_map_of_mem h)

/-- The accessors of a module with their holders. -/
def held (assembly : Assembly) : List (AccessorCode × String) :=
  assembly.accessors.zip
    (holderNames [assembly.simpleName] (assembly.accessors.map (·.accessor.name)))

def methodOf (entry : AccessorCode × String) : Method :=
  ⟨entry.1.accessor.name, pathInside entry.1.accessor.kind, entry.2⟩

/-- Whatever singles out one accessor with its holder singles out its method, which stands with the
owner of the accessor. -/
theorem filter_methods {assembly : Assembly} {entry : AccessorCode × String}
    {p : Method → Bool} (honly : (held assembly).filter (fun e => p (methodOf e)) = [entry]) :
    (ofAssembly assembly).methods.filter (fun m => p m.2) =
      [(pathInside (ownerOf assembly entry.1), methodOf entry)] := by
  have hentry : entry ∈ held assembly :=
    List.mem_of_mem_filter (honly ▸ List.mem_singleton_self entry)
  have howner : ownerOf assembly entry.1 ∈ owners assembly :=
    ownerOf_mem_owners (List.of_mem_zip hentry).1
  have hof : ∀ owner : TypeName,
      (((conformanceOf assembly (held assembly) owner).methods.map (pathInside owner, ·)).filter
        fun m => p m.2) =
      if ownerOf assembly entry.1 = owner then [(pathInside owner, methodOf entry)] else [] := by
    intro owner
    rw [conformanceOf, List.map_map, List.filter_map]
    show List.map _ (((held assembly).filter fun e => ownerOf assembly e.1 = owner).filter
      fun e => p (methodOf e)) = _
    rw [List.filter_comm, honly, List.filter_singleton, Bool.cond_decide]
    split <;> rfl
  have hmethods : (ofAssembly assembly).methods = (owners assembly).flatMap fun owner =>
      (conformanceOf assembly (held assembly) owner).methods.map (pathInside owner, ·) :=
    List.flatMap_map ..
  rw [hmethods, List.filter_flatMap, flatMap_eq_of_mem (nodup_owners assembly) howner, hof,
    if_pos rfl]
  intro other _ hne
  rw [hof, if_neg hne.symm]

theorem map_fst_held (assembly : Assembly) : (held assembly).map Prod.fst = assembly.accessors := by
  refine List.map_fst_zip (Nat.le_of_eq ?_)
  rw [length_holderNames, List.length_map]

theorem map_snd_held (assembly : Assembly) : (held assembly).map Prod.snd =
    holderNames [assembly.simpleName] (assembly.accessors.map (·.accessor.name)) := by
  refine List.map_snd_zip (Nat.le_of_eq ?_)
  rw [length_holderNames, List.length_map]

theorem names_conformanceOf (assembly : Assembly) (owner : TypeName) :
    (conformanceOf assembly (held assembly) owner).methods.map (·.name) =
      (assembly.accessors.filter (ownerOf assembly · = owner)).map (·.accessor.name) := by
  rw [← map_fst_held assembly, List.filter_map, List.map_map, conformanceOf, List.map_map]
  rfl

theorem owners_eq {assembly : Assembly}
    (hnodup : (assembly.bundle.name :: assembly.supertypes).Nodup)
    (howner : ∀ code ∈ assembly.accessors,
      ownerOf assembly code ∈ assembly.bundle.name :: assembly.supertypes) :
    owners assembly = assembly.bundle.name :: assembly.supertypes := by
  refine eraseDups_append_of_subset hnodup fun owner hmem => ?_
  obtain ⟨code, hcode, rfl⟩ := List.mem_map.1 hmem
  exact howner code hcode

/-- The bundles that a module implements, by the paths in the headers of their blocks. -/
def headers (implementation : Implementation) : List String :=
  implementation.conformances.map (·.bundle) ++ [TypeName.clientBundle.path]

theorem headers_ofAssembly (assembly : Assembly) :
    (ofAssembly assembly).headers =
      (owners assembly).map pathInside ++ [TypeName.clientBundle.path] := by
  show ((owners assembly).map (conformanceOf assembly (held assembly))).map _ ++ _ = _
  rw [List.map_map]
  rfl

end BundleForge.Implementation
