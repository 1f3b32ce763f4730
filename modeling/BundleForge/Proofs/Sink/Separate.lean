import BundleForge.Proofs.FileSystem.Names
import BundleForge.Proofs.Identifier
import BundleForge.Proofs.Sink.Register
import BundleForge.Proofs.TypePath
/-!
# Types never share a file

Many types have one file: case, underscores and the anchors of a module are not seen in its path. The file
sink therefore grants a file once. Whatever is claimed and committed in whatever order, types that were
granted have different files, so each file holds what was last committed for the one type it was granted to.
-/

namespace BundleForge

open FileSystem (Grows isNew)
open Identifier

/-- A type whose path is made of letters, digits and underscores, and anchors among its segments. -/
structure Claim.Plain (claim : Claim) : Prop where
  modulePath : ∀ segment ∈ FileSink.moduleSegments claim.modulePath.toList, ∀ c ∈ segment, canContinue c = true
  simpleName : ∀ c ∈ claim.simpleName.toList, canContinue c = true

private theorem split_qualify (module : String) {simple : String} (h : ':' ∉ simple.toList) :
    (⟨TypeName.qualify module simple⟩ : TypeName).modulePath = module ∧
      (⟨TypeName.qualify module simple⟩ : TypeName).simpleName = simple := by
  rw [TypeName.modulePath, TypeName.simpleName, TypeName.qualify]
  by_cases hmodule : module = ""
  · rw [if_pos hmodule, TypePath.cutPath_of_not_mem h]
    exact ⟨hmodule.symm, rfl⟩
  · rw [if_neg hmodule, String.toList_append, String.toList_append, TypePath.cutPath_append h]
    exact ⟨String.ofList_toList, String.ofList_toList⟩

namespace Claim.Plain

variable {first second claim : Claim}

theorem eq_of_qualifiedName (hfirst : first.Plain) (hsecond : second.Plain)
    (h : first.qualifiedName = second.qualifiedName) : first = second := by
  have hcolon : ∀ {claim : Claim}, claim.Plain → ':' ∉ claim.simpleName.toList := fun hplain hmem =>
    absurd (hplain.simpleName _ hmem) (by decide)
  obtain ⟨hmodule, hsimple⟩ := split_qualify first.modulePath (hcolon hfirst)
  obtain ⟨hmodule', hsimple'⟩ := split_qualify second.modulePath (hcolon hsecond)
  have hname : TypeName.qualify first.modulePath first.simpleName =
      TypeName.qualify second.modulePath second.simpleName := h
  rw [hname, hmodule'] at hmodule
  rw [hname, hsimple'] at hsimple
  cases first with
  | mk module simple =>
    cases second with
    | mk module' simple' => exact congr_arg₂ Claim.mk hmodule.symm hsimple.symm

theorem isEntry (hplain : claim.Plain) : ∀ segment ∈ FileSink.targetSegments claim, Path.IsEntry segment := by
  rw [FileSink.targetSegments, List.forall_mem_append, List.forall_mem_singleton]
  constructor
  · intro segment hmem
    obtain ⟨hmem, hanchor⟩ := List.mem_filter.1 hmem
    obtain ⟨chars, hchars, rfl⟩ := List.mem_map.1 hmem
    have hbody : ∀ c ∈ (String.ofList chars).toList, canContinue c = true := by
      rw [String.toList_ofList (l := chars)]
      exact hplain.modulePath chars hchars
    refine ⟨?_, fun hslash => absurd (hbody _ hslash) (by decide)⟩
    have hempty : String.ofList chars ≠ "" := by
      intro heq
      rw [heq] at hanchor
      exact absurd hanchor (by decide)
    have hdots : ∀ other : String, '.' ∈ other.toList → String.ofList chars ≠ other := by
      rintro _ hdot rfl
      exact absurd (hbody _ hdot) (by decide)
    simp only [isNew, Bool.and_eq_true, bne_iff_ne]
    exact ⟨⟨hempty, hdots "." (by decide)⟩, hdots ".." (by decide)⟩
  · have hchars : ∀ c ∈ (toSnakeCase claim.simpleName ++ ".rs").toList, canContinue c = true ∨ c = '.' := by
      rw [String.toList_append, List.forall_mem_append, toSnakeCase,
        String.toList_ofList (l := snake claim.simpleName.toList)]
      refine ⟨fun c hc => .inl ?_, by decide⟩
      exact forall_mem_snake caseClosed_canContinue (by decide) hplain.simpleName c hc
    refine ⟨?_, fun hslash => ?_⟩
    · have hlength : 3 ≤ (toSnakeCase claim.simpleName ++ ".rs").toList.length := by
        rw [String.toList_append, List.length_append]
        exact Nat.le_add_left _ _
      have hne : ∀ other : String, other.toList.length < 3 → toSnakeCase claim.simpleName ++ ".rs" ≠ other := by
        rintro _ hshort rfl
        exact absurd hlength (Nat.not_le.2 hshort)
      simp only [isNew, Bool.and_eq_true, bne_iff_ne]
      exact ⟨⟨hne "" (by decide), hne "." (by decide)⟩, hne ".." (by decide)⟩
    · rcases hchars _ hslash with hbody | hdot
      · exact absurd hbody (by decide)
      · exact absurd hdot (by decide)

end Claim.Plain

namespace FileSink

variable {outDir : Path} {first second : Claim}

/-- The only place that the path of a type can name. -/
def placeOf (outDir : Path) (files : FileSystem) (claim : Claim) : Place :=
  files.destination (pathOf outDir claim)

/-- The sink tells plain types apart exactly by the places of their files. -/
theorem placeOf_eq_iff (hfirst : first.Plain) (hsecond : second.Plain) (files : FileSystem) :
    placeOf outDir files first = placeOf outDir files second ↔
      (pathOf outDir first).components = (pathOf outDir second).components := by
  refine ⟨fun h => ?_, FileSystem.destination_congr⟩
  have hsegments := Path.destination_foldl_join_inj hfirst.isEntry hsecond.isEntry h
  rw [pathOf, target, pathOf, target, hsegments]

/-! ### Histories of a sink -/

inductive Event where
  | claimed (wanted : Claim) (answer : Except ResourceError (Option Claim))
  | committed (claim : Claim) (source : String) (answer : Except ResourceError (Option Path))

def Event.granted? : Event → Option Claim
  | .claimed _ (.ok granted) => granted
  | _ => none

def granted (events : List Event) : List Claim := events.filterMap Event.granted?

def committed? : List Event → Claim → Option String
  | .committed other source (.ok _) :: earlier, claim =>
    if other = claim then some source else committed? earlier claim
  | _ :: earlier, claim => committed? earlier claim
  | [], _ => none

/-- What may happen to a new sink, latest first: plain types are claimed, and sources are committed for types
that were granted. Nothing else happens to the files meanwhile. -/
inductive History (outDir : Path) (start : FileSystem) : List Event → FileSystem → FileSink → Prop
  | new : History outDir start [] start ⟨outDir, .empty⟩
  | claim {events : List Event} {files : FileSystem} {sink : FileSink} {wanted : Claim}
      (earlier : History outDir start events files sink) (plain : wanted.Plain) :
      History outDir start (.claimed wanted (sink.claim wanted).1 :: events) files (sink.claim wanted).2
  | commit {events : List Event} {files : FileSystem} {sink : FileSink}
      (earlier : History outDir start events files sink) (claim : Claim) (owned : claim ∈ granted events)
      (source : String) :
      History outDir start (.committed claim source (sink.commit files claim source).1 :: events)
        (sink.commit files claim source).2 sink

/-- The sink holds the granted types under their files, which are different, and the files hold what was
committed last. -/
private structure Keeps (outDir : Path) (events : List Event) (files : FileSystem) (sink : FileSink) : Prop where
  outDir_eq : sink.outDir = outDir
  plain : ∀ claim ∈ granted events, claim.Plain
  nodup : ((granted events).map (placeOf outDir files)).Nodup
  holder : ∀ components name, sink.created.get? components = some name ↔
    ∃ claim ∈ granted events, (pathOf outDir claim).components = components ∧ claim.qualifiedName = name
  held : ∀ claim source, committed? events claim = some source → claim ∈ granted events ∧
    files.locate (pathOf outDir claim) = .ok (placeOf outDir files claim) ∧
    files.node? (placeOf outDir files claim) = some (.file (Bytes.ofText source))

namespace Keeps

variable {events : List Event} {files later : FileSystem} {sink : FileSink} {wanted : Claim}

private theorem new (start : FileSystem) : Keeps outDir [] start ⟨outDir, .empty⟩ where
  outDir_eq := rfl
  plain _ hmem := absurd hmem List.not_mem_nil
  nodup := List.nodup_nil
  holder components name := by
    rw [OrderedMap.get?_empty]
    exact ⟨fun h => absurd h.symm (Option.some_ne_none name), fun ⟨_, hmem, _⟩ => absurd hmem List.not_mem_nil⟩
  held _ source h := absurd h.symm (Option.some_ne_none source)

private theorem skip (h : Keeps outDir events files sink) {event : Event} (hgranted : event.granted? = none)
    (hcommitted : committed? (event :: events) = committed? events) :
    Keeps outDir (event :: events) files sink := by
  have hsame : granted (event :: events) = granted events := List.filterMap_cons_none hgranted
  constructor
  case outDir_eq => exact h.outDir_eq
  all_goals rw [hsame]
  case plain => exact h.plain
  case nodup => exact h.nodup
  case holder => exact h.holder
  case held =>
    rw [hcommitted]
    exact h.held

private theorem claim (h : Keeps outDir events files sink) (hplain : wanted.Plain) :
    Keeps outDir (.claimed wanted (sink.claim wanted).1 :: events) files (sink.claim wanted).2 := by
  cases hname : sink.created.get? (sink.target wanted).components with
  | some name =>
    by_cases hsame : name = wanted.qualifiedName
    · have hclaim : sink.claim wanted = (.ok none, sink) := by
        simp only [FileSink.claim, hname, if_pos hsame]
      rw [hclaim]
      exact h.skip rfl rfl
    · have hclaim : sink.claim wanted =
          (.error (.clash (sink.target wanted).text name wanted.qualifiedName), sink) := by
        simp only [FileSink.claim, hname, if_neg hsame]
      rw [hclaim]
      exact h.skip rfl rfl
  | none =>
    have hclaim : sink.claim wanted = (.ok (some wanted),
        { sink with created := sink.created.insert (sink.target wanted).components wanted.qualifiedName }) := by
      simp only [FileSink.claim, hname]
    rw [hclaim]
    rw [target_eq, h.outDir_eq] at hname ⊢
    have hgranted : granted (.claimed wanted (.ok (some wanted)) :: events) = wanted :: granted events := rfl
    constructor
    case outDir_eq => rfl
    all_goals rw [hgranted]
    case plain => exact List.forall_mem_cons.2 ⟨hplain, h.plain⟩
    case nodup =>
      refine List.nodup_cons.2 ⟨fun hmem => ?_, h.nodup⟩
      obtain ⟨other, hother, hplace⟩ := List.mem_map.1 hmem
      have htaken := (h.holder _ _).2
        ⟨other, hother, (placeOf_eq_iff (h.plain other hother) hplain files).1 hplace, rfl⟩
      rw [hname] at htaken
      exact absurd htaken.symm (Option.some_ne_none _)
    case holder =>
      intro components name
      rw [OrderedMap.get?_insert, List.exists_mem_cons_iff, ← h.holder]
      split
      · rename_i hown
        rw [hown, hname, Option.some_inj]
        simp
      · rename_i hother
        rw [or_iff_right fun hwanted => hother hwanted.1.symm]
    case held => exact fun claim source hsource => (h.held claim source hsource).imp_left (List.mem_cons_of_mem _)

private theorem placeOf_of_grows {kept : Place → Prop} (hgrows : Grows kept files later) :
    placeOf outDir later = placeOf outDir files :=
  funext fun claim => hgrows.destination (pathOf outDir claim)

private theorem held_of_grows (h : Keeps outDir events files sink) {kept : Place → Prop}
    (hgrows : Grows kept files later) {other : Claim} {source : String}
    (hsource : committed? events other = some source) (hkept : kept (placeOf outDir files other)) :
    other ∈ granted events ∧
      later.locate (pathOf outDir other) = .ok (placeOf outDir later other) ∧
      later.node? (placeOf outDir later other) = some (.file (Bytes.ofText source)) := by
  obtain ⟨hmem, hlocate, hnode⟩ := h.held other source hsource
  rw [placeOf_of_grows hgrows]
  exact ⟨hmem, hgrows.locate hlocate, hgrows.content hkept hnode⟩

private theorem commit (h : Keeps outDir events files sink) {claim : Claim} (howned : claim ∈ granted events)
    (source : String) :
    Keeps outDir (.committed claim source (sink.commit files claim source).1 :: events)
      (sink.commit files claim source).2 sink := by
  rcases hcommit : sink.commit files claim source with ⟨error | path, later⟩
  · have hgrows := grows_of_commit_error hcommit
    refine skip ⟨h.outDir_eq, h.plain, ?_, h.holder, ?_⟩ rfl rfl
    · rw [placeOf_of_grows hgrows]
      exact h.nodup
    · exact fun other text htext => h.held_of_grows hgrows htext trivial
  · obtain ⟨-, name, above, -, hlocate, hnode, hgrows⟩ := written_of_commit hcommit
    rw [target_eq, h.outDir_eq] at hlocate
    have hplace : name :: above = placeOf outDir later claim :=
      FileSystem.eq_destination_of_locate hlocate
    rw [hplace] at hlocate hnode hgrows
    constructor
    case outDir_eq => exact h.outDir_eq
    case plain => exact h.plain
    case nodup =>
      rw [placeOf_of_grows hgrows]
      exact h.nodup
    case holder => exact h.holder
    case held =>
      intro other text htext
      by_cases hsame : claim = other
      · subst hsame
        rw [committed?, if_pos rfl] at htext
        obtain rfl := Option.some.inj htext
        exact ⟨howned, hlocate, hnode⟩
      · rw [committed?, if_neg hsame] at htext
        refine h.held_of_grows hgrows htext fun heq => hsame ?_
        rw [placeOf_of_grows hgrows] at heq
        exact List.inj_on_of_nodup_map h.nodup howned (h.held other text htext).1 heq.symm

end Keeps

private theorem History.keeps {start : FileSystem} {events : List Event} {files : FileSystem} {sink : FileSink}
    (h : History outDir start events files sink) : Keeps outDir events files sink := by
  induction h with
  | new => exact .new start
  | claim earlier plain ih => exact ih.claim plain
  | commit earlier claim owned source ih => exact ih.commit owned source

/-- No two types that were granted have one file. A type that was granted is passed over when it is claimed
again, one whose file belongs to another type is refused in the name of that type, and every other type is
granted; only then the sink changes. A file to which sources were committed holds the last of them. -/
structure Separate (outDir : Path) (events : List Event) (files : FileSystem) (sink : FileSink) : Prop where
  apart : ((granted events).map (placeOf outDir files)).Nodup
  repeated : ∀ holder ∈ granted events, ∀ wanted, wanted.Plain →
    holder.qualifiedName = wanted.qualifiedName → sink.claim wanted = (.ok none, sink)
  clashing : ∀ holder ∈ granted events, ∀ wanted, wanted.Plain →
    holder.qualifiedName ≠ wanted.qualifiedName →
    placeOf outDir files holder = placeOf outDir files wanted →
    sink.claim wanted =
      (.error (.clash (pathOf outDir wanted).text holder.qualifiedName wanted.qualifiedName), sink)
  free : ∀ wanted, wanted.Plain →
    (∀ holder ∈ granted events, placeOf outDir files holder ≠ placeOf outDir files wanted) →
    (sink.claim wanted).1 = .ok (some wanted)
  held : ∀ claim source, committed? events claim = some source → claim ∈ granted events ∧
    files.locate (pathOf outDir claim) = .ok (placeOf outDir files claim) ∧
    files.readText (pathOf outDir claim) = .ok source

theorem separate_of_history {start : FileSystem} {events : List Event} {files : FileSystem} {sink : FileSink}
    (h : History outDir start events files sink) : Separate outDir events files sink := by
  have hkeeps := h.keeps
  have hheld : ∀ holder ∈ granted events, ∀ wanted, wanted.Plain →
      placeOf outDir files holder = placeOf outDir files wanted →
      sink.created.get? (pathOf outDir wanted).components = some holder.qualifiedName := by
    intro holder hholder wanted hplain hplace
    exact (hkeeps.holder _ _).2
      ⟨holder, hholder, (placeOf_eq_iff (hkeeps.plain holder hholder) hplain files).1 hplace, rfl⟩
  constructor
  case apart => exact hkeeps.nodup
  case repeated =>
    intro holder hholder wanted hplain hname
    obtain rfl := (hkeeps.plain holder hholder).eq_of_qualifiedName hplain hname
    have htaken := hheld holder hholder holder hplain rfl
    simp only [claim, target_eq, hkeeps.outDir_eq, htaken, if_pos]
  case clashing =>
    intro holder hholder wanted hplain hname hplace
    have htaken := hheld holder hholder wanted hplain hplace
    simp only [claim, target_eq, hkeeps.outDir_eq, htaken, if_neg hname]
  case free =>
    intro wanted hplain hfree
    cases htaken : sink.created.get? (pathOf outDir wanted).components with
    | none => simp only [claim, target_eq, hkeeps.outDir_eq, htaken]
    | some name =>
      obtain ⟨holder, hholder, hcomponents, -⟩ := (hkeeps.holder _ _).1 htaken
      have hplace := (placeOf_eq_iff (hkeeps.plain holder hholder) hplain files).2 hcomponents
      exact absurd hplace (hfree holder hholder)
  case held =>
    intro claim source hsource
    obtain ⟨hmem, hlocate, hnode⟩ := hkeeps.held claim source hsource
    exact ⟨hmem, hlocate, FileSystem.readText_of_node hlocate hnode⟩

def greetingClaim : Claim := ⟨"crate::menu", "HelloWorld"⟩

def sameFileClaim : Claim := ⟨"menu", "hello_world"⟩

/-- One type is granted and committed twice, and another one is refused in between. -/
theorem separate_of_history_greeting : ∃ events files sink,
    History ⟨"out"⟩ .empty events files sink ∧ granted events = [greetingClaim] ∧
    (sink.claim sameFileClaim).1 =
      .error (.clash "out/menu/hello_world.rs" "crate::menu::HelloWorld" "menu::hello_world") ∧
    committed? events greetingClaim = some "second" ∧ Separate ⟨"out"⟩ events files sink := by
  have hplain : greetingClaim.Plain := ⟨by decide +kernel, by decide +kernel⟩
  have hother : sameFileClaim.Plain := ⟨by decide +kernel, by decide +kernel⟩
  have hnew : History ⟨"out"⟩ .empty [] .empty ⟨⟨"out"⟩, .empty⟩ := .new
  have hgranted := hnew.claim hplain
  have hfirst := hgranted.commit greetingClaim (by decide +kernel) "first"
  have hrefused := hfirst.claim hother
  have hsecond := hrefused.commit greetingClaim (by decide +kernel) "second"
  refine ⟨_, _, _, hsecond, by decide +kernel, by decide +kernel, ?_, separate_of_history hsecond⟩
  decide +kernel

end FileSink

end BundleForge
