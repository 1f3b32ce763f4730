import BundleForge.Proofs.Implementation.Texts
import BundleForge.Proofs.Pass.Memories
import BundleForge.Proofs.Pass.Wiring
/-!
# Texts through a pass

The text generator reads the resource of an accessor while the accessor is prepared, remembers its text
by the name of the accessor, and writes it out when it is asked for the expression. Between the two
other accessors are prepared and other generators work; none of that reaches the entry of an accessor
whose name no other accessor has. The committed source therefore spells the text that was read.
-/

namespace BundleForge.Pass

open Generator (PreparedText)
open Implementation (textCall)

variable {context : Context} {id : GeneratorId} {served : List Accessor}

/-! ### Preparing texts -/

/-- The resource of an accessor, with its text. -/
structure Legible (context : Context) (handling : Handling) (resource : Resource) (text : String) : Prop where
  found : handling.Found context resource
  decoded : resource.bytes.text? = some text

theorem legible_of_prepared {accessor : Accessor} {session : Session} {memory : OrderedMap String PreparedText}
    (h : Handling.result context ⟨⟨⟨id, .text⟩, memory, served⟩, accessor, session⟩ = .ok ()) :
    ∃ resource text, Legible context ⟨⟨⟨id, .text⟩, memory, served⟩, accessor, session⟩ resource text ∧
      (Generator.text.prepare accessor (accessor.effectiveLocale context.locale) context session memory).2.2 =
        memory.insert accessor.name ⟨resource.origin, text⟩ := by
  unfold Handling.result at h
  dsimp only at h
  rcases hresolve : session.resolve context accessor (accessor.effectiveLocale context.locale) with
    ⟨result, next⟩
  cases result with
  | error error => simp [Generator.text, hresolve] at h
  | ok resource =>
    cases htext : resource.bytes.text? with
    | none => simp [Generator.text, hresolve, htext] at h
    | some text =>
      refine ⟨resource, text, ⟨congrArg Prod.fst hresolve, htext⟩, ?_⟩
      simp only [Generator.text, hresolve, htext]

theorem get?_prepare_text {other : Accessor} {name : String} (hne : other.name ≠ name) (locale : Option String)
    (context : Context) (session : Session) (memory : OrderedMap String PreparedText) :
    (Generator.text.prepare other locale context session memory).2.2.get? name = memory.get? name := by
  rcases hresolve : session.resolve context other locale with ⟨result, next⟩
  cases result with
  | error error => simp only [Generator.text, hresolve]
  | ok resource =>
    cases htext : resource.bytes.text? with
    | none => simp only [Generator.text, hresolve, htext]
    | some text =>
      simp only [Generator.text, hresolve, htext]
      exact OrderedMap.get?_insert_of_ne _ _ hne.symm

/-! ### Answering for texts -/

def sayText (context : Context) (memory : OrderedMap String PreparedText) (accessor : Accessor)
    (_ : Option String) : Except ResourceError String :=
  match memory.get? accessor.name with
  | none => .error (Generator.notPrepared accessor)
  | some prepared => .ok (context.originComment prepared.origin ++ textCall accessor.name prepared.text)

theorem recites_text : Recites Generator.text sayText := by
  intro accessor locale context session (memory : OrderedMap String PreparedText)
  unfold sayText
  cases hget : memory.get? accessor.name with
  | none => simp only [Generator.text, hget]
  | some prepared => simp only [Generator.text, hget, Implementation.append_textCall]

/-! ### Committed texts -/

variable {plan : Plan} {bundle : Bundle} {locale : Option String} {σ : Type} {world : World σ}
  {accessor : Accessor}

theorem exists_textAnswer
    (honly : bundle.accessors.filter (·.name = accessor.name) = [accessor])
    (htask : ⟨⟨id, .text⟩, served⟩ ∈ tasksOf plan bundle) (hserved : accessor ∈ served)
    {source : String} (hwork : (worked plan bundle locale world).result = .ok source) :
    ∃ handling ∈ handlingAll (plan.context bundle locale) (opening world) (tasksOf plan bundle),
      handling.accessor = accessor ∧ handling.running.kind = ⟨id, .text⟩ ∧ ∃ resource text,
        Legible (plan.context bundle locale) handling resource text ∧
        ⟨⟨id, .text⟩, accessor, .ok ((plan.context bundle locale).originComment resource.origin ++
          textCall accessor.name text)⟩ ∈ answersOf plan bundle locale (opening world) (tasksOf plan bundle) := by
  let context := plan.context bundle locale
  obtain ⟨before, -, hstart⟩ := exists_start context (opening world) htask
  obtain ⟨hrunning, hhandlings, hjournal, -⟩ := hstart rfl
  obtain ⟨session, memory, last, hlast, hprepares⟩ := exists_prepares context served
    (filter_served honly htask hserved) (starting context ⟨id, .text⟩ before).2.1
    (starting context ⟨id, .text⟩ before).2.2
  obtain ⟨_, hprepared⟩ :=
    error?_eq_none_iff.1 ((work_ok hwork).1 _ (hjournal hprepares.called))
  obtain ⟨resource, text, hlegible, hmemory⟩ := legible_of_prepared hprepared
  have hget : OrderedMap.get? (ν := PreparedText) last accessor.name = some ⟨resource.origin, text⟩ := by
    apply hprepares.keeps fun memory : OrderedMap String PreparedText =>
      memory.get? accessor.name = some ⟨resource.origin, text⟩
    · intro other session' memory' _ hname hmem
      exact (get?_prepare_text hname _ _ _ _).trans hmem
    · exact (congrArg (OrderedMap.get? · accessor.name) hmemory).trans (OrderedMap.get?_insert_self _ _ _)
  rw [hlast] at hrunning
  have hanswer := recited_mem_answersOf (fun _ _ _ _ => rfl) recites_text hserved hrunning
  have hsaid : recited context sayText last accessor = ⟨⟨id, .text⟩, accessor,
      .ok (context.originComment resource.origin ++ textCall accessor.name text)⟩ := by
    unfold recited sayText
    rw [hget]
  exact ⟨_, hhandlings hprepares.handled, rfl, rfl, resource, text, hlegible, hsaid ▸ hanswer⟩

variable [Sink σ]

/-- A successful pass commits a module that shows, for each accessor of the text generator, the text of
the resource that was found when the accessor was prepared. -/
theorem showsText_of_generated {type : GeneratedType}
    (honly : bundle.accessors.filter (·.name = accessor.name) = [accessor])
    (htask : ⟨⟨id, .text⟩, served⟩ ∈ tasksOf plan bundle) (hserved : accessor ∈ served)
    (hrun : (run plan bundle locale world).result = .generated type) :
    ∃ implementation, Commits plan bundle locale world (Implementation.source implementation) ∧
      ∃ handling ∈ handlingAll (plan.context bundle locale) (opening world) (tasksOf plan bundle),
        handling.accessor = accessor ∧ handling.running.kind = ⟨id, .text⟩ ∧ ∃ resource text,
          Legible (plan.context bundle locale) handling resource text ∧
          implementation.ShowsText accessor.name text := by
  obtain ⟨hrefused, source, hwork, -⟩ := run_generated hrun
  obtain ⟨handling, hhandling, haccessor, hkind, resource, text, hlegible, hanswer⟩ :=
    exists_textAnswer honly htask hserved hwork
  obtain ⟨answer, hfilter, -, -, -⟩ :=
    filter_answersOf locale (opening world) hrefused honly
  have hmem : ⟨⟨id, .text⟩, accessor, .ok ((plan.context bundle locale).originComment resource.origin ++
      textCall accessor.name text)⟩ ∈ (answersOf plan bundle locale (opening world)
        (tasksOf plan bundle)).filter (·.accessor.name = accessor.name) :=
    List.mem_filter.2 ⟨hanswer, decide_eq_true rfl⟩
  rw [hfilter, List.mem_singleton] at hmem
  rw [← hmem] at hfilter
  obtain ⟨slot, hpair⟩ := exists_filter_zip (length_defineSlots
    (defined plan bundle locale (opening world) (tasksOf plan bundle)).2.1 bundle.accessors) honly
  let parts := assembly plan bundle locale (opening world) (tasksOf plan bundle)
  let code : AccessorCode :=
    ⟨accessor, slot, (plan.context bundle locale).originComment resource.origin ++
      textCall accessor.name text, Generator.text.producesPrototype⟩
  have hcode : parts.accessors.filter (·.accessor.name = code.accessor.name) = [code] :=
    filter_joinCode hpair (get?_foldl_take hfilter rfl .empty)
  exact ⟨Implementation.ofAssembly parts, commits_assembly hrun, handling, hhandling, haccessor, hkind,
    resource, text, hlegible, Implementation.showsText_of_code hcode rfl⟩

def pageGreeting : Accessor :=
  { name := "greeting", kind := .textResource, source := some ["greeting.txt"] }

theorem showsText_page :
    ∃ implementation, Commits pagePlan page none pageWorld (Implementation.source implementation) ∧
      ∃ handling ∈ handlingAll (pagePlan.context page none) (opening pageWorld) (tasksOf pagePlan page),
        handling.accessor = pageGreeting ∧ handling.running.kind = ⟨⟨"text"⟩, .text⟩ ∧ ∃ resource text,
          Legible (pagePlan.context page none) handling resource text ∧
          implementation.ShowsText "greeting" text := by
  have htask : ⟨⟨⟨"text"⟩, .text⟩, page.accessors.filter (·.kind = .textResource)⟩ ∈
      tasksOf pagePlan page := List.mem_cons_self
  have hrun : (run pagePlan page none pageWorld).result =
      .generated ⟨⟨"crate::Page"⟩, none, "crate::PageImpl", none⟩ := by decide +kernel
  exact showsText_of_generated (by decide +kernel) htask (by decide +kernel) hrun

end BundleForge.Pass
