import BundleForge.Proofs.Pass.Oblivious
import BundleForge.Proofs.Run.Complete
import Mathlib.Data.List.Perm.Basic
/-!
# Passes that leave each other alone

All passes of a run share one finder and one sink. When payloads are embedded and the types have different names,
a pass nevertheless comes to what it comes to all by itself: the finder may remember what other passes asked for,
which does not show, and the sink holds their types, which stand under other names. So the order of the passes
does not matter for what is generated, nor for what fails.
-/

namespace BundleForge

namespace MemorySink

variable {sink : MemorySink} {claim : Claim} {source? : Option String} {name : String}

/-- Nobody claimed the name, and no source stands under it. -/
structure Unused (sink : MemorySink) (name : String) : Prop where
  unclaimed : name ∉ sink.claimed
  absent : sink.get? name = none

/-- The sink after it granted a claim and took a source for it, if there was one. -/
def deliver (sink : MemorySink) (claim : Claim) (source? : Option String) : MemorySink :=
  source?.elim (sink.claim claim).2 ((sink.claim claim).2.commit claim)

theorem deliver_of_free (hfree : claim.qualifiedName ∉ sink.claimed) (source? : Option String) :
    sink.deliver claim source? =
      { claimed := sink.claimed ++ [claim.qualifiedName]
        sources := source?.elim sink.sources (sink.sources.insert claim.qualifiedName) } := by
  unfold deliver MemorySink.claim
  rw [if_neg hfree]
  cases source? <;> rfl

theorem get?_deliver_self (hunused : sink.Unused claim.qualifiedName) :
    (sink.deliver claim source?).get? claim.qualifiedName = source? := by
  rw [deliver_of_free hunused.unclaimed]
  cases source? with
  | none => exact hunused.absent
  | some source => exact OrderedMap.get?_insert_self _ _ _

theorem get?_deliver_of_ne (hfree : claim.qualifiedName ∉ sink.claimed)
    (hne : name ≠ claim.qualifiedName) : (sink.deliver claim source?).get? name = sink.get? name := by
  rw [deliver_of_free hfree]
  cases source? with
  | none => rfl
  | some source => exact OrderedMap.get?_insert_of_ne _ _ hne

theorem Unused.deliver (hunused : sink.Unused name) (hfree : claim.qualifiedName ∉ sink.claimed)
    (hne : name ≠ claim.qualifiedName) : (sink.deliver claim source?).Unused name := by
  refine ⟨?_, (get?_deliver_of_ne hfree hne).trans hunused.absent⟩
  rw [deliver_of_free hfree, List.mem_append, List.mem_singleton]
  exact not_or.2 ⟨hunused.unclaimed, hne⟩

end MemorySink

theorem Registry.BuiltIn.oblivious {registry : Registry} (hbuiltIn : registry.BuiltIn)
    (hierarchy : Hierarchy) (bundle : Bundle) :
    ∀ task ∈ (Dispatch.ofBundle registry hierarchy bundle).tasks, task.kind.generator.Oblivious := by
  intro task htask
  have hkind := hbuiltIn.kind_mem task htask
  simp only [GeneratorKind.builtIn, List.mem_cons, List.not_mem_nil, or_false] at hkind
  obtain hkind | hkind | hkind | hkind := hkind <;> rw [hkind]
  · exact Generator.oblivious_text
  · exact Generator.oblivious_data
  · exact Generator.oblivious_image
  · exact Generator.oblivious_nested

namespace Pass

variable {plan other : Plan} {bundle : Bundle} {locale : Option String}
  {world world' : World MemorySink} {files : FileSystem} {search : SearchPath}

/-- A pass that was granted its type in a world comes to a result, and hands over a source or none. -/
structure Delivers (world : World MemorySink) (claim : Claim) (result : PassResult)
    (source? : Option String) (pass : Pass MemorySink) : Prop where
  result : pass.result = result
  sink : pass.world.sink = world.sink.deliver claim source?

/-- Passes for the same type come to the same in worlds that differ in what was asked and generated before. -/
theorem exists_delivers (hreorders : plan.Reorders other) (hbuiltIn : plan.registry.BuiltIn)
    (hinline : plan.deployment = .inline)
    (hsame : Session.Same files search (opening world) (opening world'))
    (hfree : (wanted bundle locale).qualifiedName ∉ world.sink.claimed)
    (hfree' : (wanted bundle locale).qualifiedName ∉ world'.sink.claimed) :
    ∃ result source?,
      Delivers world (wanted bundle locale) result source? (run plan bundle locale world) ∧
      Delivers world' (wanted bundle locale) result source? (run other bundle locale world') ∧
      Session.Same files search (opening (run plan bundle locale world).world)
        (opening (run other bundle locale world').world) := by
  have hdispatch : Dispatch.ofBundle other.registry other.hierarchy bundle =
      Dispatch.ofBundle plan.registry plan.hierarchy bundle := by
    rw [← hreorders.registry, hreorders.agrees.ofBundle]
  obtain ⟨next, next', outcome, journal, hwork, hwork', hnext⟩ :=
    exists_work hreorders hinline locale (hbuiltIn.oblivious plan.hierarchy bundle) hsame
  have hopening : (⟨world.files, world.finder, .empty, none⟩ : Session) = opening world := rfl
  have hopening' : (⟨world'.files, world'.finder, .empty, none⟩ : Session) = opening world' := rfl
  have hwanted : (⟨bundle.name.modulePath, bundle.implementation locale⟩ : Claim) =
      wanted bundle locale := rfl
  unfold run
  rw [hdispatch]
  simp only [Sink.claim, MemorySink.claim, hwanted, if_neg hfree, if_neg hfree', hopening, hopening']
  split
  · exact ⟨_, none, ⟨rfl, (MemorySink.deliver_of_free hfree none).symm⟩, ⟨rfl, (MemorySink.deliver_of_free hfree' none).symm⟩,
      hsame⟩
  · have hleft : Session.Same files search ⟨next.files, next.finder, .empty, none⟩
        ⟨next'.files, next'.finder, .empty, none⟩ :=
      ⟨⟨hnext.left.1, hnext.left.2, hnext.left.3⟩, ⟨hnext.right.1, hnext.right.2, hnext.right.3⟩, rfl, rfl⟩
    rw [hwork, hwork']
    cases outcome with
    | error diagnostics =>
      exact ⟨_, none, ⟨rfl, (MemorySink.deliver_of_free hfree none).symm⟩,
        ⟨rfl, (MemorySink.deliver_of_free hfree' none).symm⟩, hleft⟩
    | ok source =>
      exact ⟨_, some source, ⟨rfl, (MemorySink.deliver_of_free hfree (some source)).symm⟩,
        ⟨rfl, (MemorySink.deliver_of_free hfree' (some source)).symm⟩, hleft⟩

end Pass

namespace PassResult

def failure? : PassResult → Option FailedPass
  | failed pass => some pass
  | generated _ | skipped => none

end PassResult

namespace Run

open Pass

variable {plan other : Plan} {world : World MemorySink} {files : FileSystem} {search : SearchPath}
  {passes : List (Bundle × Option String)} {configured configured' : List String}

/-- A world in which nothing was asked and nothing was generated. -/
def untouched (files : FileSystem) (search : SearchPath) : World MemorySink :=
  ⟨files, ⟨search, .empty⟩, {}⟩

/-- A pass all by itself. -/
def alone (plan : Plan) (files : FileSystem) (search : SearchPath) (pass : Bundle × Option String) :
    Pass MemorySink :=
  Pass.run plan pass.1 pass.2 (untouched files search)

theorem over_untouched (files : FileSystem) (search : SearchPath) :
    Session.Over files search (opening (untouched files search)) :=
  ⟨rfl, rfl, Finder.coherent_of_known_empty files rfl⟩

theorem unused_untouched (files : FileSystem) (search : SearchPath) (name : String) : (untouched files search).sink.Unused name :=
  ⟨List.not_mem_nil, rfl⟩

/-- A pass for a name that nobody used comes to what it comes to all by itself. -/
theorem pass_eq_alone (hbuiltIn : plan.registry.BuiltIn) (hinline : plan.deployment = .inline)
    (hover : Session.Over files search (opening world)) {pass : Bundle × Option String}
    (hfree : (wanted pass.1 pass.2).qualifiedName ∉ world.sink.claimed) :
    (Pass.run plan pass.1 pass.2 world).result = (alone plan files search pass).result ∧
      (Pass.run plan pass.1 pass.2 world).world.sink =
        world.sink.deliver (wanted pass.1 pass.2)
          ((alone plan files search pass).world.sink.get? (wanted pass.1 pass.2).qualifiedName) ∧
      Session.Over files search (opening (Pass.run plan pass.1 pass.2 world).world) := by
  have hunused := unused_untouched files search
    (wanted pass.1 pass.2).qualifiedName
  obtain ⟨result, source?, hdelivers, halone, hsame⟩ := exists_delivers (.refl plan) hbuiltIn hinline
    ⟨hover, over_untouched files search, rfl, rfl⟩ hfree hunused.unclaimed
  refine ⟨hdelivers.result.trans halone.result.symm, ?_, hsame.left⟩
  rw [hdelivers.sink, alone, halone.sink, MemorySink.get?_deliver_self hunused]

/-- What a run comes to, pass by pass. -/
structure Separate (plan : Plan) (files : FileSystem) (search : SearchPath) (world : World MemorySink)
    (passes : List (Bundle × Option String)) : Prop where
  results : (turns plan world passes).map (fun turn => (turn.pass plan).result) =
    passes.map fun pass => (alone plan files search pass).result
  sources : ∀ pass ∈ passes, (after plan world passes).sink.get? (wanted pass.1 pass.2).qualifiedName =
    (alone plan files search pass).world.sink.get? (wanted pass.1 pass.2).qualifiedName
  others : ∀ name, name ∉ keys MemorySink.register passes →
    (after plan world passes).sink.get? name = world.sink.get? name

theorem separate (hbuiltIn : plan.registry.BuiltIn) (hinline : plan.deployment = .inline)
    (hover : Session.Over files search (opening world))
    (hnames : (keys MemorySink.register passes).Nodup)
    (hunused : ∀ name ∈ keys MemorySink.register passes, world.sink.Unused name) :
    Separate plan files search world passes := by
  induction passes generalizing world with
  | nil => exact ⟨rfl, fun _ hpass => absurd hpass List.not_mem_nil, fun _ _ => rfl⟩
  | cons pass rest ih =>
    obtain ⟨hnew, hrest⟩ := List.nodup_cons.1 hnames
    obtain ⟨hfirst, hothers⟩ := List.forall_mem_cons.1 hunused
    obtain ⟨hresult, hsink, hnext⟩ := pass_eq_alone hbuiltIn hinline hover hfirst.unclaimed
    have hstill : ∀ name ∈ keys MemorySink.register rest,
        (Pass.run plan pass.1 pass.2 world).world.sink.Unused name := by
      intro name hname
      rw [hsink]
      exact (hothers name hname).deliver hfirst.unclaimed (ne_of_mem_of_not_mem hname hnew)
    obtain ⟨hresults, hsources, hkept⟩ := ih hnext hrest hstill
    refine ⟨congrArg₂ List.cons hresult hresults, List.forall_mem_cons.2 ⟨?_, hsources⟩, ?_⟩
    · have hself := hkept _ hnew
      rw [hsink] at hself
      exact hself.trans (MemorySink.get?_deliver_self hfirst)
    · intro name hname
      obtain ⟨hne, hother⟩ := not_or.1 (mt List.mem_cons.2 hname)
      refine (hkept name hother).trans ?_
      rw [hsink]
      exact MemorySink.get?_deliver_of_ne hfirst.unclaimed hne

theorem failures_eq (plan : Plan) (world : World MemorySink) (report : Report)
    (passes : List (Bundle × Option String)) :
    (each plan world report passes).1.failures =
      report.failures ++
        ((turns plan world passes).map fun turn => (turn.pass plan).result).filterMap
          PassResult.failure? := by
  induction passes generalizing world report with
  | nil => exact (List.append_nil _).symm
  | cons pass rest ih =>
    rw [each, ih, turns, List.map_cons, List.filterMap_cons, Turn.pass]
    cases (Pass.run plan pass.1 pass.2 world).result with
    | failed failed => exact List.append_assoc _ _ _
    | generated type => rfl
    | skipped => rfl

theorem perm_passes (hreorders : plan.Reorders other) (hconfigured : configured.Perm configured') :
    (Run.passes plan.bundles configured).Perm (Run.passes other.bundles configured') := by
  have hvalues : plan.bundles.values.Perm other.bundles.values := hreorders.bundles.map _
  have hlocales : (locales configured).Perm (locales configured') := (hconfigured.map _).cons none
  exact hvalues.flatMap fun _ _ => hlocales.map _

theorem alone_of_reorders (hreorders : plan.Reorders other) (hbuiltIn : plan.registry.BuiltIn)
    (hinline : plan.deployment = .inline) (files : FileSystem) (search : SearchPath)
    (pass : Bundle × Option String) :
    (alone plan files search pass).result = (alone other files search pass).result ∧
      (alone plan files search pass).world.sink = (alone other files search pass).world.sink := by
  have hunused := unused_untouched files search
    (wanted pass.1 pass.2).qualifiedName
  obtain ⟨result, source?, hdelivers, hdelivers', -⟩ := exists_delivers hreorders hbuiltIn hinline
    (over_untouched files search).same hunused.unclaimed hunused.unclaimed
  exact ⟨hdelivers.result.trans hdelivers'.result.symm, hdelivers.sink.trans hdelivers'.sink.symm⟩

/-- Where payloads are embedded and the types have different names, each pass comes to what it comes to all by
itself, and neither what is generated nor what fails depends on the order of the bundles and the locales. -/
theorem independent_of_nodup (hreorders : plan.Reorders other)
    (hconfigured : configured.Perm configured') (hbuiltIn : plan.registry.BuiltIn)
    (hinline : plan.deployment = .inline) (hcoherent : world.finder.Coherent world.files)
    (hnames : (keys MemorySink.register (Run.passes plan.bundles configured)).Nodup)
    (hunused : ∀ name ∈ keys MemorySink.register (Run.passes plan.bundles configured),
      world.sink.Unused name) :
    (∀ name, (all plan configured world).2.sink.get? name =
      (all other configured' world).2.sink.get? name) ∧
    (all plan configured world).1.failures.Perm (all other configured' world).1.failures ∧
    (turns plan world (Run.passes plan.bundles configured)).map (fun turn => (turn.pass plan).result) =
      (Run.passes plan.bundles configured).map
        (fun pass => (alone plan world.files world.finder.search pass).result) ∧
    ∀ pass ∈ Run.passes plan.bundles configured,
      (all plan configured world).2.sink.get? (wanted pass.1 pass.2).qualifiedName =
        (alone plan world.files world.finder.search pass).world.sink.get?
          (wanted pass.1 pass.2).qualifiedName := by
  have hover : Session.Over world.files world.finder.search (opening world) := ⟨rfl, rfl, hcoherent⟩
  have hperm := perm_passes hreorders hconfigured
  have hkeys := hperm.map fun pass => MemorySink.register.key (wanted pass.1 pass.2)
  have hleft := separate hbuiltIn hinline hover hnames hunused
  have hright : Separate other world.files world.finder.search world
      (Run.passes other.bundles configured') :=
    separate (hreorders.registry ▸ hbuiltIn) (hreorders.deployment ▸ hinline) hover
      (hkeys.nodup_iff.1 hnames) fun name hname => hunused name (hkeys.mem_iff.2 hname)
  refine ⟨fun name => ?_, ?_, hleft.results, fun pass hpass => ?_⟩
  · rw [all, all, world_each, world_each]
    by_cases hname : name ∈ keys MemorySink.register (Run.passes plan.bundles configured)
    · obtain ⟨pass, hpass, rfl⟩ := List.mem_map.1 hname
      have halone := (alone_of_reorders hreorders hbuiltIn hinline world.files world.finder.search pass).2
      refine (hleft.sources pass hpass).trans (Eq.trans ?_ (hright.sources pass (hperm.mem_iff.1 hpass)).symm)
      rw [halone]
    · have hname' : name ∉ keys MemorySink.register (Run.passes other.bundles configured') :=
        fun hmem => hname (hkeys.mem_iff.2 hmem)
      rw [hleft.others name hname, hright.others name hname']
  · rw [all, all, failures_eq, failures_eq, hleft.results, hright.results]
    have hresults : (fun pass => (alone plan world.files world.finder.search pass).result) =
        fun pass => (alone other world.files world.finder.search pass).result := by
      funext pass
      exact (alone_of_reorders hreorders hbuiltIn hinline _ _ pass).1
    rw [hresults]
    exact (hperm.map _).filterMap _
  · rw [all, world_each]
    exact hleft.sources pass hpass

/-- A bundle with a text that is there in one language more. -/
def labels : Bundle where
  name := ⟨"crate::Labels"⟩
  accessors := [{ name := "motto", kind := .textResource, source := some ["motto.txt"] }]

/-- A bundle with the same text and another one that is nowhere. -/
def notices : Bundle where
  name := ⟨"crate::Notices"⟩
  accessors :=
    [{ name := "motto", kind := .textResource, source := some ["motto.txt"] },
     { name := "alert", kind := .textResource, source := some ["alert.txt"] }]

def labelsPlan : Plan where
  hierarchy := .builtin
  bundles := (OrderedMap.empty.insert labels.name labels).insert notices.name notices

def noticesPlan : Plan where
  hierarchy := .builtin
  bundles := (OrderedMap.empty.insert notices.name notices).insert labels.name labels

def mottoWorld : World MemorySink where
  files := .empty
  finder := (({} : Finder).embed "motto.txt" [104, 105]).embed "motto_de.txt" [106, 97]
  sink := {}

/-- Three types are generated and three passes fail, in whatever order they are made. -/
theorem independent_labels :
    ((all labelsPlan ["de", "fr"] mottoWorld).1.generated.length = 3 ∧
      (all labelsPlan ["de", "fr"] mottoWorld).1.failures.length = 3) ∧
    (∀ name, (all labelsPlan ["de", "fr"] mottoWorld).2.sink.get? name =
      (all noticesPlan ["fr", "de"] mottoWorld).2.sink.get? name) ∧
    (all labelsPlan ["de", "fr"] mottoWorld).1.failures.Perm
      (all noticesPlan ["fr", "de"] mottoWorld).1.failures := by
  have hreorders : labelsPlan.Reorders noticesPlan :=
    { types := .refl _, bundles := .swap _ _ _, registry := rfl, deployment := rfl,
      stripComments := rfl }
  obtain ⟨hsources, hfailures, -⟩ := independent_of_nodup hreorders (.swap "fr" "de" [])
    Registry.builtIn_standard rfl (Finder.coherent_of_known_empty mottoWorld.files rfl)
    (by decide +kernel) fun _ _ => ⟨List.not_mem_nil, rfl⟩
  exact ⟨by decide +kernel, hsources, hfailures⟩

end Run

end BundleForge
