import BundleForge.Proofs.Pass.Verdicts
/-!
# Failures of single accessors

The accessors of a pass share their generators, and image accessors share a table of what was deployed, which is
kept by origin. As long as embedded images of the same origin are alike small enough, each accessor fails in the pass
as it would fail in a pass of its own: a pass that fails while it prepares reports what the passes over its single
accessors report, whichever other accessors there are and in whichever order they stand.
-/

namespace BundleForge.Pass

variable {σ : Type} [Sink σ]

/-- The pass fails while it prepares, with these diagnostics. -/
structure FailsPreparing (plan : Plan) (bundle : Bundle) (locale : Option String) (world : World σ)
    (failures : List Diagnostic) : Prop where
  result : (run plan bundle locale world).result = failWith bundle locale failures
  preparing : ∃ diagnostic ∈ failures, diagnostic.phase = .preparing

/-- A pass that differs from another at most in the bundles that are declared beside its own, and in what its
finder remembers, which is nothing wrong. -/
structure Alongside (plan other : Plan) (world elsewhere : World σ) : Prop where
  plan : other = { plan with bundles := other.bundles }
  sink : elsewhere.sink = world.sink
  session : Session.Over world.files world.finder.search (opening elsewhere)

/-- The failures of a pass that fails while it prepares, accessor by accessor. -/
structure Local (plan : Plan) (bundle : Bundle) (locale : Option String) (world : World σ)
    (failures : List Diagnostic) : Prop where
  about : ∀ diagnostic ∈ failures, diagnostic.phase = .preparing ∧
    ∃ accessor ∈ bundle.accessors, diagnostic.accessor = some accessor.name
  /-- A pass over a single accessor fails with just the diagnostics of that accessor. If there are none it hands
  over a source. -/
  single : ∀ accessor ∈ bundle.accessors, ∀ other elsewhere, Alongside plan other world elsewhere →
    let own := failures.filter (·.accessor = some accessor.name)
    (own ≠ [] → FailsPreparing other (bundle.only accessor) locale elsewhere own) ∧
    (own = [] → (run other (bundle.only accessor) locale elsewhere).committed = true)
  /-- A pass over some of the accessors fails exactly if there are diagnostics of them, and with just these. -/
  part : ∀ accessors rest : List Accessor, (accessors ++ rest).Perm bundle.accessors →
    ∀ other elsewhere, Alongside plan other world elsewhere →
    let own := failures.filter (·.accessor ∈ accessors.map (some ·.name))
    (own ≠ [] → ∃ failures' : List Diagnostic, failures'.Perm own ∧
      FailsPreparing other { bundle with accessors } locale elsewhere failures') ∧
    (own = [] → ∀ failures', ¬ FailsPreparing other { bundle with accessors } locale elsewhere failures')
  /-- In another order of the accessors there are the same diagnostics, perhaps in another order. -/
  reordered : ∀ accessors : List Accessor, accessors.Perm bundle.accessors →
    ∀ other elsewhere, Alongside plan other world elsewhere → ∃ failures' : List Diagnostic,
      failures'.Perm failures ∧ FailsPreparing other { bundle with accessors } locale elsewhere failures'

/-- The sink grants the pass its type. -/
def Granted (bundle : Bundle) (locale : Option String) (world : World σ) : Prop :=
  ∃ claim sink, Sink.claim world.sink (wanted bundle locale) = (.ok (some claim), sink)

variable {files : FileSystem} {search : SearchPath} {plan : Plan} {bundle : Bundle} {locale : Option String}
  {judge : GeneratorKind → Generator.Judgement} {world : World σ}

/-! ### What a pass reports -/

omit [Sink σ] in
theorem result_worked (h : faults plan bundle locale (opening world) ≠ []) :
    (worked plan bundle locale world).result = .error (faults plan bundle locale (opening world)) := by
  have hcourse := course_work plan bundle locale (opening world) (tasksOf plan bundle)
  rw [worked]
  generalize work plan bundle locale (opening world) (tasksOf plan bundle) = made at hcourse ⊢
  cases hcourse with
  | preparing failed => rfl
  | emitting prepare failed => exact absurd (diagnostics_eq_nil_iff.2 prepare) h
  | finishing prepare emit failed => exact absurd (diagnostics_eq_nil_iff.2 prepare) h
  | done prepare emit finish => exact absurd (diagnostics_eq_nil_iff.2 prepare) h

/-- A pass with failures while it prepares reports them, and hands nothing over. -/
theorem run_of_faults (hgranted : Granted bundle locale world)
    (hdispatch : (Dispatch.ofBundle plan.registry plan.hierarchy bundle).refused = [])
    (h : faults plan bundle locale (opening world) ≠ []) :
    (run plan bundle locale world).result =
        failWith bundle locale (faults plan bundle locale (opening world)) ∧
      (run plan bundle locale world).committed = false := by
  obtain ⟨claim, sink, hclaim⟩ := hgranted
  have hends := ends_run plan bundle locale world
  have hworked := result_worked h
  generalize run plan bundle locale world = pass at hends ⊢
  cases hends with
  | unclaimed claimed => rw [hclaim] at claimed; simp at claimed
  | skipped claimed => rw [hclaim] at claimed; simp at claimed
  | refused _ refused => exact absurd hdispatch refused
  | stopped _ _ failed =>
    obtain rfl := Except.error.inj (failed.symm.trans hworked)
    exact ⟨rfl, rfl⟩
  | unwritten _ _ made => rw [hworked] at made; simp at made
  | generated _ _ made => rw [hworked] at made; simp at made

theorem committed_run (hgranted : Granted bundle locale world)
    (hdispatch : (Dispatch.ofBundle plan.registry plan.hierarchy bundle).refused = [])
    (h : ∃ source, (worked plan bundle locale world).result = .ok source) :
    (run plan bundle locale world).committed = true := by
  obtain ⟨claim, sink, hclaim⟩ := hgranted
  obtain ⟨source, hworked⟩ := h
  have hends := ends_run plan bundle locale world
  generalize run plan bundle locale world = pass at hends ⊢
  cases hends with
  | unclaimed claimed => rw [hclaim] at claimed; simp at claimed
  | skipped claimed => rw [hclaim] at claimed; simp at claimed
  | refused _ refused => exact absurd hdispatch refused
  | stopped _ _ failed => rw [hworked] at failed; simp at failed
  | unwritten => rfl
  | generated => rfl

theorem phase_of_mem_diagnostics {phase : Phase} {journal : Journal} {diagnostic : Diagnostic}
    (h : diagnostic ∈ diagnostics bundle phase journal) : diagnostic.phase = phase := by
  obtain ⟨call, -, hcall⟩ := List.mem_filterMap.1 h
  obtain ⟨error, -, rfl⟩ := Option.map_eq_some_iff.1 hcall
  rfl

omit [Sink σ] in
theorem faults_of_worked {failures : List Diagnostic}
    (hworked : (worked plan bundle locale world).result = .error failures) {diagnostic : Diagnostic}
    (hmem : diagnostic ∈ failures) (hphase : diagnostic.phase = .preparing) :
    failures = faults plan bundle locale (opening world) := by
  have hcourse := course_work plan bundle locale (opening world) (tasksOf plan bundle)
  rw [worked] at hworked
  generalize work plan bundle locale (opening world) (tasksOf plan bundle) = made at hcourse hworked
  cases hcourse with
  | preparing failed => exact (Except.error.inj hworked).symm
  | emitting _ failed =>
    obtain rfl := Except.error.inj hworked
    rw [phase_of_mem_diagnostics hmem] at hphase
    simp at hphase
  | finishing _ _ failed =>
    obtain rfl := Except.error.inj hworked
    rw [phase_of_mem_diagnostics hmem] at hphase
    simp at hphase
  | done => simp at hworked

theorem failWith_inj {failures others : List Diagnostic}
    (h : failWith bundle locale failures = failWith bundle locale others) : failures = others :=
  (FailedPass.mk.inj (PassResult.failed.inj h)).2.2

/-- A pass that fails while it prepares was granted its type, and reports what failed. -/
theorem faults_of_run {failures : List Diagnostic}
    (hrun : (run plan bundle locale world).result = failWith bundle locale failures) {diagnostic : Diagnostic}
    (hmem : diagnostic ∈ failures) (hphase : diagnostic.phase = .preparing) :
    Granted bundle locale world ∧ failures = faults plan bundle locale (opening world) := by
  have hends := ends_run plan bundle locale world
  generalize run plan bundle locale world = pass at hends hrun
  cases hends with
  | unclaimed =>
    obtain rfl := failWith_inj hrun
    rw [List.mem_singleton.1 hmem] at hphase
    simp at hphase
  | skipped => simp [failWith] at hrun
  | refused =>
    obtain rfl := failWith_inj hrun
    obtain ⟨⟨accessor, error⟩, -, rfl⟩ := List.mem_map.1 hmem
    simp at hphase
  | stopped claimed _ failed =>
    obtain rfl := failWith_inj hrun
    exact ⟨⟨_, _, claimed⟩, faults_of_worked failed hmem hphase⟩
  | unwritten =>
    obtain rfl := failWith_inj hrun
    rw [List.mem_singleton.1 hmem] at hphase
    simp at hphase
  | generated => simp [failWith] at hrun

theorem failsPreparing_iff (hgranted : Granted bundle locale world)
    (hdispatch : (Dispatch.ofBundle plan.registry plan.hierarchy bundle).refused = []) {failures : List Diagnostic} :
    FailsPreparing plan bundle locale world failures ↔
      failures = faults plan bundle locale (opening world) ∧ failures ≠ [] := by
  constructor
  · rintro ⟨hrun, diagnostic, hmem, hphase⟩
    exact ⟨(faults_of_run hrun hmem hphase).2, List.ne_nil_of_mem hmem⟩
  · rintro ⟨rfl, hne⟩
    obtain ⟨diagnostic, hmem⟩ := List.exists_mem_of_ne_nil _ hne
    exact ⟨(run_of_faults hgranted hdispatch hne).1, diagnostic, hmem, phase_of_mem_diagnostics hmem⟩

/-! ### Accessors with different names -/

theorem filter_blame_append {accessors rest : List Accessor}
    (hnames : ((accessors ++ rest).map (·.name)).Nodup) :
    ((accessors ++ rest).flatMap (blame files search plan bundle locale judge)).filter
        (·.accessor ∈ accessors.map (some ·.name)) =
      accessors.flatMap (blame files search plan bundle locale judge) := by
  rw [List.flatMap_append, List.filter_append, List.filter_eq_self.2, List.filter_eq_nil_iff.2, List.append_nil]
  · intro diagnostic hmem hnamed
    obtain ⟨accessor, haccessor, hblame⟩ := List.mem_flatMap.1 hmem
    obtain ⟨named, hmem', hname⟩ := List.mem_map.1 (of_decide_eq_true hnamed)
    rw [(of_mem_blame hblame).1, Option.some_inj] at hname
    rw [List.map_append, List.nodup_append] at hnames
    exact hnames.2.2 _ (List.mem_map_of_mem hmem') _ (List.mem_map_of_mem haccessor) hname
  · intro diagnostic hmem
    obtain ⟨accessor, haccessor, hblame⟩ := List.mem_flatMap.1 hmem
    exact decide_eq_true ((of_mem_blame hblame).1 ▸ List.mem_map_of_mem haccessor)

theorem filter_blame_single {accessors : List Accessor} (hnames : (accessors.map (·.name)).Nodup)
    {accessor : Accessor} (hmem : accessor ∈ accessors) :
    (accessors.flatMap (blame files search plan bundle locale judge)).filter (·.accessor = some accessor.name) =
      blame files search plan bundle locale judge accessor := by
  rw [List.filter_flatMap, flatMap_eq_of_mem (List.Nodup.of_map _ hnames) hmem]
  · exact List.filter_eq_self.2 fun diagnostic hblame => decide_eq_true (of_mem_blame hblame).1
  · intro other hother hne
    refine List.filter_eq_nil_iff.2 fun diagnostic hblame hsame => hne ?_
    rw [(of_mem_blame hblame).1] at hsame
    exact List.inj_on_of_nodup_map hnames hother hmem (Option.some.inj (of_decide_eq_true hsame))

/-! ### The passes alongside -/

section

variable {other : Plan} {elsewhere : World σ} (halong : Alongside plan other world elsewhere)
  {accessors : List Accessor} {Seen : GeneratorKind → Bool → Resource → Prop}
include halong

theorem Alongside.granted (hgranted : Granted bundle locale world) :
    Granted { bundle with accessors } locale elsewhere := by
  rw [Granted, halong.sink]
  exact hgranted

omit [Sink σ] in
theorem Alongside.refused (hdispatch : (Dispatch.ofBundle plan.registry plan.hierarchy bundle).refused = [])
    (hsubset : accessors ⊆ bundle.accessors) :
    (Dispatch.ofBundle other.registry other.hierarchy { bundle with accessors }).refused = [] := by
  rw [halong.plan]
  exact Dispatch.refused_eq_nil_iff.2 fun accessor hmem =>
    Dispatch.refused_eq_nil_iff.1 hdispatch accessor (hsubset hmem)

variable (hjudge : JudgeBy world.files world.finder.search Seen judge) (hinline : plan.deployment = .inline)
  (hbuiltIn : plan.registry.BuiltIn)
  (hseen : ∀ kind embed resource,
    SeenBy world.files world.finder.search plan bundle locale kind embed resource → Seen kind embed resource)
  (hgranted : Granted bundle locale world)
  (hdispatch : (Dispatch.ofBundle plan.registry plan.hierarchy bundle).refused = [])
  (hsubset : accessors ⊆ bundle.accessors)
include hjudge hinline hbuiltIn hseen

omit [Sink σ] in
include hsubset in
/-- The failures of preparing some accessors are what is reported of them one by one. -/
theorem Alongside.faults_eq :
    faults other { bundle with accessors } locale (opening elsewhere) =
      (served plan { bundle with accessors }).flatMap
        (blame world.files world.finder.search plan bundle locale judge) := by
  rw [halong.plan]
  refine Pass.faults_eq hjudge hinline hbuiltIn (fun kind embed resource hmeans => ?_) halong.session
  obtain ⟨accessor, hmem, hfound⟩ := hmeans
  exact hseen kind embed resource ⟨accessor, hsubset hmem, hfound⟩

include hgranted hdispatch

include hsubset in
theorem Alongside.failsPreparing_iff {failures : List Diagnostic} :
    FailsPreparing other { bundle with accessors } locale elsewhere failures ↔
      failures = (served plan { bundle with accessors }).flatMap
        (blame world.files world.finder.search plan bundle locale judge) ∧ failures ≠ [] := by
  rw [Pass.failsPreparing_iff (halong.granted hgranted) (halong.refused hdispatch hsubset),
    halong.faults_eq hjudge hinline hbuiltIn hseen hsubset]

/-- A pass over some of the accessors reports what is reported of them one by one. -/
theorem Alongside.exists_part (hnames : (bundle.accessors.map (·.name)).Nodup) {rest : List Accessor}
    (hperm : (accessors ++ rest).Perm bundle.accessors) :
    ∃ failures : List Diagnostic,
      failures.Perm (((served plan bundle).flatMap
        (blame world.files world.finder.search plan bundle locale judge)).filter
          (·.accessor ∈ accessors.map (some ·.name))) ∧
      ∀ failures', FailsPreparing other { bundle with accessors } locale elsewhere failures' ↔
        failures' = failures ∧ failures' ≠ [] := by
  have hsubset : accessors ⊆ bundle.accessors := fun accessor hmem =>
    hperm.subset (List.mem_append_left rest hmem)
  refine ⟨_, ?_, fun failures' =>
    halong.failsPreparing_iff hjudge hinline hbuiltIn hseen hgranted hdispatch hsubset⟩
  have hall := (((perm_served hdispatch (List.Subset.refl _)).trans hperm.symm).flatMap_right
    (blame world.files world.finder.search plan bundle locale judge)).filter
      (·.accessor ∈ accessors.map (some ·.name))
  rw [filter_blame_append ((hperm.map _).nodup_iff.2 hnames)] at hall
  exact ((perm_served hdispatch hsubset).flatMap_right _).trans hall.symm

/-- A pass over a single accessor reports what is reported of it, or it makes a source. -/
theorem Alongside.only {accessor : Accessor} (hmem : accessor ∈ bundle.accessors) :
    let own := blame world.files world.finder.search plan bundle locale judge accessor
    (own ≠ [] → FailsPreparing other (bundle.only accessor) locale elsewhere own) ∧
    (own = [] → (run other (bundle.only accessor) locale elsewhere).committed = true) := by
  obtain ⟨kind, hkind⟩ := Dispatch.exists_kind_of_refused_eq_nil hdispatch hmem
  have hsubset : [accessor] ⊆ bundle.accessors := List.cons_subset.2 ⟨hmem, List.nil_subset _⟩
  have hserved : (served plan (bundle.only accessor)).flatMap
      (blame world.files world.finder.search plan bundle locale judge) =
        blame world.files world.finder.search plan bundle locale judge accessor := by
    rw [served_only hkind, List.flatMap_singleton]
  constructor
  · intro hown
    exact (halong.failsPreparing_iff hjudge hinline hbuiltIn hseen hgranted hdispatch hsubset).2
      ⟨hserved.symm, hown⟩
  · intro hnone
    have htasks : tasksOf other (bundle.only accessor) = [⟨kind, [accessor]⟩] := by
      rw [halong.plan]
      exact tasksOf_only hkind
    have hinline' : other.deployment = .inline := by
      rw [halong.plan]
      exact hinline
    have hfaults : faults other (bundle.only accessor) locale (opening elsewhere) = [] :=
      (halong.faults_eq hjudge hinline hbuiltIn hseen hsubset).trans (hserved.trans hnone)
    rw [faults, htasks, diagnostics_eq_nil_iff] at hfaults
    have hgranted' : Granted (bundle.only accessor) locale elsewhere := halong.granted hgranted
    apply committed_run hgranted' (halong.refused hdispatch hsubset)
    rw [worked, htasks]
    have hmeans : ∀ resource, Means world.files world.finder.search other (bundle.only accessor) locale accessor
        resource → Seen kind accessor.embed resource := by
      rw [halong.plan]
      exact fun resource hfound => hseen _ _ _ ⟨accessor, hmem, hkind, rfl, hfound⟩
    exact exists_source_only hjudge hinline' (hbuiltIn kind (Dispatch.mem_of_resolve hkind)) hmeans halong.session
      hfaults

end

/-- Failures are local to their accessors if embedded images of the same origin are alike small enough. -/
theorem local_of_alikeSmall {failures : List Diagnostic} (hbuiltIn : plan.registry.BuiltIn)
    (hinline : plan.deployment = .inline) (hself : Alongside plan plan world world)
    (hnames : (bundle.accessors.map (·.name)).Nodup)
    (hdispatch : (Dispatch.ofBundle plan.registry plan.hierarchy bundle).refused = [])
    (hfails : FailsPreparing plan bundle locale world failures)
    (halike : Generator.AlikeSmall (SeenBy world.files world.finder.search plan bundle locale .image)) :
    Local plan bundle locale world failures := by
  obtain ⟨judge, hjudge⟩ := exists_judgeBy halike
  have hseen := fun kind embed resource
    (h : SeenBy world.files world.finder.search plan bundle locale kind embed resource) => h
  obtain ⟨diagnostic, hmem, hphase⟩ := hfails.preparing
  have hgranted := (faults_of_run hfails.result hmem hphase).1
  have hperm : (served plan bundle).Perm bundle.accessors := perm_served hdispatch (List.Subset.refl _)
  obtain ⟨hfailures, hne⟩ := (hself.failsPreparing_iff hjudge hinline hbuiltIn hseen hgranted hdispatch
    (List.Subset.refl _)).1 hfails
  constructor
  case about =>
    intro diagnostic hdiagnostic
    rw [hfailures] at hdiagnostic
    obtain ⟨accessor, haccessor, hblame⟩ := List.mem_flatMap.1 hdiagnostic
    exact ⟨(of_mem_blame hblame).2, accessor, hperm.mem_iff.1 haccessor, (of_mem_blame hblame).1⟩
  case single =>
    intro accessor haccessor other elsewhere halong
    rw [hfailures, filter_blame_single ((hperm.map _).nodup_iff.2 hnames) (hperm.mem_iff.2 haccessor)]
    exact halong.only hjudge hinline hbuiltIn hseen hgranted hdispatch haccessor
  case part =>
    intro accessors rest hsplit other elsewhere halong
    obtain ⟨failures', hsame, hiff⟩ :=
      halong.exists_part hjudge hinline hbuiltIn hseen hgranted hdispatch hnames hsplit
    rw [← hfailures] at hsame
    refine ⟨fun hown => ⟨failures', hsame, (hiff failures').2 ⟨rfl, ?_⟩⟩, fun hown failures'' hfails' => ?_⟩
    · rintro rfl
      exact hown (List.nil_perm.1 hsame)
    · obtain ⟨rfl, hne'⟩ := (hiff failures'').1 hfails'
      exact hne' (List.perm_nil.1 (hown ▸ hsame))
  case reordered =>
    intro accessors hsame other elsewhere halong
    have hfailures' := (((perm_served hdispatch hsame.subset).trans (hsame.trans hperm.symm)).flatMap_right
      (blame world.files world.finder.search plan bundle locale judge))
    rw [← hfailures] at hfailures'
    refine ⟨_, hfailures', (halong.failsPreparing_iff hjudge hinline hbuiltIn hseen hgranted hdispatch
      hsame.subset).2 ⟨rfl, fun hnone => hne ?_⟩⟩
    exact List.nil_perm.1 (hnone ▸ hfailures')

end BundleForge.Pass
