import BundleForge.Proofs.Pass.Local
import BundleForge.Proofs.Search.Origins
/-!
# Failures that another accessor hides

An image generator deploys images of the same origin only once, so it does not notice that an image is too large to
be embedded if one of the same origin was embedded before. Failures are local to their accessors exactly if that
cannot happen. It cannot if origins tell resources apart, and they do unless payloads are embedded beside a directory
that is registered under the empty path.
-/

namespace BundleForge.Pass

open Generator (ImageMemory ImageTable imageKey imageFault fault FairMemory judges_image AlikeSmall)

variable {files : FileSystem} {search : SearchPath} {plan : Plan} {bundle : Bundle} {locale : Option String}

theorem Means.unique {accessor : Accessor} {resource other : Resource}
    (h : Means files search plan bundle locale accessor resource)
    (h' : Means files search plan bundle locale accessor other) : resource = other :=
  Except.ok.inj (h.symm.trans h')

theorem Means.part {accessor : Accessor} {resource : Resource}
    (h : Means files search plan bundle locale accessor resource) (accessors : List Accessor) :
    Means files search plan { bundle with accessors } locale accessor resource :=
  h

theorem alikeSmall_eq (resource : Resource) : AlikeSmall fun _ other => other = resource := by
  rintro _ _ rfl rfl _ _ _ hsmall
  exact hsmall

/-! ### Images of the same origin -/

/-- An image whose key is in the table is prepared whatever its size. -/
theorem prepare_of_known {session : Session} (hover : session.Over files search) {accessor : Accessor}
    {resource : Resource} (hmeans : Means files search plan bundle locale accessor resource)
    (hsniff : (Image.sniff? resource.bytes).isSome) {table : ImageTable}
    (hknown : imageKey resource.origin accessor.embed ∈ table.images.keys) :
    (preparation (plan.context bundle locale) .image accessor session (ImageMemory.only table)).1 = .ok () := by
  obtain ⟨next, hresolve, -⟩ := hover.exists_resolve (plan.context bundle locale) accessor
    (accessor.effectiveLocale locale)
  have hfound := hresolve.trans (congrArg (·, next) hmeans)
  obtain ⟨header, hheader⟩ := Option.isSome_iff_exists.1 hsniff
  have hdeploy : Generator.deployImage (plan.context bundle locale) next table
      (imageKey resource.origin accessor.embed) resource header.format (!accessor.embed) = (.ok table, next) := by
    rw [Generator.deployImage, if_pos (OrderedMap.contains_iff.2 hknown)]
  rw [imageKey] at hdeploy
  show (Generator.image.prepare accessor (accessor.effectiveLocale locale) (plan.context bundle locale) session
    (.only table)).1 = _
  simp only [Generator.image, hfound, hheader, Generator.table?_only, hdeploy]

/-- A small image is embedded by itself, and its key is in the table from then on. -/
theorem prepare_of_small {session : Session} (hinline : plan.deployment = .inline)
    (hover : session.Over files search) {accessor : Accessor} {resource : Resource}
    (hmeans : Means files search plan bundle locale accessor resource) (hembed : accessor.embed = true)
    (hsniff : (Image.sniff? resource.bytes).isSome) (hsmall : resource.bytes.length < Deployment.inlineLimit)
    {memory : ImageMemory} (hfair : FairMemory (fun _ other => other = resource) memory) :
    ∃ next table, preparation (plan.context bundle locale) .image accessor session memory =
        (.ok (), next, ImageMemory.only table) ∧
      next.Over files search ∧ imageKey resource.origin accessor.embed ∈ table.images.keys := by
  obtain ⟨result, next, last, hprepare, hnext, -, herror⟩ := (judges_image (alikeSmall_eq resource)).prepare
    (plan.context bundle locale) accessor (accessor.effectiveLocale locale) hinline hover hfair
    fun other hother => Means.unique hother hmeans
  have hnone : Running.error? result = none := by
    have hmeans' : search.resource files (plan.context bundle locale).bundle accessor
      ((plan.context bundle locale).hierarchy.defaultExtensions accessor.kind) (accessor.effectiveLocale locale) =
        .ok resource := hmeans
    rw [herror, hmeans', fault, imageFault, if_pos hsniff, Generator.sizeFault_eq_none_iff]
    exact ⟨hembed, hsmall⟩
  obtain ⟨_, rfl⟩ := error?_eq_none_iff.1 hnone
  obtain ⟨table, rfl, -⟩ := hfair
  rcases Generator.prepare_image accessor (accessor.effectiveLocale locale) (plan.context bundle locale) session
    table with ⟨_, found, header, images, hfound, -, hgains, hok⟩ | ⟨_, error, hfailed⟩
  · obtain ⟨_, hresolve, -⟩ := hover.exists_resolve (plan.context bundle locale) accessor
      (accessor.effectiveLocale locale)
    obtain rfl : found = resource := Means.unique ((congrArg Prod.fst hresolve).symm.trans hfound) hmeans
    have hsame := hprepare.symm.trans hok
    obtain rfl := (Prod.mk.inj (Prod.mk.inj hsame).2).2
    exact ⟨next, _, hprepare, hnext, hgains.mem_keys.1⟩
  · rw [hfailed] at hprepare
    simp at hprepare

theorem faults_alike {session : Session} {accessor : Accessor} {rest : List Accessor} {kind : GeneratorKind}
    (hkinds : ∀ other ∈ accessor :: rest, plan.registry.resolve plan.hierarchy other.kind = .ok kind) :
    faults plan { bundle with accessors := accessor :: rest } locale session =
      diagnostics { bundle with accessors := accessor :: rest } .preparing
        (prepareTask (plan.context { bundle with accessors := accessor :: rest } locale) session
          ⟨kind, accessor :: rest⟩).2.2 := by
  rw [faults, preparing, prepared, tasksOf_alike hkinds]
  exact congrArg _ (List.append_nil _)

theorem clean_prepareTask_pair {context : Context} {kind : GeneratorKind} {session begun next : Session}
    {memory last : kind.generator.Memory} {accessor other : Accessor}
    (hinit : starting context kind session = (.ok (), begun, memory))
    (hfirst : preparation context kind accessor begun memory = (.ok (), next, last))
    (hsecond : (preparation context kind other next last).1 = .ok ()) :
    Clean (prepareTask context session ⟨kind, [accessor, other]⟩).2.2 := by
  have hjournal : (prepareTask context session ⟨kind, [accessor, other]⟩).2.2 =
      [startingCall context kind session, preparingCall context kind accessor begun memory,
        preparingCall context kind other next last] := by
    rw [(prepareTask_of_ok context [accessor, other] (congrArg Prod.fst hinit)).1, hinit, prepareEach_cons]
    dsimp only
    rw [hfirst, prepareEach_cons]
    rfl
  rw [hjournal, startingCall, preparingCall, preparingCall, hinit, hfirst]
  simp only [Clean, List.forall_mem_cons, hsecond]
  exact ⟨rfl, rfl, rfl, by simp⟩

section

variable {session : Session} (hinline : plan.deployment = .inline) (hover : session.Over files search)
  {accessor other : Accessor} {resource large : Resource}
  (hkind : plan.registry.resolve plan.hierarchy other.kind = .ok .image)
  (hmeans : Means files search plan bundle locale other large)
  (hsniff : (Image.sniff? large.bytes).isSome)
include hinline hover hkind hmeans hsniff

/-- An image that is too large to be embedded is not embedded by itself. -/
theorem faults_only_of_large (hlarge : ¬ large.bytes.length < Deployment.inlineLimit) :
    faults plan (bundle.only other) locale session ≠ [] := by
  have hfaults : faults plan (bundle.only other) locale session = _ :=
    faults_alike fun _ hmem => List.mem_singleton.1 hmem ▸ hkind
  rw [hfaults, (diagnostics_prepareTask (judges_image (alikeSmall_eq large)) hinline
    (fun _ hmem found hfound => Means.unique (List.mem_singleton.1 hmem ▸ hfound) hmeans) hover).2,
    List.flatMap_singleton, verdict]
  rw [show search.resource files _ other _ _ = _ from hmeans.part [other], fault, imageFault, if_pos hsniff,
    Generator.sizeFault, if_neg fun h => hlarge h.2]
  simp

/-- A small image of the same origin hides that. -/
theorem faults_pair_of_small (hembed : other.embed = true)
    (hkind' : plan.registry.resolve plan.hierarchy accessor.kind = .ok .image)
    (hembed' : accessor.embed = true) (hmeans' : Means files search plan bundle locale accessor resource)
    (hsniff' : (Image.sniff? resource.bytes).isSome) (horigin : resource.origin = large.origin)
    (hsmall : resource.bytes.length < Deployment.inlineLimit) :
    faults plan { bundle with accessors := [accessor, other] } locale session = [] := by
  let context := plan.context { bundle with accessors := [accessor, other] } locale
  obtain ⟨begun, memory, hinit, hbegun, hfair⟩ := (judges_image (alikeSmall_eq resource)).init context rfl
    (hover.select GeneratorKind.image.id)
  have hstarting : starting context .image session = (.ok (), begun, memory) := hinit
  obtain ⟨next, table, hfirst, hnext, hkey⟩ := prepare_of_small hinline hbegun (hmeans'.part [accessor, other])
    hembed' hsniff' hsmall hfair
  rw [hembed', horigin, ← hembed] at hkey
  have hsecond := prepare_of_known hnext (hmeans.part [accessor, other]) hsniff hkey
  have hkinds : ∀ served ∈ [accessor, other], plan.registry.resolve plan.hierarchy served.kind = .ok .image := by
    simp [hkind, hkind']
  rw [faults_alike hkinds]
  exact diagnostics_eq_nil_iff.2 (clean_prepareTask_pair hstarting hfirst hsecond)

end

/-! ### Locality -/

variable {σ : Type} [Sink σ] {world : World σ} {failures : List Diagnostic}

/-- Local failures are not hidden, so embedded images of the same origin are alike small enough. -/
theorem alikeSmall_of_local (hinline : plan.deployment = .inline) (hself : Alongside plan plan world world)
    (hgranted : Granted bundle locale world)
    (hdispatch : (Dispatch.ofBundle plan.registry plan.hierarchy bundle).refused = [])
    (hlocal : Local plan bundle locale world failures) :
    AlikeSmall (SeenBy world.files world.finder.search plan bundle locale .image) := by
  rintro resource large ⟨accessor, hmem, hkind, hembed, hmeans⟩ ⟨other, hmem', hkind', hembed', hmeans'⟩ horigin
    hsniff hsniff' hsmall
  by_contra hlarge
  have hpart : ∀ {accessors}, accessors ⊆ bundle.accessors →
      Granted { bundle with accessors } locale world ∧
      (Dispatch.ofBundle plan.registry plan.hierarchy { bundle with accessors }).refused = [] :=
    fun hsubset => ⟨hself.granted hgranted, hself.refused hdispatch hsubset⟩
  -- By itself the large image is reported.
  have hreported : failures.filter (·.accessor = some other.name) ≠ [] := by
    intro hnone
    obtain ⟨honly, hnever⟩ := hpart (List.cons_subset.2 ⟨hmem', List.nil_subset _⟩)
    have hcommitted := (hlocal.single other hmem' plan world hself).2 hnone
    rw [Bundle.only, (run_of_faults honly hnever
      (faults_only_of_large hinline hself.session hkind' hmeans' hsniff' hlarge)).2] at hcommitted
    simp at hcommitted
  -- Behind the small one it is not.
  have hne : accessor ≠ other := by
    rintro rfl
    obtain rfl := hmeans.unique hmeans'
    exact hlarge hsmall
  have hsubset : [accessor, other] ⊆ bundle.accessors := by simp [hmem, hmem']
  obtain ⟨pair, hpair, hsublist⟩ := List.subperm_of_subset (by simpa using hne) hsubset
  obtain ⟨rest, hrest⟩ := hsublist.exists_perm_append
  have hperm : ([accessor, other] ++ rest).Perm bundle.accessors := (hrest.trans (hpair.append_right rest)).symm
  obtain ⟨failures', -, hfails⟩ := (hlocal.part _ rest hperm plan world hself).1 fun hnone => hreported (by
    rw [List.filter_eq_nil_iff] at hnone ⊢
    intro diagnostic hdiagnostic hnamed
    exact hnone diagnostic hdiagnostic (decide_eq_true (by simp [of_decide_eq_true hnamed])))
  obtain ⟨hboth, hnever⟩ := hpart hsubset
  obtain ⟨rfl, hsome⟩ := (failsPreparing_iff hboth hnever).1 hfails
  exact hsome (faults_pair_of_small hinline hself.session hkind' hmeans' hsniff' hembed' hkind hembed hmeans hsniff
    horigin hsmall)

/-- While payloads are embedded and files stay as they are, failures are local to their accessors exactly if embedded
images of the same origin are alike small enough. They are unless payloads stand beside files that are found from the
working directory. -/
theorem local_iff_of_failsPreparing {history : List Finder.Action}
    (hbuiltIn : plan.registry.BuiltIn) (hinline : plan.deployment = .inline)
    (hfinder : world.finder = ({} : Finder).after (history.map (world.files, ·)))
    (hnames : (bundle.accessors.map (·.name)).Nodup)
    (hdispatch : (Dispatch.ofBundle plan.registry plan.hierarchy bundle).refused = [])
    (hfails : FailsPreparing plan bundle locale world failures) :
    (Local plan bundle locale world failures ↔
      AlikeSmall (SeenBy world.files world.finder.search plan bundle locale .image)) ∧
    (Finder.Unmixed history → Local plan bundle locale world failures) := by
  have hfresh : ({} : Finder).Coherent world.files := Finder.coherent_of_known_empty world.files rfl
  obtain ⟨hcoherent, hsearch⟩ := hfresh.after history
  rw [← hfinder] at hcoherent hsearch
  have hself : Alongside plan plan world world := ⟨rfl, rfl, rfl, rfl, hcoherent⟩
  obtain ⟨diagnostic, hmem, hphase⟩ := hfails.preparing
  have hgranted := (faults_of_run hfails.result hmem hphase).1
  have hlocal := local_of_alikeSmall hbuiltIn hinline hself hnames hdispatch hfails
  refine ⟨⟨alikeSmall_of_local hinline hself hgranted hdispatch, hlocal⟩, fun hunmixed => hlocal ?_⟩
  have htells : world.finder.search.TellsApart world.files := by
    rw [hsearch]
    exact Finder.tellsApart_after hunmixed
  rintro resource other ⟨_, -, -, -, hmeans⟩ ⟨_, -, -, -, hmeans'⟩ horigin - - hsmall
  obtain rfl := htells resource other (SearchPath.yields_of_resource hmeans) (SearchPath.yields_of_resource hmeans')
    horigin
  exact hsmall

/-- Two images of the same origin, and a text for which there is no resource. -/
def banners : Bundle where
  name := ⟨"crate::Banners"⟩
  accessors :=
    [{ name := "small", kind := .imageResource, source := some ["logo.gif"] },
     { name := "large", kind := .imageResource, source := some ["embedded:logo.gif"] },
     { name := "motto", kind := .textResource }]

def bannersPlan : Plan := { hierarchy := .builtin, bundles := .empty }

def smallBanner : Bytes := Bytes.ascii "GIF89a" ++ [64, 0, 48, 0]

def largeBanner : Bytes := smallBanner ++ List.replicate Deployment.inlineLimit 0

/-- The large image stands in the working directory, under the name that is the origin of the small one. -/
def bannersFiles : FileSystem := FileSystem.empty.put ["embedded:logo.gif"] (.file largeBanner)

def bannersHistory : List Finder.Action := [.embed "logo.gif" smallBanner, .register .source ⟨""⟩]

def bannersWorld : World MemorySink where
  files := bannersFiles
  finder := ({} : Finder).after (bannersHistory.map (bannersFiles, ·))
  sink := {}

def bannersFailures : List Diagnostic :=
  [⟨⟨"crate::Banners"⟩, some "motto", .preparing, .noDefault [".txt"]⟩]

theorem means_largeBanner : Means bannersWorld.files bannersWorld.finder.search bannersPlan banners none
    banners.accessors[1] ⟨"embedded:logo.gif", "embedded:logo.gif", largeBanner⟩ := by
  have hfirst : bannersWorld.finder.search.firstOf bannersFiles (SearchPath.candidates banners banners.accessors[1]
      (bannersPlan.hierarchy.defaultExtensions .imageResource) none) =
        some (.file .source ⟨"embedded:logo.gif"⟩) := by decide +kernel
  have hlocate : bannersFiles.locate ⟨"embedded:logo.gif"⟩ = .ok ["embedded:logo.gif"] := by decide +kernel
  have hread : bannersFiles.read ⟨"embedded:logo.gif"⟩ = .ok largeBanner :=
    (FileSystem.read_eq_ok_iff hlocate).2 (FileSystem.node?_put_self (by decide) _)
  have hload : bannersWorld.finder.search.load bannersFiles (.file .source ⟨"embedded:logo.gif"⟩) =
      .ok ⟨"embedded:logo.gif", "embedded:logo.gif", largeBanner⟩ := by
    rw [SearchPath.load, hread]
    rfl
  show SearchPath.resource _ _ _ _ _ _ = _
  rw [SearchPath.resource]
  exact (congrArg (fun found => SearchPath.resolved banners banners.accessors[1]
    (bannersPlan.hierarchy.defaultExtensions .imageResource) found >>= exactlyOne >>=
      bannersWorld.finder.search.load bannersFiles) hfirst).trans hload

/-- The text is reported. The large image would be reported if it were alone. -/
theorem local_iff_banners : FailsPreparing bannersPlan banners none bannersWorld bannersFailures ∧
    ¬ Local bannersPlan banners none bannersWorld bannersFailures := by
  have hfails : FailsPreparing bannersPlan banners none bannersWorld bannersFailures :=
    ⟨by decide +kernel, by decide⟩
  have hiff := local_iff_of_failsPreparing Registry.builtIn_standard rfl rfl (by decide) (by decide +kernel) hfails
  refine ⟨hfails, fun hlocal => ?_⟩
  have hsmall : Means bannersWorld.files bannersWorld.finder.search bannersPlan banners none banners.accessors[0]
      ⟨"embedded:logo.gif", "logo.gif", smallBanner⟩ := by
    unfold Means
    decide +kernel
  have hembedded := hiff.1.1 hlocal _ _ ⟨_, List.getElem_mem _, rfl, rfl, hsmall⟩
    ⟨_, List.getElem_mem _, rfl, rfl, means_largeBanner⟩ rfl (by decide +kernel) (by decide +kernel) (by decide)
  simp [largeBanner] at hembedded

end BundleForge.Pass
