import BundleForge.Proofs.Image.Call
import BundleForge.Proofs.Pass.Sharing
/-!
# What image accessors show

An image accessor is given the size it asks for and the flags of its own resource. Its URL is that of the image under
its key, which was found for the first accessor with the same origin and the same decision on embedding. So all image
accessors of a generator show their own images exactly if resources of the same origin have the same URL. Origins are
texts for people: a file that is found from the working directory can have the origin of an embedded payload.
-/

namespace BundleForge.Pass

open Lexical (IsPath)
open Generator (ImageMemory ImageTable imageKey imageStatic imageExpression)

variable {id : GeneratorId} {served : List Accessor}

/-- The URL of the image that was found for an accessor, under the accessor's own decision on embedding. -/
def Reached (context : Context) (accessor : Accessor) (resource : Resource) (url : String) : Prop :=
  ∃ header, Image.sniff? resource.bytes = some header ∧ context.deployment.Addresses resource.fileName
    header.format.mimeType resource.bytes accessor.embed url

theorem Reached.unique {context : Context} {accessor : Accessor} {resource : Resource} {url other : String}
    (h : Reached context accessor resource url) (h' : Reached context accessor resource other) : url = other := by
  obtain ⟨header, hheader, haddresses⟩ := h
  obtain ⟨header', hheader', haddresses'⟩ := h'
  obtain rfl := Option.some.inj (hheader.symm.trans hheader')
  exact haddresses.unique haddresses'

section

variable {σ : Type} [Sink σ] (plan : Plan) (bundle : Bundle) (locale : Option String) (world : World σ)

/-- Behind the comment on the origin of a resource, the expression is read as a call that has the accessor's own size
and the flags of the resource. It clones a static that denotes the URL. -/
def Depicts (accessor : Accessor) (resource : Resource) (expression url : String) : Prop :=
  ∃ header text call, Image.sniff? resource.bytes = some header ∧
    expression = (plan.context bundle locale).originComment resource.origin ++ text ∧
    (∀ rest, ImageCall.read? (text.toList ++ rest) = some (call, rest)) ∧
    call.Shows accessor header ∧
    Publishes plan bundle locale world (String.ofList call.urlStatic) url

/-- The accessor shows its own image. -/
def ShowsOwn (accessor : Accessor) (resource : Resource) (expression : String) : Prop :=
  ∃ url, Reached (plan.context bundle locale) accessor resource url ∧
    Depicts plan bundle locale world accessor resource expression url

/-- Every accessor of an image generator shows the image that is under the key of the accessor. -/
structure ShowsByKey (id : GeneratorId) (served : List Accessor) (expression : Accessor → String)
    (resource : Accessor → Resource) (url : String → String) : Prop where
  handled : (callsOf plan bundle locale world id).map (·.accessor) = served
  found : ∀ handling ∈ callsOf plan bundle locale world id,
    handling.Found (plan.context bundle locale) (resource handling.accessor)
  /-- The image was found for some accessor with the key. -/
  reached : ∀ accessor ∈ served, ∃ other ∈ served, sharedKey resource other = sharedKey resource accessor ∧
    Reached (plan.context bundle locale) other (resource other) (url (sharedKey resource accessor))
  depicts : ∀ accessor ∈ served, Depicts plan bundle locale world accessor (resource accessor)
    (expression accessor) (url (sharedKey resource accessor))

end

variable {σ : Type} [Sink σ] {plan : Plan} {bundle : Bundle} {locale : Option String} {world : World σ}
  {expression : Accessor → String} {resource : Accessor → Resource} {url : String → String}

theorem staticMember_imageStatic_inj {ident url other : String}
    (h : Implementation.staticMember (imageStatic ident url) =
      Implementation.staticMember (imageStatic ident other)) : url = other := by
  have hvalue : "::std::sync::LazyLock::new(|| " ++ url ++ ")" =
      "::std::sync::LazyLock::new(|| " ++ other ++ ")" := congrArg Member.value h
  have hchars := congrArg String.toList hvalue
  simp only [String.toList_append] at hchars
  exact String.toList_inj.1 (List.append_cancel_left (List.append_cancel_right hchars))

omit [Sink σ] in
theorem Publishes.unique {ident text other : String} (h : Publishes plan bundle locale world ident text)
    (h' : Publishes plan bundle locale world ident other) : text = other := by
  obtain ⟨expression, hdenotes, -, hstatic⟩ := h
  obtain ⟨expression', hdenotes', -, hstatic'⟩ := h'
  obtain rfl := staticMember_imageStatic_inj (List.cons.inj (hstatic.symm.trans hstatic')).1
  exact hdenotes.unique hdenotes'

omit [Sink σ] in
theorem Depicts.unique {accessor : Accessor} {resource : Resource} {expression url other : String}
    (h : Depicts plan bundle locale world accessor resource expression url)
    (h' : Depicts plan bundle locale world accessor resource expression other) : url = other := by
  obtain ⟨header, text, call, -, rfl, hread, -, hpublishes⟩ := h
  obtain ⟨header', text', call', -, hsame, hread', -, hpublishes'⟩ := h'
  have hchars := congrArg String.toList hsame
  simp only [String.toList_append] at hchars
  obtain rfl := String.toList_inj.1 (List.append_cancel_left hchars)
  obtain ⟨rfl, -⟩ := Prod.mk.inj (Option.some.inj ((hread []).symm.trans (hread' [])))
  exact hpublishes.unique hpublishes'

/-- All accessors show their own images exactly if the key of an image tells its URL. -/
theorem ShowsByKey.forall_showsOwn_iff (h : ShowsByKey plan bundle locale world id served expression resource url) :
    (∀ accessor ∈ served, ShowsOwn plan bundle locale world accessor (resource accessor) (expression accessor)) ↔
      ∀ accessor ∈ served, ∀ other ∈ served, (resource accessor).origin = (resource other).origin →
        accessor.embed = other.embed → ∀ address,
          Reached (plan.context bundle locale) other (resource other) address →
            Reached (plan.context bundle locale) accessor (resource accessor) address := by
  constructor
  · intro hown accessor haccessor other hother horigin hembed address hreached
    have hkey : sharedKey resource accessor = sharedKey resource other := by
      rw [sharedKey, sharedKey, horigin, hembed]
    obtain ⟨own, hreachedOwn, hdepicts⟩ := hown accessor haccessor
    obtain ⟨own', hreachedOwn', hdepicts'⟩ := hown other hother
    obtain rfl := hdepicts.unique (h.depicts accessor haccessor)
    obtain rfl := hdepicts'.unique (h.depicts other hother)
    rw [hreached.unique hreachedOwn', ← hkey]
    exact hreachedOwn
  · intro hagree accessor haccessor
    obtain ⟨other, hother, hkey, hreached⟩ := h.reached accessor haccessor
    obtain ⟨horigin, hembed⟩ := Generator.imageKey_inj hkey
    exact ⟨_, hagree accessor haccessor other hother horigin.symm hembed.symm _ hreached, h.depicts accessor haccessor⟩

/-! ### The table when all accessors are prepared -/

section

variable {type : GeneratedType} (hrun : (run plan bundle locale world).result = .generated type)
  (htask : ⟨⟨id, .image⟩, served⟩ ∈ tasksOf plan bundle)
include hrun htask

theorem exists_working : ∃ table, ⟨⟨id, .image⟩, ImageMemory.only table, served⟩ ∈
      (prepareAll (plan.context bundle locale) (opening world) (tasksOf plan bundle)).2.1 ∧
    Accounted (plan.context bundle locale) id (handlings plan bundle locale world) table.images := by
  obtain ⟨before, -, hstart⟩ := exists_start (plan.context bundle locale) (opening world) htask
  obtain ⟨hok, hfirst⟩ := starting_image (plan.context bundle locale) id before
  obtain ⟨hrunning, hhandlings, -, -⟩ := hstart hok
  rw [← handlings_of_generated hrun] at hhandlings
  obtain ⟨last, hlast, table, rfl, haccounted⟩ := exists_memory_prepareEach (plan.context bundle locale)
    (P := Working (plan.context bundle locale) id (handlings plan bundle locale world)) served
    (starting (plan.context bundle locale) ⟨id, .image⟩ before).2.1
    (starting (plan.context bundle locale) ⟨id, .image⟩ before).2.2 served
    (fun accessor session memory hmem hworking => (prepares_image (hhandlings hmem) hworking).1)
    (by rw [hfirst]; exact ⟨.empty, rfl, fun key image hget => by simp [ImageTable.empty] at hget⟩)
  exact ⟨table, hlast ▸ hrunning, haccounted⟩

/-- The table has a note on every accessor. -/
theorem exists_use {table : ImageTable} (hnames : (bundle.accessors.map (·.name)).Nodup)
    (hfound : ∀ handling ∈ callsOf plan bundle locale world id,
      handling.Found (plan.context bundle locale) (resource handling.accessor))
    (hrunning : ⟨⟨id, .image⟩, ImageMemory.only table, served⟩ ∈
      (prepareAll (plan.context bundle locale) (opening world) (tasksOf plan bundle)).2.1)
    {accessor : Accessor} (hserved : accessor ∈ served) :
    ∃ header image, Image.sniff? (resource accessor).bytes = some header ∧
      table.uses.get? accessor.name = some (.of accessor (resource accessor) header) ∧
      table.images.get? (sharedKey resource accessor) = some image := by
  obtain ⟨-, source, hwork, -⟩ := run_generated hrun
  obtain ⟨handling, hhandling, rfl, hid, found, header, last, hown, hheader, hnoted, hlast⟩ :=
    exists_noted (work_ok hwork).1 htask (filter_served
      (filter_eq_singleton hnames ((served_sublist htask).subset hserved)) htask hserved)
  rw [← handlings_of_generated hrun] at hhandling
  obtain rfl : found = resource handling.accessor := Except.ok.inj (hown.symm.trans
    (hfound handling (List.mem_filter.2 ⟨hhandling, decide_eq_true hid⟩)))
  -- The generator is started once, so this is the table it works on.
  have hsame := List.inj_on_of_nodup_map (nodup_ids_prepareAll plan bundle _ _) hlast hrunning rfl
  obtain ⟨-, hmemory, -⟩ := Running.mk.inj hsame
  obtain ⟨table', rfl, -, huse, hkey⟩ := hnoted
  obtain ⟨hsameTable, -⟩ := List.cons.inj (congrArg ImageMemory.tables (eq_of_heq hmemory))
  subst hsameTable
  obtain ⟨image, himage⟩ := OrderedMap.mem_keys_iff.1 hkey
  exact ⟨header, image, hheader, huse, himage⟩

/-- Every key has one URL, that of an image which was found for an accessor with the key. -/
theorem exists_url {table : ImageTable}
    (hfound : ∀ handling ∈ callsOf plan bundle locale world id,
      handling.Found (plan.context bundle locale) (resource handling.accessor))
    (haccounted : Accounted (plan.context bundle locale) id (handlings plan bundle locale world) table.images) :
    ∃ url : String → String, ∀ key image, table.images.get? key = some image →
      image = ⟨Literal.stringExpression (url key), none⟩ ∧
      ∃ other ∈ served, sharedKey resource other = key ∧
        Reached (plan.context bundle locale) other (resource other) (url key) := by
  have hexists : ∀ key, ∃ address, ∀ image, table.images.get? key = some image →
      image = ⟨Literal.stringExpression address, none⟩ ∧
      ∃ other ∈ served, sharedKey resource other = key ∧
        Reached (plan.context bundle locale) other (resource other) address := by
    intro key
    cases hget : table.images.get? key with
    | none => exact ⟨"", fun image himage => by simp at himage⟩
    | some image =>
      obtain ⟨handling, hmem, hid, found, header, address, hpictured, rfl, rfl⟩ := haccounted key image hget
      have hcall : handling ∈ callsOf plan bundle locale world id :=
        List.mem_filter.2 ⟨hmem, decide_eq_true hid⟩
      obtain rfl := Except.ok.inj (hpictured.found.symm.trans (hfound handling hcall))
      have hserved : handling.accessor ∈ served :=
        map_accessor_callsOf hrun htask ▸ List.mem_map_of_mem hcall
      refine ⟨address, fun image himage => ⟨(Option.some.inj himage).symm, handling.accessor, hserved, rfl, ?_⟩⟩
      exact ⟨header, hpictured.recognized, hpictured.addresses⟩
  choose url hurl using hexists
  exact ⟨url, hurl⟩

end

/-- In a successful pass every image accessor has its own size and the flags of its own resource, and the URL of an
image that was found for an accessor with the same origin and the same decision on embedding. The accessors of an image
generator all show their own images exactly if resources with the same origin have the same URL. -/
theorem showsOwn_iff_of_generated {type : GeneratedType} (hnames : (bundle.accessors.map (·.name)).Nodup)
    (hrun : (run plan bundle locale world).result = .generated type) :
    ∃ answer expression holder slot,
      Wiring plan bundle locale world (moduleOf plan bundle locale world) answer expression holder slot ∧
      ∀ id served, ⟨⟨id, .image⟩, served⟩ ∈ tasksOf plan bundle → ∃ resource url,
        ShowsByKey plan bundle locale world id served expression resource url ∧
        ((∀ accessor ∈ served,
            ShowsOwn plan bundle locale world accessor (resource accessor) (expression accessor)) ↔
          ∀ accessor ∈ served, ∀ other ∈ served, (resource accessor).origin = (resource other).origin →
            accessor.embed = other.embed → ∀ address,
              Reached (plan.context bundle locale) other (resource other) address →
                Reached (plan.context bundle locale) accessor (resource accessor) address) := by
  obtain ⟨hrefused, source, hwork, -⟩ := run_generated hrun
  obtain ⟨answer, expression, hanswered⟩ := exists_answers hrefused hwork hnames
  obtain ⟨holder, slot, hwiring⟩ := exists_wiring_of_answered hnames hrun hanswered
  refine ⟨answer, expression, holder, slot, hwiring, fun id served htask => ?_⟩
  obtain ⟨resource, hfound⟩ := exists_resource hrun htask hnames
  obtain ⟨table, hrunning, haccounted⟩ := exists_working hrun htask
  obtain ⟨url, hurl⟩ := exists_url hrun htask hfound haccounted
  have hnone : ∀ key image, table.images.get? key = some image → image.field = none := by
    intro key image hget
    rw [(hurl key image hget).1]
  obtain ⟨ident, before, after, hfields, -, hanswers⟩ := exists_imageFields hnone hrunning
  have hshows : ShowsByKey plan bundle locale world id served expression resource url := by
    constructor
    case handled => exact map_accessor_callsOf hrun htask
    case found => exact hfound
    case reached =>
      intro accessor hserved
      obtain ⟨header, image, -, -, himage⟩ := exists_use hrun htask hnames hfound hrunning hserved
      exact (hurl _ image himage).2
    case depicts =>
      intro accessor hserved
      obtain ⟨header, image, hheader, huse, himage⟩ := exists_use hrun htask hnames hfound hrunning hserved
      obtain ⟨hpath, hsaid⟩ := hanswers accessor hserved _ image huse himage
      obtain ⟨call, hread, hcall, hstatic⟩ := ImageCall.exists_read?_imageExpression hpath
      refine ⟨header, _, call, hheader,
        (hanswered accessor ((served_sublist htask).subset hserved)).expression_eq hsaid, hread, hcall, ?_⟩
      rw [hstatic, String.ofList_toList]
      apply publishes_of_mem
      rw [hfields, List.mem_append, List.mem_append]
      obtain ⟨himageUrl, -⟩ := hurl _ image himage
      exact .inl (.inr (List.mem_map.2 ⟨_, OrderedMap.get?_eq_some_iff.1 himage, by rw [himageUrl]; rfl⟩))
  exact ⟨resource, url, hshows, hshows.forall_showsOwn_iff⟩

/-- A payload, and a file whose path is the origin of the payload. -/
def namesakes : Bundle where
  name := ⟨"crate::Namesakes"⟩
  accessors :=
    [{ name := "payload", kind := .imageResource, source := some ["logo.gif"] },
     { name := "file", kind := .imageResource, source := some ["embedded:logo.gif"] }]

def namesakeBytes : Bytes := Bytes.ascii "GIF89a" ++ [32, 0, 24, 0]

/-- The file is found in the working directory, which is registered under the empty path. -/
def namesakesWorld : World MemorySink :=
  let files := FileSystem.empty.put ["embedded:logo.gif"] (.file namesakeBytes)
  ⟨files, (({} : Finder).embed "logo.gif" emblemBytes).register files .source ⟨""⟩, {}⟩

def namesakeOf (accessor : Accessor) : Resource :=
  if accessor.name = "file" then ⟨"embedded:logo.gif", "embedded:logo.gif", namesakeBytes⟩
  else ⟨"embedded:logo.gif", "logo.gif", emblemBytes⟩

theorem reached_namesake {accessor : Accessor} (hserved : accessor ∈ namesakes.accessors) :
    Reached (pagePlan.context namesakes none) accessor (namesakeOf accessor)
      ("data:" ++ "image/gif" ++ ";base64," ++ String.ofList (Base64.encode (namesakeOf accessor).bytes)) := by
  have hgif : ∀ accessor ∈ namesakes.accessors, accessor.embed = true ∧ (namesakeOf accessor).bytes.length < 65536 ∧
      (Image.sniff? (namesakeOf accessor).bytes).map (·.format.mimeType) = some "image/gif" := by decide +kernel
  obtain ⟨hembed, hsmall, hsniff⟩ := hgif accessor hserved
  obtain ⟨header, hheader, hmime⟩ := Option.map_eq_some_iff.1 hsniff
  exact ⟨header, hheader, hmime ▸ .inline hembed hsmall (Base64.spells_encode _)⟩

theorem showsOwn_iff_namesakes : ∃ expression resource url,
    ShowsByKey pagePlan namesakes none namesakesWorld ⟨"image"⟩ namesakes.accessors expression resource url ∧
    (∀ accessor ∈ namesakes.accessors, resource accessor = namesakeOf accessor) ∧
    ¬ ∀ accessor ∈ namesakes.accessors,
      ShowsOwn pagePlan namesakes none namesakesWorld accessor (resource accessor) (expression accessor) := by
  have htask : ⟨⟨⟨"image"⟩, .image⟩, namesakes.accessors⟩ ∈ tasksOf pagePlan namesakes := List.mem_cons_self
  have hrun : (run pagePlan namesakes none namesakesWorld).result =
      .generated ⟨⟨"crate::Namesakes"⟩, none, "crate::NamesakesImpl", none⟩ := by decide +kernel
  have hone : ∀ handling ∈ handlings pagePlan namesakes none namesakesWorld,
      (handling.session.resolve (pagePlan.context namesakes none) handling.accessor
        (handling.accessor.effectiveLocale none)).1 = .ok (namesakeOf handling.accessor) := by decide +kernel
  obtain ⟨_, expression, _, _, -, hshows⟩ := showsOwn_iff_of_generated (by decide) hrun
  obtain ⟨resource, url, hshows, hiff⟩ := hshows _ _ htask
  have hresource : ∀ accessor ∈ namesakes.accessors, resource accessor = namesakeOf accessor := by
    intro accessor hserved
    rw [← hshows.handled] at hserved
    obtain ⟨handling, hmem, rfl⟩ := List.mem_map.1 hserved
    exact Except.ok.inj ((hshows.found handling hmem).symm.trans (hone handling (List.mem_filter.1 hmem).1))
  refine ⟨expression, resource, url, hshows, hresource, fun hown => ?_⟩
  have hpayload : namesakes.accessors[0] ∈ namesakes.accessors := List.getElem_mem _
  have hfile : namesakes.accessors[1] ∈ namesakes.accessors := List.getElem_mem _
  have hagree := hiff.1 hown _ hfile _ hpayload
  rw [hresource _ hpayload, hresource _ hfile] at hagree
  -- The file would have the URL of the payload.
  have hsame := (hagree rfl rfl _ (reached_namesake hpayload)).unique (reached_namesake hfile)
  exact absurd hsame (by decide +kernel)

end BundleForge.Pass
