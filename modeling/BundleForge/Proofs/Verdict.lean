import BundleForge.Proofs.Image
import BundleForge.Proofs.Oblivious
import BundleForge.Proofs.Pass.Handlings
/-!
# Verdicts on accessors

A generator that embeds all payloads judges an accessor by its resource alone, if embedded images of the same origin
are alike small enough. It is in the same mind about the accessor whatever it has prepared before, although the image
generator deploys an image only once: an image that is deployed already has the origin of the new one, and was found
small enough. `Generator.Judges` says so, with the verdict as a function of the resource.
-/

namespace BundleForge

variable {files : FileSystem} {search : SearchPath}

namespace Generator

open Running (error?)

abbrev Judgement := Accessor → Except ResourceError Resource → Option ResourceError

/-- The generator judges accessors by their resources alone, as long as it only sees certain resources with certain
decisions on embedding, and has a fair memory whenever it is called. An accessor it has nothing against goes through
all phases. -/
structure Judges (generator : Generator) (files : FileSystem) (search : SearchPath) (Seen : Bool → Resource → Prop)
    (Fair : generator.Memory → Prop) (judge : Judgement) : Prop where
  init : ∀ (context) {session id}, session.active = some id → session.Over files search →
    ∃ next memory, generator.init context session generator.fresh = (.ok (), next, memory) ∧
      next.Over files search ∧ Fair memory
  prepare : ∀ (context accessor locale) {session memory}, context.deployment = .inline →
    session.Over files search → Fair memory →
    (∀ resource, search.resource files context.bundle accessor
      (context.hierarchy.defaultExtensions accessor.kind) locale = .ok resource → Seen accessor.embed resource) →
    ∃ result next last, generator.prepare accessor locale context session memory = (result, next, last) ∧
      next.Over files search ∧ Fair last ∧
      error? result = judge accessor (search.resource files context.bundle accessor
        (context.hierarchy.defaultExtensions accessor.kind) locale)
  emit : ∀ {context session memory accessor locale next last}, Fair memory →
    generator.prepare accessor locale context session memory = (.ok (), next, last) → ∀ now registry,
    ∃ later kept fields, (generator.createFields registry context now last).run registry =
        ((.ok (), later, kept), fields) ∧
      ∃ expression, ∀ asking, ∃ rest,
        generator.createAssignment accessor locale context asking kept = (.ok expression, rest)
  finish : ∀ context session memory, (generator.finish context session memory).1 = .ok ()

/-- There is no resource, or something is wrong with it. -/
def fault (check : Resource → Option ResourceError) : Except ResourceError Resource → Option ResourceError
  | .error error => some error
  | .ok resource => check resource

/-! ### Bundles and texts -/

variable {Seen : Bool → Resource → Prop}

theorem judges_nested : nested.Judges files search Seen (fun _ => True) fun _ _ => none where
  init _ _ _ _ h := ⟨_, _, rfl, h, trivial⟩
  prepare _ _ _ _ _ _ h _ _ := ⟨_, _, _, rfl, h, trivial, rfl⟩
  emit _ _ _ _ := ⟨_, _, _, rfl, _, fun _ => ⟨_, rfl⟩⟩
  finish _ _ _ := rfl

def textFault (resource : Resource) : Option ResourceError :=
  if resource.bytes.text?.isSome then none else some (.notText resource.origin)

theorem judges_text : text.Judges files search Seen (fun _ => True) fun _ => fault textFault where
  init _ _ _ _ h := ⟨_, _, rfl, h, trivial⟩
  prepare context accessor locale _ _ _ h _ _ := by
    obtain ⟨next, hresolve, hnext, -⟩ := h.exists_resolve context accessor locale
    cases hfound : search.resource files context.bundle accessor
      (context.hierarchy.defaultExtensions accessor.kind) locale with
    | error error =>
      rw [hfound] at hresolve
      simp only [text, hresolve]
      exact ⟨_, _, _, rfl, hnext, trivial, rfl⟩
    | ok resource =>
      rw [hfound] at hresolve
      simp only [text, hresolve, fault, textFault]
      cases resource.bytes.text? with
      | none => exact ⟨_, _, _, rfl, hnext, trivial, rfl⟩
      | some content => exact ⟨_, _, _, rfl, hnext, trivial, rfl⟩
  emit {context session} {memory : OrderedMap String PreparedText} {accessor locale next last} _ hprepare now
      registry := by
    refine ⟨now, last, registry, rfl, ?_⟩
    simp only [text] at hprepare
    split at hprepare
    · simp at hprepare
    · split at hprepare
      · simp at hprepare
      · obtain rfl := (Prod.mk.inj (Prod.mk.inj hprepare).2).2
        simp only [text, OrderedMap.get?_insert_self]
        exact ⟨_, fun _ => ⟨_, rfl⟩⟩
  finish _ _ _ := rfl

/-! ### Data -/

/-- A payload that cannot be part of its URL. -/
def sizeFault (embed : Bool) (resource : Resource) : Option ResourceError :=
  if embed = true ∧ resource.bytes.length < Deployment.inlineLimit then none
  else some (.inlineLimit resource.fileName resource.bytes.length Deployment.inlineLimit)

theorem exists_deploy {context : Context} (hinline : context.deployment = .inline) (session : Session)
    (resource : Resource) (mimeType : String) (embed : Bool) :
    ∃ result, session.deploy context resource.fileName mimeType resource.bytes (!embed) = (result, session) ∧
      error? result = sizeFault embed resource := by
  unfold Session.deploy Deployment.url sizeFault
  simp only [hinline, Bool.not_not, Bool.and_eq_true, decide_eq_true_eq]
  split <;> exact ⟨_, rfl, rfl⟩

theorem judges_data : data.Judges files search Seen (fun _ => True) fun accessor => fault (sizeFault accessor.embed) where
  init _ _ _ _ h := ⟨_, _, rfl, h, trivial⟩
  prepare context accessor locale _ _ hinline h _ _ := by
    obtain ⟨next, hresolve, hnext, -⟩ := h.exists_resolve context accessor locale
    cases hfound : search.resource files context.bundle accessor
      (context.hierarchy.defaultExtensions accessor.kind) locale with
    | error error =>
      rw [hfound] at hresolve
      simp only [data, hresolve]
      exact ⟨_, _, _, rfl, hnext, trivial, rfl⟩
    | ok resource =>
      rw [hfound] at hresolve
      obtain ⟨result, hdeploy, herror⟩ := exists_deploy hinline next resource
        (accessor.mimeType.getD (Mime.ofFileName resource.fileName)) accessor.embed
      simp only [data, hresolve, hdeploy, fault, ← herror]
      cases result with
      | error error => exact ⟨_, _, _, rfl, hnext, trivial, rfl⟩
      | ok url => exact ⟨_, _, _, rfl, hnext, trivial, rfl⟩
  emit {context session} {memory : OrderedMap String DeployedData} {accessor locale next last} _ hprepare now
      registry := by
    refine ⟨now, last, registry, rfl, ?_⟩
    simp only [data] at hprepare
    split at hprepare
    · simp at hprepare
    · split at hprepare
      · simp at hprepare
      · obtain rfl := (Prod.mk.inj (Prod.mk.inj hprepare).2).2
        simp only [data, OrderedMap.get?_insert_self]
        exact ⟨_, fun _ => ⟨_, rfl⟩⟩
  finish _ _ _ := rfl

/-! ### Images -/

def imageFault (embed : Bool) (resource : Resource) : Option ResourceError :=
  if (Image.sniff? resource.bytes).isSome then sizeFault embed resource
  else some (.unknownImage resource.origin)

/-- Embedded images of the same origin are alike small enough for that. -/
def AlikeSmall (Seen : Bool → Resource → Prop) : Prop :=
  ∀ resource other, Seen true resource → Seen true other → resource.origin = other.origin →
    (Image.sniff? resource.bytes).isSome → (Image.sniff? other.bytes).isSome →
      resource.bytes.length < Deployment.inlineLimit → other.bytes.length < Deployment.inlineLimit

/-- Every image is that of a resource which was seen and found small enough. It has no field yet. -/
def FairImages (Seen : Bool → Resource → Prop) (images : OrderedMap String DeployedImage) : Prop :=
  ∀ key image, images.get? key = some image → image.field = none ∧
    ∃ resource embed, Seen embed resource ∧ key = imageKey resource.origin embed ∧
      (Image.sniff? resource.bytes).isSome ∧ sizeFault embed resource = none

/-- The memory of an image generator between its calls. -/
def FairMemory (Seen : Bool → Resource → Prop) (memory : ImageMemory) : Prop :=
  ∃ table, memory = .only table ∧ FairImages Seen table.images

theorem sizeFault_eq_none_iff {embed : Bool} {resource : Resource} :
    sizeFault embed resource = none ↔ embed = true ∧ resource.bytes.length < Deployment.inlineLimit := by
  rw [sizeFault]
  split <;> simp_all

/-- An image is deployed exactly if nothing is wrong with it, also if one was deployed under its key before. -/
theorem exists_deployImage {context : Context} (hinline : context.deployment = .inline) (halike : AlikeSmall Seen)
    {table : ImageTable} (hfair : FairImages Seen table.images) {resource : Resource} {embed : Bool}
    (hseen : Seen embed resource) (hsniff : (Image.sniff? resource.bytes).isSome) (session : Session)
    (format : Image.Format) :
    ∃ result, deployImage context session table (imageKey resource.origin embed) resource format (!embed) =
        (result, session) ∧ error? result = sizeFault embed resource ∧
      ∀ later, result = .ok later → FairImages Seen later.images := by
  unfold deployImage
  split
  · rename_i hknown
    refine ⟨_, rfl, ?_, fun later hlater => Except.ok.inj hlater ▸ hfair⟩
    rw [OrderedMap.contains_iff, OrderedMap.mem_keys_iff] at hknown
    obtain ⟨image, himage⟩ := hknown
    obtain ⟨-, other, _, hother, hkey, hsniff', hnone⟩ := hfair _ image himage
    obtain ⟨horigin, rfl⟩ := imageKey_inj hkey
    obtain ⟨rfl, hsmall⟩ := sizeFault_eq_none_iff.1 hnone
    exact (sizeFault_eq_none_iff.2
      ⟨rfl, halike other resource hother hseen horigin.symm hsniff' hsniff hsmall⟩).symm
  · obtain ⟨result, hdeploy, herror⟩ := exists_deploy hinline session resource format.mimeType embed
    rw [hdeploy]
    cases result with
    | error error => exact ⟨_, rfl, herror, fun later hlater => by simp at hlater⟩
    | ok url =>
      refine ⟨_, rfl, herror, fun later hlater key image hget => ?_⟩
      obtain rfl := Except.ok.inj hlater
      rw [OrderedMap.get?_insert] at hget
      split at hget
      · rename_i hkey
        obtain rfl := Option.some.inj hget
        exact ⟨rfl, resource, embed, hseen, hkey, hsniff, herror.symm⟩
      · exact hfair key image hget

theorem judges_image (halike : AlikeSmall Seen) :
    image.Judges files search Seen (FairMemory Seen) fun accessor => fault (imageFault accessor.embed) where
  init context _ _ hactive h := by
    simp only [image, Session.obtain, hactive]
    exact ⟨_, _, rfl, ⟨h.1, h.2, h.3⟩, .empty, rfl, fun key image hget => by simp [ImageTable.empty] at hget⟩
  prepare context accessor locale _ _ hinline h hfair hseen := by
    obtain ⟨next, hresolve, hnext, -⟩ := h.exists_resolve context accessor locale
    obtain ⟨table, rfl, himages⟩ := hfair
    cases hfound : search.resource files context.bundle accessor
      (context.hierarchy.defaultExtensions accessor.kind) locale with
    | error error =>
      rw [hfound] at hresolve
      simp only [image, hresolve]
      exact ⟨_, _, _, rfl, hnext, ⟨table, rfl, himages⟩, rfl⟩
    | ok resource =>
      rw [hfound] at hresolve
      cases hheader : Image.sniff? resource.bytes with
      | none =>
        simp only [image, hresolve, hheader, fault, imageFault]
        exact ⟨_, _, _, rfl, hnext, ⟨table, rfl, himages⟩, rfl⟩
      | some header =>
        obtain ⟨result, hdeploy, herror, hlater⟩ := exists_deployImage hinline halike himages
          (hseen resource hfound) (Option.isSome_iff_exists.2 ⟨header, hheader⟩) next header.format
        rw [imageKey] at hdeploy
        simp only [image, hresolve, hheader, table?_only, hdeploy, fault, imageFault, Option.isSome_some, if_true,
          ← herror]
        cases result with
        | error error => exact ⟨_, _, _, rfl, hnext, ⟨table, rfl, himages⟩, rfl⟩
        | ok later => exact ⟨_, _, _, rfl, hnext, ⟨_, rfl, hlater later rfl⟩, rfl⟩
  emit {context session memory accessor locale next last} hfair hprepare now registry := by
    obtain ⟨table, rfl, hfair⟩ := hfair
    rcases prepare_image accessor locale context session table with
      ⟨_, resource, header, images, -, -, hgains, hok⟩ | ⟨_, error, herror⟩
    · rw [hok] at hprepare
      obtain rfl := (Prod.mk.inj (Prod.mk.inj hprepare).2).2
      have hnone : ∀ key image, images.get? key = some image → image.field = none := by
        intro key image hget
        rcases hgains.get? hget with hold | ⟨-, _, -, rfl⟩
        · exact (hfair key image hold).1
        · rfl
      obtain ⟨ident, defined, fields, hrun, hnamed, -⟩ := @createFields_image
        ⟨images, table.uses.insert accessor.name (.of accessor resource header)⟩ hnone context now registry
      refine ⟨now, _, fields, hrun, ?_⟩
      obtain ⟨shown, hshown⟩ := OrderedMap.mem_keys_iff.1 hgains.mem_keys.1
      have huse := OrderedMap.get?_insert_self table.uses accessor.name (.of accessor resource header)
      have hsaid := @sayImage_only ⟨defined, _⟩ _ _ _ _ huse (hnamed _ shown hshown).1 context locale
      exact ⟨_, fun _ => ⟨_, Prod.ext hsaid rfl⟩⟩
    · rw [herror] at hprepare
      simp at hprepare
  finish _ _ _ := rfl

end Generator

theorem GeneratorKind.exists_judges {kind : GeneratorKind} (hkind : kind ∈ builtIn)
    {Seen : GeneratorKind → Bool → Resource → Prop} (halike : Generator.AlikeSmall (Seen .image)) :
    ∃ judge Fair, kind.generator.Judges files search (Seen kind) Fair judge := by
  simp only [builtIn, List.mem_cons, List.not_mem_nil, or_false] at hkind
  obtain rfl | rfl | rfl | rfl := hkind
  · exact ⟨_, _, Generator.judges_text⟩
  · exact ⟨_, _, Generator.judges_data⟩
  · exact ⟨_, _, Generator.judges_image halike⟩
  · exact ⟨_, _, Generator.judges_nested⟩

end BundleForge
