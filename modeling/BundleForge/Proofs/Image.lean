import BundleForge.Generator.Image
import BundleForge.Proofs.Generator
import BundleForge.Proofs.Implementation.Names
import BundleForge.Proofs.OrderedMap
import BundleForge.Proofs.Url
/-!
# The table of an image generator

A generator that starts with an empty memory works on a single table. Preparing an accessor adds at most one
image to the table, under a key that tells origins and decisions on embedding apart, and notes how the accessor
shows its image. Defining fields gives each image a static field that is initialized with the expression for
its URL; and an accessor is answered with the field of its image and with its own size.
-/

namespace BundleForge

namespace OrderedMap

universe u v

variable {κ : Type u} {ν : Type v} [DecidableEq κ]

theorem entries_ofList {entries : List (κ × ν)} (h : (entries.map Prod.fst).Nodup) :
    (ofList entries).entries = entries := by
  -- From the end, as entries are inserted after those before them.
  induction entries using List.reverseRecOn with
  | nil => rfl
  | append_singleton rest last ih =>
    rw [List.map_append, List.nodup_append] at h
    have hrest := ih h.1
    have hnew : last.1 ∉ (ofList rest).entries.map Prod.fst := by
      rw [hrest]
      intro hmem
      exact h.2.2 _ hmem _ List.mem_cons_self rfl
    have hlast : ofList (rest ++ [last]) = (ofList rest).insert last.1 last.2 := by
      rw [ofList, List.foldl_append]
      rfl
    have hput : ((ofList rest).insert last.1 last.2).entries = (ofList rest).entries ++ [last] :=
      put_of_not_mem hnew
    rw [hlast, hput, hrest]

end OrderedMap

namespace Generator

def ImageMemory.only (table : ImageTable) : ImageMemory := ⟨[table], some 0⟩

theorem table?_only (table : ImageTable) : (ImageMemory.only table).table? = .ok table := rfl

theorem setTable_only (table other : ImageTable) :
    (ImageMemory.only table).setTable other = .only other := rfl

/-! ### Keys -/

/-- The key of an image: the origin of its resource, and whether it must not be embedded. -/
def imageKey (origin : String) (embed : Bool) : String := origin ++ ":" ++ toString (!embed)

theorem imageKey_inj {origin origin' : String} {embed embed' : Bool}
    (h : imageKey origin embed = imageKey origin' embed') : origin = origin' ∧ embed = embed' := by
  have hkeys := congrArg (fun key => key.toList.reverse) h
  simp only [imageKey, String.toList_append, List.reverse_append] at hkeys
  -- The words for the two decisions end alike, but only in one letter.
  have hends : ∀ rest rest' : List Char,
      (toString true).toList.reverse ++ rest ≠ (toString false).toList.reverse ++ rest' := by
    intro rest rest' heq
    obtain ⟨-, hsecond⟩ := List.cons.inj (show 'e' :: 'u' :: 'r' :: 't' :: rest =
      'e' :: 's' :: 'l' :: 'a' :: 'f' :: rest' from heq)
    exact absurd (List.cons.inj hsecond).1 (by decide)
  have hembed : embed = embed' := by
    cases embed <;> cases embed'
    · rfl
    · exact absurd hkeys (hends _ _)
    · exact absurd hkeys.symm (hends _ _)
    · rfl
  subst hembed
  have horigins := List.append_cancel_left (List.append_cancel_left hkeys)
  exact ⟨String.toList_inj.1 (List.reverse_injective horigins), rfl⟩

/-! ### Preparing -/

def ImageUse.of (accessor : Accessor) (resource : Resource) (header : Image.Header) : ImageUse :=
  let (width, height) :=
    Image.displaySize header.width header.height accessor.width accessor.height
  ⟨resource.origin, Generator.imageKey resource.origin accessor.embed, width, height,
    header.animated, header.lossy⟩

/-- The images after an accessor is prepared: those there were, and one with a URL of the payload unless there
was one under its key. -/
inductive Gains (images : OrderedMap String DeployedImage) (key : String) (addressed : String → Prop) :
    OrderedMap String DeployedImage → Prop
  | known (old : images.contains key = true) : Gains images key addressed images
  | new {url : String} (old : images.contains key = false) (addresses : addressed url) :
      Gains images key addressed (images.insert key ⟨Literal.stringExpression url, none⟩)

theorem Gains.get? {images later : OrderedMap String DeployedImage} {key : String}
    {addressed : String → Prop} (h : Gains images key addressed later) {other : String}
    {image : DeployedImage} (hget : later.get? other = some image) :
    images.get? other = some image ∨
      other = key ∧ ∃ url, addressed url ∧ image = ⟨Literal.stringExpression url, none⟩ := by
  cases h with
  | known old => exact Or.inl hget
  | new old addresses =>
    rw [OrderedMap.get?_insert] at hget
    split at hget
    · rename_i hkey
      exact Or.inr ⟨hkey, _, addresses, (Option.some.inj hget).symm⟩
    · exact Or.inl hget

theorem Gains.keys {images later : OrderedMap String DeployedImage} {key : String}
    {addressed : String → Prop} (h : Gains images key addressed later) :
    later.keys = if key ∈ images.keys then images.keys else images.keys ++ [key] := by
  cases h with
  | known old => rw [if_pos (OrderedMap.contains_iff.1 old)]
  | new old addresses => exact OrderedMap.keys_insert _ _ _

theorem Gains.mem_keys {images later : OrderedMap String DeployedImage} {key : String}
    {addressed : String → Prop} (h : Gains images key addressed later) :
    key ∈ later.keys ∧ ∀ other ∈ images.keys, other ∈ later.keys := by
  rw [h.keys]
  split
  · rename_i hmem
    exact ⟨hmem, fun _ hother => hother⟩
  · exact ⟨List.mem_append_right _ List.mem_cons_self, fun _ hother => List.mem_append_left _ hother⟩

theorem deployImage_eq_ok {context : Context} {session next : Session} {table later : ImageTable}
    {key : String} {resource : Resource} {format : Image.Format} {embed : Bool}
    (h : deployImage context session table key resource format (!embed) = (.ok later, next)) :
    ∃ images, later = ⟨images, table.uses⟩ ∧ Gains table.images key
      (context.deployment.Addresses resource.fileName format.mimeType resource.bytes embed) images := by
  unfold deployImage Session.deploy at h
  split at h
  · rename_i hold
    obtain ⟨rfl, -⟩ := Prod.mk.inj h |>.imp_left Except.ok.inj
    exact ⟨_, rfl, .known hold⟩
  · rename_i hnew
    dsimp only at h
    cases hurl : (context.deployment.url session.files resource.fileName format.mimeType resource.bytes
        (!embed)).1 with
    | error error => simp [hurl, Except.map] at h
    | ok url =>
      simp only [hurl, Except.map] at h
      obtain ⟨rfl, -⟩ := Prod.mk.inj h |>.imp_left Except.ok.inj
      exact ⟨_, rfl, .new (Bool.not_eq_true _ ▸ hnew) (Deployment.addresses_of_url hurl)⟩

/-- One accessor is prepared: its image is in the table with a note on how it is shown, or the call has failed
and the table is as it was. -/
theorem prepare_image (accessor : Accessor) (locale : Option String) (context : Context)
    (session : Session) (table : ImageTable) :
    (∃ next resource header images, (session.resolve context accessor locale).1 = .ok resource ∧
      Image.sniff? resource.bytes = some header ∧
      Gains table.images (imageKey resource.origin accessor.embed)
        (context.deployment.Addresses resource.fileName header.format.mimeType resource.bytes
          accessor.embed) images ∧
      image.prepare accessor locale context session (.only table) =
        (.ok (), next, .only ⟨images, table.uses.insert accessor.name (.of accessor resource header)⟩)) ∨
    ∃ next error,
      image.prepare accessor locale context session (.only table) = (.error error, next, .only table) := by
  rcases hresolve : session.resolve context accessor locale with ⟨result, found⟩
  cases result with
  | error error =>
    refine Or.inr ⟨found, error, ?_⟩
    simp only [image, hresolve]
  | ok resource =>
    cases hheader : Image.sniff? resource.bytes with
    | none =>
      refine Or.inr ⟨found, .unknownImage resource.origin, ?_⟩
      simp only [image, hresolve, hheader]
    | some header =>
      have hkey : imageKey resource.origin accessor.embed =
        resource.origin ++ ":" ++ toString (!accessor.embed) := rfl
      rcases hdeploy : deployImage context found table (imageKey resource.origin accessor.embed) resource
        header.format (!accessor.embed) with ⟨deployed, next⟩
      cases deployed with
      | error error =>
        refine Or.inr ⟨next, error, ?_⟩
        simp only [image, hresolve, hheader, table?_only, ← hkey, hdeploy]
      | ok later =>
        obtain ⟨images, rfl, hgains⟩ := deployImage_eq_ok hdeploy
        refine Or.inl ⟨next, resource, header, images, rfl, hheader, hgains, ?_⟩
        simp only [image, hresolve, hheader, table?_only, ← hkey, hdeploy, setTable_only]
        rfl

/-! ### Defining fields -/

def imageStatic (ident urlExpression : String) : Field :=
  ⟨ident, "::std::string::String", some urlExpression, true, true⟩

theorem run_defineImages_some (key url ident : String) (images : List (String × DeployedImage))
    (registry : FieldRegistry) :
    (defineImages ((key, ⟨url, some ident⟩) :: images)).run registry =
      let last := (defineImages images).run registry
      ((key, ⟨url, some ident⟩) :: last.1, last.2) := by
  rw [defineImages]
  exact run_bind (defineImages images) (fun rest => pure ((key, _) :: rest)) registry

theorem run_defineImages_none (key url : String) (images : List (String × DeployedImage))
    (registry : FieldRegistry) :
    (defineImages ((key, ⟨url, none⟩) :: images)).run registry =
      let request := imageField url
      let last := (defineImages images).run (registry.define request)
      ((key, ⟨url, some (registry.identFor request)⟩) :: last.1, last.2) := by
  rw [defineImages, run_bind]
  exact run_bind (defineImages images) (fun rest => pure ((key, _) :: rest)) (registry.define (imageField url))

/-- Every image gets a static field of its own, and nothing else is defined. -/
theorem run_defineImages {images : List (String × DeployedImage)} (hkeys : (images.map Prod.fst).Nodup)
    (hnone : ∀ entry ∈ images, entry.2.field = none) (registry : FieldRegistry) :
    ∃ ident : String → String,
      ((defineImages images).run registry).1 =
        images.map (fun entry => (entry.1, ⟨entry.2.urlExpression, some (ident entry.1)⟩)) ∧
      ((defineImages images).run registry).2.fields = registry.fields ++
        images.map (fun entry => imageStatic (ident entry.1) entry.2.urlExpression) ∧
      ∀ entry ∈ images, Lexical.IsPath (ident entry.1).toList := by
  induction images generalizing registry with
  | nil => exact ⟨id, rfl, (List.append_nil _).symm, fun entry hentry => absurd hentry List.not_mem_nil⟩
  | cons entry rest ih =>
    obtain ⟨key, url, field⟩ := entry
    rw [List.map_cons, List.nodup_cons] at hkeys
    rw [List.forall_mem_cons] at hnone
    obtain ⟨rfl, hrest⟩ := hnone
    obtain ⟨ident, himages, hfields, hpaths⟩ := ih hkeys.2 hrest (registry.define (imageField url))
    have hself := Function.update_self key (registry.identFor (imageField url)) ident
    -- The images after this one have other keys, so their fields are named as before.
    have hothers : ∀ other ∈ rest,
        Function.update ident key (registry.identFor (imageField url)) other.1 = ident other.1 := by
      intro other hother
      have hmem : other.1 ∈ rest.map Prod.fst := List.mem_map_of_mem hother
      have hne : other.1 ≠ key := fun heq => hkeys.1 (heq ▸ hmem)
      exact Function.update_of_ne hne _ _
    refine ⟨Function.update ident key (registry.identFor (imageField url)), ?_, ?_, ?_⟩
    · rw [run_defineImages_none]
      dsimp only
      rw [himages, List.map_cons, hself]
      refine congrArg (List.cons _) (List.map_congr_left fun other hother => ?_)
      rw [hothers other hother]
    · rw [run_defineImages_none]
      dsimp only
      rw [hfields, FieldRegistry.fields_define_eq, List.append_assoc, List.map_cons, hself]
      refine congrArg (registry.fields ++ List.cons _ ·) (List.map_congr_left fun other hother => ?_)
      rw [hothers other hother]
    · rw [List.forall_mem_cons, hself]
      refine ⟨FieldRegistry.isPath_identFor (show Lexical.IsPath "externalImage".toList by decide) registry, ?_⟩
      intro other hother
      rw [hothers other hother]
      exact hpaths other hother

theorem run_createFields_image (table : ImageTable) (context : Context) (session : Session)
    (registry : FieldRegistry) :
    (image.createFields registry context session (.only table)).run registry =
      let defined := (defineImages table.images.entries).run registry
      ((.ok (), session, .only ⟨.ofList defined.1, table.uses⟩), defined.2) :=
  run_bind _ _ _

theorem createFields_image {table : ImageTable}
    (hnone : ∀ key image, table.images.get? key = some image → image.field = none)
    (context : Context) (session : Session) (registry : FieldRegistry) :
    ∃ (ident : String → String) (images : OrderedMap String DeployedImage) (fields : FieldRegistry),
      (image.createFields registry context session (.only table)).run registry =
        ((.ok (), session, .only ⟨images, table.uses⟩), fields) ∧
      (∀ key image, table.images.get? key = some image →
        images.get? key = some ⟨image.urlExpression, some (ident key)⟩ ∧ Lexical.IsPath (ident key).toList) ∧
      fields.fields = registry.fields ++
        table.images.entries.map fun entry => imageStatic (ident entry.1) entry.2.urlExpression := by
  have hentries : ∀ entry ∈ table.images.entries, entry.2.field = none := by
    intro entry hentry
    exact hnone entry.1 entry.2 (OrderedMap.get?_eq_some_iff.2 hentry)
  obtain ⟨ident, himages, hfields, hpaths⟩ := run_defineImages table.images.nodup_keys hentries registry
  refine ⟨ident, _, _, run_createFields_image table context session registry, fun key image hget => ?_,
    hfields⟩
  have hmem := OrderedMap.get?_eq_some_iff.1 hget
  refine ⟨?_, hpaths _ hmem⟩
  rw [himages, OrderedMap.get?_eq_some_iff, OrderedMap.entries_ofList]
  · exact List.mem_map_of_mem hmem
  · rw [List.map_map]
    exact table.images.nodup_keys

/-! ### Answering -/

def sayImage (context : Context) (memory : ImageMemory) (accessor : Accessor) (_ : Option String) :
    Except ResourceError String := do
  let table ← memory.table?
  let use ←
    match table.uses.get? accessor.name with
    | some use => .ok use
    | none => .error (notPrepared accessor)
  let field ←
    match (table.images.get? use.imageKey).bind (·.field) with
    | some field => .ok field
    | none => .error (.generation s!"no image field was created for {accessor.name}")
  return context.originComment use.origin ++ imageExpression accessor.name field use

theorem sayImage_only {table : ImageTable} {accessor : Accessor} {use : ImageUse}
    {url ident : String} (huse : table.uses.get? accessor.name = some use)
    (himage : table.images.get? use.imageKey = some ⟨url, some ident⟩) (context : Context)
    (locale : Option String) :
    sayImage context (.only table) accessor locale =
      .ok (context.originComment use.origin ++ imageExpression accessor.name ident use) := by
  simp only [sayImage, table?_only, bind, Except.bind, huse, himage, Option.bind]
  rfl

end Generator

end BundleForge
