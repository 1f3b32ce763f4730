import BundleForge.Dispatch
import BundleForge.Proofs.Deployment
/-!
# What generators do to files

A generator changes files only by deploying payloads, which adds directories and files but never changes
a file that is named like a generated source. `KeepsSources` says so of all its phases, and holds of the
four generators there are.
-/

namespace BundleForge

open FileSystem (IsSource)

/-- Between two sessions no generated source has changed. -/
def Session.Grows (session later : Session) : Prop :=
  FileSystem.Grows IsSource session.files later.files

theorem Session.Grows.refl (session : Session) : session.Grows session :=
  FileSystem.Grows.refl session.files

theorem Session.Grows.trans {session middle later : Session} (h : session.Grows middle)
    (h' : middle.Grows later) : session.Grows later :=
  FileSystem.Grows.trans h h'

theorem Session.grows_deploy (session : Session) (context : Context) (fileName mimeType : String)
    (data : Bytes) (forceExternal : Bool) :
    session.Grows (session.deploy context fileName mimeType data forceExternal).2 :=
  context.deployment.grows_url session.files fileName mimeType data forceExternal

theorem Session.grows_resolve (session : Session) (context : Context) (accessor : Accessor)
    (locale : Option String) : session.Grows (session.resolve context accessor locale).2 :=
  Session.Grows.refl session

theorem Session.grows_obtain (session : Session) (key : String) (kind : SharedKind)
    (initial : kind.Carrier) : session.Grows (session.obtain key kind initial).2 := by
  rw [obtain]
  split <;> exact .refl session

namespace Generator

/-- Nothing a generator does in any phase changes a generated source. -/
structure KeepsSources (generator : Generator) : Prop where
  init : ∀ context (session : Session) memory,
    session.Grows (generator.init context session memory).2.1
  prepare : ∀ accessor locale context (session : Session) memory,
    session.Grows (generator.prepare accessor locale context session memory).2.1
  createFields : ∀ registry context (session : Session) memory fields,
    session.Grows ((generator.createFields registry context session memory).run fields).1.2.1
  createAssignment : ∀ accessor locale context (session : Session) memory,
    session.Grows (generator.createAssignment accessor locale context session memory).2.1
  finish : ∀ context (session : Session) memory,
    session.Grows (generator.finish context session memory).2.1

theorem keepsSources_nested : nested.KeepsSources := by
  constructor <;> intros <;> exact .refl _

theorem keepsSources_text : text.KeepsSources where
  init _ _ _ := .refl _
  prepare accessor locale context session memory := by
    have hresolve := session.grows_resolve context accessor locale
    dsimp only [text]
    split
    · rename_i hfound
      rwa [hfound] at hresolve
    · rename_i hfound
      rw [hfound] at hresolve
      split <;> exact hresolve
  createFields _ _ _ _ _ := .refl _
  createAssignment accessor _ _ _ memory := by
    dsimp only [text]
    split <;> exact .refl _
  finish _ _ _ := .refl _

theorem keepsSources_data : data.KeepsSources where
  init _ _ _ := .refl _
  prepare accessor locale context session memory := by
    have hresolve := session.grows_resolve context accessor locale
    dsimp only [data]
    split
    · rename_i hfound
      rwa [hfound] at hresolve
    · rename_i resource found hfound
      rw [hfound] at hresolve
      have hdeploy := found.grows_deploy context resource.fileName
        (accessor.mimeType.getD (Mime.ofFileName resource.fileName)) resource.bytes (!accessor.embed)
      split
      · rename_i hdeployed
        rw [hdeployed] at hdeploy
        exact hresolve.trans hdeploy
      · rename_i hdeployed
        rw [hdeployed] at hdeploy
        exact hresolve.trans hdeploy
  createFields _ _ _ _ _ := .refl _
  createAssignment accessor _ _ _ memory := by
    dsimp only [data]
    split <;> exact .refl _
  finish _ _ _ := .refl _

theorem grows_deployImage (context : Context) (session : Session) (table : ImageTable) (key : String)
    (resource : Resource) (format : Image.Format) (forceExternal : Bool) :
    session.Grows (deployImage context session table key resource format forceExternal).2 := by
  rw [deployImage]
  split
  · exact .refl session
  · have hdeploy := session.grows_deploy context resource.fileName format.mimeType resource.bytes
      forceExternal
    split
    · rename_i hdeployed
      rwa [hdeployed] at hdeploy
    · rename_i hdeployed
      rwa [hdeployed] at hdeploy

theorem run_bind {α β : Type} (program : FieldProgram α) (next : α → FieldProgram β)
    (fields : FieldRegistry) :
    (program >>= next).run fields = (next (program.run fields).1).run (program.run fields).2 := by
  induction program generalizing fields with
  | done result => rfl
  | define request rest ih => exact ih _ _

theorem fields_prefix_run {α : Type} (program : FieldProgram α) (registry : FieldRegistry) :
    registry.fields <+: (program.run registry).2.fields := by
  induction program generalizing registry with
  | done result => exact List.prefix_refl _
  | define request next ih =>
    have hdefined : registry.fields <+: (registry.define request).fields := by
      rw [registry.fields_define_eq request]
      exact List.prefix_append _ _
    exact hdefined.trans (ih _ _)

theorem keepsSources_image : image.KeepsSources where
  init context session memory := by
    have hobtain := session.grows_obtain (imageTableKey context) .imageTable
      memory.tables.length
    dsimp only [image]
    split
    · rename_i hfailed
      rwa [hfailed] at hobtain
    · rename_i hobtained
      rwa [hobtained] at hobtain
  prepare accessor locale context session memory := by
    have hresolve := session.grows_resolve context accessor locale
    dsimp only [image]
    split
    · rename_i hfound
      rwa [hfound] at hresolve
    · rename_i resource found hfound
      rw [hfound] at hresolve
      split
      · exact hresolve
      · exact hresolve
      · rename_i header table _ _
        have hdeploy := grows_deployImage context found table
          (resource.origin ++ ":" ++ toString (!accessor.embed)) resource header.format
          (!accessor.embed)
        split
        · rename_i hdeployed
          rw [hdeployed] at hdeploy
          exact hresolve.trans hdeploy
        · rename_i hdeployed
          rw [hdeployed] at hdeploy
          exact hresolve.trans hdeploy
  createFields _ context session memory fields := by
    dsimp only [image]
    split
    · exact .refl _
    · rw [run_bind]
      exact .refl _
  createAssignment _ _ _ _ _ := .refl _
  finish _ _ _ := .refl _

end Generator

end BundleForge
