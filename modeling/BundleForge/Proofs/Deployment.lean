import BundleForge.Deployment
import BundleForge.Proofs.FileName
import BundleForge.Proofs.FileSystem.Puts
/-!
# What a deployment does to the files

A payload that is not inlined goes to the deployment directory, unless its path leads to something already.
Whatever becomes of it, at most one file is put for it, and never one that is named like a generated source.
-/

namespace BundleForge

/-- A place for a file that is named like a generated source. -/
def FileSystem.IsSource (place : Place) : Prop :=
  ∃ name above, place = name :: above ∧ sourceEnding <:+ name.toList

open FileSystem (Puts Grows IsSource)

namespace Deployment

variable {deployment : Deployment} {files : FileSystem} {fileName : String} {data : Bytes}

def payloadPath (dir : Path) (fileName : String) (data : Bytes) : Path :=
  dir.join ⟨hashedName fileName data⟩

/-- The files after a payload was handed to the deployment. -/
def deposit (deployment : Deployment) (files : FileSystem) (fileName : String) (data : Bytes) :
    FileSystem :=
  match deployment with
  | .inline => files
  | .external dir _ => (store files dir (payloadPath dir fileName data) data).2

/-- The path of the payload leads nowhere yet, and the payload can be written. -/
def Writes (files : FileSystem) (dir : Path) (fileName : String) (data : Bytes) : Prop :=
  files.pathExists (payloadPath dir fileName data) = false ∧
    (store files dir (payloadPath dir fileName data) data).1 = .ok ()

theorem files_url (deployment : Deployment) (files : FileSystem) (fileName mimeType : String)
    (data : Bytes) (forceExternal : Bool) :
    (deployment.url files fileName mimeType data forceExternal).2 =
      if forceExternal = false ∧ data.length < inlineLimit then files
      else deployment.deposit files fileName data := by
  unfold url deposit
  simp only [Bool.and_eq_true, Bool.not_eq_true', decide_eq_true_eq]
  split
  · rfl
  · cases deployment with
    | inline => rfl
    | external dir urlPrefix =>
      dsimp only [payloadPath]
      split
      · rename_i hstored
        rw [hstored]
      · rename_i hstored
        rw [hstored]

theorem not_isSource {dir : Path} {name : String} {above : Place}
    (hname : (payloadPath dir fileName data).segments.getLast? = some name) :
    ¬ IsSource (name :: above) := by
  rintro ⟨_, _, hsame, hsource⟩
  obtain ⟨rfl, rfl⟩ := List.cons.inj hsame
  obtain ⟨before, hjoin⟩ := Path.suffix_join dir ⟨hashedName fileName data⟩
  refine not_suffix_hashedName fileName data before ?_
  rw [hjoin]
  exact hsource.trans (Path.suffix_of_segment hname)

/-- One file is put for a payload that is written, and none for any other. -/
theorem puts_store (files : FileSystem) (dir : Path) (fileName : String) (data : Bytes) :
    (Writes files dir fileName data ∧ ∃ place, ¬ IsSource place ∧
      (store files dir (payloadPath dir fileName data) data).2.locate
        (payloadPath dir fileName data) = .ok place ∧
      Puts files [(place, data)] (store files dir (payloadPath dir fileName data) data).2) ∨
    ¬ Writes files dir fileName data ∧
      Puts files [] (store files dir (payloadPath dir fileName data) data).2 := by
  unfold Writes store
  split
  · rename_i hexists
    right
    refine ⟨fun h => ?_, .nil files⟩
    rw [hexists] at h
    exact Bool.noConfusion h.1
  · rename_i hnew
    rw [Bool.not_eq_true] at hnew
    have hdirectories := FileSystem.puts_createDirectories files dir
    split
    · rename_i hfailed
      rw [hfailed] at hdirectories
      exact Or.inr ⟨by simp, hdirectories⟩
    · rename_i ready hready
      rw [hready] at hdirectories
      split
      · rename_i written hwritten
        left
        obtain ⟨name, above, hname, hlocate, -, hputs⟩ := FileSystem.exists_place_of_write hwritten
        exact ⟨⟨hnew, rfl⟩, name :: above, not_isSource hname, hlocate, hdirectories.append hputs⟩
      · exact Or.inr ⟨by simp, hdirectories⟩

theorem grows_deposit (deployment : Deployment) (files : FileSystem) (fileName : String)
    (data : Bytes) : Grows IsSource files (deployment.deposit files fileName data) := by
  cases deployment with
  | inline => exact .refl files
  | external dir urlPrefix =>
    rcases puts_store files dir fileName data with ⟨-, place, hplace, -, hputs⟩ | ⟨-, hputs⟩
    · apply hputs.grows_of_one.mono
      rintro other hother rfl
      exact hplace hother
    · exact hputs.grows.mono fun _ _ _ => List.not_mem_nil

theorem grows_url (deployment : Deployment) (files : FileSystem) (fileName mimeType : String)
    (data : Bytes) (forceExternal : Bool) :
    Grows IsSource files (deployment.url files fileName mimeType data forceExternal).2 := by
  rw [files_url]
  split
  · exact .refl files
  · exact deployment.grows_deposit files fileName data

end Deployment

end BundleForge
