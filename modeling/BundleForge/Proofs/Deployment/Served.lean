import BundleForge.Generator
import BundleForge.Proofs.Deployment.Names
/-!
# What is served under a deployed URL

A deployed file is named after the digest of its payload, and a file of that name is never written again:
whatever it holds already is served in place of the payload. So a URL serves its payload exactly if the file
was missing when the payload was deployed, or held it already. Nothing that is deployed later changes this.
-/

namespace BundleForge

open FileSystem (Grows)

namespace Deployment

variable {dir : Path} {fileName otherName : String} {data other : Bytes} {files later : FileSystem} {place : Place}

/-! ### Files that are found -/

theorem exists_follow_of_locate (h : files.locate (payloadPath dir fileName data) = .ok place) :
    (files.node? place).isSome = true ∧
      (dir.text ≠ "" → ∃ place, files.follow (files.start dir) dir.segments = .ok place) := by
  have hrelative := isAbsolute_hashedName fileName data
  obtain ⟨first, rest, hsegments, -, hup⟩ := exists_segments_hashedName fileName data
  have hstart : files.start (payloadPath dir fileName data) = files.start dir := by
    rw [FileSystem.start, FileSystem.start, payloadPath, Path.isAbsolute_join dir hrelative]
  rw [FileSystem.locate] at h
  split at h
  · simp at h
  · rw [hstart, payloadPath, Path.segments_join dir hrelative, hsegments] at h
    obtain ⟨above, hstem, hname⟩ := FileSystem.exists_follow_of_append h
    have hdirectory := FileSystem.isDirectoryAt_of_follow_cons hname
    constructor
    · refine FileSystem.isSome_of_follow hup ?_ hname
      rw [FileSystem.isDirectoryAt_iff.1 hdirectory, Option.isSome_some]
    · intro hdir
      rcases Path.segments_eq_stem hdir with hsame | hslash
      · exact ⟨above, by rw [hsame, hstem]⟩
      · refine ⟨above, ?_⟩
        rw [hslash, FileSystem.follow_append hstem, FileSystem.follow, if_pos hdirectory, if_pos (.inl rfl),
          FileSystem.follow]

theorem grows_store_of_locate (h : files.locate (payloadPath dir otherName other) = .ok place) :
    Grows (fun _ => True) files (store files dir (payloadPath dir fileName data) data).2 := by
  have hready := FileSystem.createDirectories_of_follow (exists_follow_of_locate h).2
  rw [store]
  split
  · exact .refl files
  · rename_i hnew
    rw [Bool.not_eq_true] at hnew
    split
    · rename_i cause ready hfailed
      rw [hfailed] at hready
      exact hready ▸ .refl _
    · rename_i ready hcreated
      rw [hcreated] at hready
      obtain rfl : ready = files := hready
      split
      · rename_i written hwritten
        exact FileSystem.grows_of_write_new hnew hwritten
      · exact .refl _

/-- A payload that is stored is found, and it is there unless something was found before. -/
theorem store_eq_ok (h : store files dir (payloadPath dir fileName data) data = (.ok (), later)) :
    ∃ place, later.locate (payloadPath dir fileName data) = .ok place ∧
      (files.pathExists (payloadPath dir fileName data) = true → later = files) ∧
      (files.pathExists (payloadPath dir fileName data) = false → later.node? place = some (.file data)) := by
  rw [store] at h
  split at h
  · rename_i hexists
    obtain rfl : files = later := (Prod.mk.inj h).2
    have hfound := hexists
    rw [FileSystem.pathExists] at hfound
    cases hlocate : files.locate (payloadPath dir fileName data) with
    | error cause =>
      rw [hlocate] at hfound
      exact absurd hfound Bool.false_ne_true
    | ok place => exact ⟨place, rfl, fun _ => rfl, fun hnew => absurd hexists (by simp [hnew])⟩
  · rename_i hnew
    split at h
    · simp at h
    · split at h
      · rename_i written hwritten
        obtain rfl : written = later := (Prod.mk.inj h).2
        obtain ⟨name, above, -, hlocate, hnode, -⟩ := FileSystem.exists_place_of_write hwritten
        exact ⟨name :: above, hlocate, fun hexists => absurd hexists hnew, fun _ => hnode⟩
      · simp at h

/-! ### Sequences of calls -/

/-- A payload that is to be made available. -/
structure Call where
  fileName : String
  mimeType : String
  data : Bytes
  forceExternal : Bool

namespace Call

/-- The payload must not be written into its URL, or is too long for that. -/
def Outside (call : Call) : Prop := call.forceExternal = true ∨ inlineLimit ≤ call.data.length

def path (call : Call) (dir : Path) : Path := payloadPath dir call.fileName call.data

def run (call : Call) (context : Context) (session : Session) : Except ResourceError String × Session :=
  session.deploy context call.fileName call.mimeType call.data call.forceExternal

/-- The digests of two payloads begin alike only if the payloads are the same. -/
def Apart (call other : Call) : Prop :=
  (Sha256.digest call.data).take 16 = (Sha256.digest other.data).take 16 → call.data = other.data

end Call

def afterCalls (context : Context) (session : Session) (calls : List Call) : Session :=
  calls.foldl (fun session call => (call.run context session).2) session

theorem afterCalls_append (context : Context) (session : Session) (earlier calls : List Call) :
    afterCalls context session (earlier ++ calls) =
      afterCalls context (afterCalls context session earlier) calls := List.foldl_append

section Calls

variable {context : Context} {urlPrefix : String} {session : Session} {call : Call} {calls : List Call}

theorem grows_run (context : Context) (session : Session) (call : Call) :
    Grows (fun _ => False) session.files (call.run context session).2.files :=
  (context.deployment.grows_url session.files call.fileName call.mimeType call.data call.forceExternal).mono
    fun _ h => h.elim

theorem grows_afterCalls (context : Context) (session : Session) (calls : List Call) :
    Grows (fun _ => False) session.files (afterCalls context session calls).files := by
  induction calls generalizing session with
  | nil => exact .refl _
  | cons call rest ih => exact (grows_run context session call).trans (ih _)

variable (hexternal : context.deployment = .external dir urlPrefix)
include hexternal

theorem files_run (session : Session) (call : Call) :
    (call.run context session).2.files = session.files ∨
      (call.run context session).2.files = (store session.files dir (call.path dir) call.data).2 := by
  have hfiles := files_url context.deployment session.files call.fileName call.mimeType call.data call.forceExternal
  rw [hexternal] at hfiles
  have hrun : (call.run context session).2.files = (Deployment.url (.external dir urlPrefix) session.files
      call.fileName call.mimeType call.data call.forceExternal).2 := by
    rw [← hexternal]
    rfl
  rw [hrun, hfiles]
  split
  · exact Or.inl rfl
  · exact Or.inr rfl

/-- A payload outside of its URL has been stored when a URL is given for it. -/
theorem stored_of_run (houtside : call.Outside) {expression : String}
    (hanswer : (call.run context session).1 = .ok expression) :
    expression = Literal.stringExpression (urlPrefix ++ hashedName call.fileName call.data) ∧
      ∃ place, (call.run context session).2.files.locate (call.path dir) = .ok place ∧
        (session.files.pathExists (call.path dir) = true →
          (call.run context session).2.files = session.files) ∧
        (session.files.pathExists (call.path dir) = false →
          (call.run context session).2.files.node? place = some (.file call.data)) := by
  have hnot : ¬ (!call.forceExternal && decide (call.data.length < inlineLimit)) = true := by
    rw [Bool.and_eq_true, Bool.not_eq_true', decide_eq_true_eq, not_and_or, Bool.not_eq_false, Nat.not_lt]
    exact houtside
  unfold Call.run Session.deploy Deployment.url at hanswer ⊢
  rw [hexternal] at hanswer ⊢
  rw [if_neg hnot] at hanswer ⊢
  dsimp only at hanswer ⊢
  rcases hstore : store session.files dir (dir.join ⟨hashedName call.fileName call.data⟩) call.data with
    ⟨error | ⟨⟩, later⟩
  · rw [hstore] at hanswer
    simp [Except.map] at hanswer
  · rw [hstore] at hanswer
    exact ⟨(Except.ok.inj hanswer).symm, store_eq_ok hstore⟩

theorem grows_afterCalls_of_locate (h : session.files.locate (payloadPath dir otherName other) = .ok place)
    (calls : List Call) : Grows (fun _ => True) session.files (afterCalls context session calls).files := by
  induction calls generalizing session with
  | nil => exact .refl _
  | cons call rest ih =>
    have hstep : Grows (fun _ => True) session.files (call.run context session).2.files := by
      rcases files_run hexternal session call with hsame | hstore
      · rw [hsame]
        exact .refl _
      · rw [hstore]
        exact grows_store_of_locate h
    exact hstep.trans (ih (hstep.locate h))

/-- Calls whose payloads are apart from one of another call put no other file at its place. -/
theorem eq_of_afterCalls (hapart : ∀ other ∈ calls, other.Apart call)
    (hstart : ∀ content, session.files.node? (session.files.destination (call.path dir)) = some (.file content) →
      content = call.data) :
    ∀ content, (afterCalls context session calls).files.node? (session.files.destination (call.path dir)) =
      some (.file content) → content = call.data := by
  induction calls generalizing session with
  | nil => exact hstart
  | cons other rest ih =>
    rw [List.forall_mem_cons] at hapart
    have hplace := (grows_run context session other).destination (call.path dir)
    rw [← hplace]
    refine ih hapart.2 fun content hnode => ?_
    rw [hplace] at hnode
    rcases files_run hexternal session other with hsame | hstore
    · rw [hsame] at hnode
      exact hstart content hnode
    · rw [hstore] at hnode
      rcases puts_store session.files dir other.fileName other.data with ⟨-, written, -, hlocate, hputs⟩ | ⟨-, hputs⟩
      · rcases hputs.file_or_mem hnode with hold | hmem
        · exact hstart content hold
        · obtain ⟨rfl, rfl⟩ := Prod.mk.inj (List.mem_singleton.1 hmem)
          have hwritten := FileSystem.eq_destination_of_locate hlocate
          rw [hputs.grows.destination] at hwritten
          exact hapart.1 (digest_eq_of_destination_eq hwritten.symm)
      · rcases hputs.file_or_mem hnode with hold | hmem
        · exact hstart content hold
        · exact absurd hmem List.not_mem_nil

end Calls

/-- What becomes of a payload for which a URL was given: its file is there in the end and holds the payload
exactly if it was not found before the call, or held the payload then. So it holds the payload if nothing
else was there to begin with and no earlier payload is mistaken for it, unless a directory stands there. -/
structure Served (dir : Path) (urlPrefix : String) (earlier : List Call) (call : Call)
    (start before after : FileSystem) (expression : String) : Prop where
  expression_eq : expression = Literal.stringExpression (urlPrefix ++ hashedName call.fileName call.data)
  found : after.pathExists (call.path dir) = true
  read_iff : after.read (call.path dir) = .ok call.data ↔
    (before.pathExists (call.path dir) = true → before.read (call.path dir) = .ok call.data)
  read_or_directory : (∀ other ∈ earlier, other.Apart call) →
    (∀ content, start.node? (start.destination (call.path dir)) = some (.file content) → content = call.data) →
    after.read (call.path dir) = .ok call.data ∨ after.isDirectory (call.path dir) = true

theorem served_of_ok {context : Context} {urlPrefix : String} {session : Session} {call : Call}
    (hexternal : context.deployment = .external dir urlPrefix) (houtside : call.Outside)
    {earlier : List Call} {expression : String}
    (hanswer : (call.run context (afterCalls context session earlier)).1 = .ok expression) (rest : List Call) :
    Served dir urlPrefix earlier call session.files (afterCalls context session earlier).files
      (afterCalls context session (earlier ++ call :: rest)).files expression := by
  obtain ⟨hexpression, place, hlocate, hkept, hwritten⟩ := stored_of_run hexternal houtside hanswer
  have hgrows := grows_afterCalls_of_locate hexternal hlocate rest
  obtain ⟨node, hnode⟩ := Option.isSome_iff_exists.1 (exists_follow_of_locate hlocate).1
  have hlast := hgrows.locate hlocate
  have hsame := hgrows.content trivial hnode
  have hafter : afterCalls context session (earlier ++ call :: rest) =
      afterCalls context (call.run context (afterCalls context session earlier)).2 rest :=
    afterCalls_append ..
  rw [hafter]
  constructor
  case expression_eq => exact hexpression
  case found => exact FileSystem.pathExists_of_locate hlast
  case read_iff =>
    rw [FileSystem.read_eq_ok_iff hlast, hsame, ← hnode]
    cases hexists : (afterCalls context session earlier).files.pathExists (call.path dir) with
    | true =>
      rw [← FileSystem.read_eq_ok_iff hlocate, hkept hexists]
      exact ⟨fun h _ => h, fun h => h rfl⟩
    | false => exact ⟨fun _ h => absurd h Bool.false_ne_true, fun _ => hwritten hexists⟩
  case read_or_directory =>
    intro hapart hstart
    have hplace : session.files.destination (call.path dir) = place := by
      rw [FileSystem.eq_destination_of_locate hlocate, (grows_run context _ call).destination,
        (grows_afterCalls context session earlier).destination]
    -- The call itself puts its own payload, so it is apart from itself.
    have hall : ∀ other ∈ earlier ++ [call], other.Apart call :=
      List.forall_mem_append.2 ⟨hapart, List.forall_mem_singleton.2 fun _ => rfl⟩
    have honly := eq_of_afterCalls hexternal hall hstart
    rw [afterCalls_append, hplace] at honly
    rw [FileSystem.read_eq_ok_iff hlast, hsame]
    cases node with
    | directory =>
      right
      rw [FileSystem.isDirectory, hlast]
      exact FileSystem.isDirectoryAt_iff.2 hsame
    | file content =>
      left
      rw [honly content hnode]

/-- The deployment directory has a file of the right name with other content, as an interrupted run leaves it. -/
def staleFiles : FileSystem :=
  (FileSystem.empty.put ["public"] .directory).put
    ["239f59ed55e737c77147cf55ad0c1b03.bin", "public"] (.file (Bytes.ofText "payl"))

def payloadCall : Call where
  fileName := "payload.bin"
  mimeType := "application/octet-stream"
  data := Bytes.ofText "payload"
  forceExternal := true

def publicContext : Context where
  bundle := { name := ⟨"crate::Docs"⟩ }
  locale := none
  hierarchy := .builtin
  bundles := .empty
  deployment := .external ⟨"public"⟩ "/static/"
  stripComments := false

/-- It is served in place of the payload. -/
theorem served_of_ok_stale :
    let session : Session := ⟨staleFiles, {}, .empty, none⟩
    let after := (afterCalls publicContext session [payloadCall]).files
    Served ⟨"public"⟩ "/static/" [] payloadCall staleFiles staleFiles after
      "::std::string::String::from(\"/static/239f59ed55e737c77147cf55ad0c1b03.bin\")" ∧
    after.readText (payloadCall.path ⟨"public"⟩) = .ok "payl" := by
  intro session
  have hanswer : (payloadCall.run publicContext (afterCalls publicContext session [])).1 =
      .ok "::std::string::String::from(\"/static/239f59ed55e737c77147cf55ad0c1b03.bin\")" := by
    decide +kernel
  have hserved := served_of_ok rfl (.inl rfl) hanswer []
  exact ⟨hserved, by decide +kernel⟩

end Deployment

end BundleForge
