import BundleForge.Proofs.Sink
/-!
# The register of a sink

A sink remembers for every key the name of the type it granted the key to. That name alone decides what a
claim is answered: a free key is granted, a key of the same name is passed over, and a key of another name is
refused. Committing a source changes nothing of it.
-/

namespace BundleForge

/-- The names under which the keys of a sink were granted, and what claims are answered by them. -/
structure Sink.Register (σ κ : Type) [Sink σ] [DecidableEq κ] where
  Valid : σ → Prop
  key : Claim → κ
  name? : σ → κ → Option String
  claim_free : ∀ {sink wanted}, Valid sink → name? sink (key wanted) = none →
    ∃ next, Sink.claim sink wanted = (.ok (some wanted), next) ∧ Valid next ∧
      ∀ k, name? next k = if k = key wanted then some wanted.qualifiedName else name? sink k
  claim_own : ∀ {sink wanted}, Valid sink → name? sink (key wanted) = some wanted.qualifiedName →
    Sink.claim sink wanted = (.ok none, sink)
  claim_other : ∀ {sink wanted name}, Valid sink → name? sink (key wanted) = some name →
    name ≠ wanted.qualifiedName → ∃ error, Sink.claim sink wanted = (.error error, sink)
  commit_keeps : ∀ {sink} files claim source, Valid sink →
    Valid (Sink.commit sink files claim source).2.2 ∧
      name? (Sink.commit sink files claim source).2.2 = name? sink

namespace Sink.Register

variable {σ κ : Type} [Sink σ] [DecidableEq κ] {register : Sink.Register σ κ} {sink : σ}
  {wanted : Claim}

theorem name?_claim (hvalid : register.Valid sink) (wanted : Claim) :
    register.Valid (Sink.claim sink wanted).2 ∧
      ∀ k, register.name? (Sink.claim sink wanted).2 k =
        (register.name? sink k).or
          (if register.key wanted = k then some wanted.qualifiedName else none) := by
  have hkept : register.name? sink (register.key wanted) ≠ none → ∀ k,
      register.name? sink k =
        (register.name? sink k).or
          (if register.key wanted = k then some wanted.qualifiedName else none) := by
    intro htaken k
    by_cases hkey : register.key wanted = k
    · obtain ⟨name, hname⟩ := Option.ne_none_iff_exists'.1 htaken
      rw [← hkey, hname, Option.some_or]
    · rw [if_neg hkey, Option.or_none]
  cases hname : register.name? sink (register.key wanted) with
  | none =>
    obtain ⟨next, hclaim, hnext, hnames⟩ := register.claim_free hvalid hname
    rw [hclaim]
    refine ⟨hnext, fun k => ?_⟩
    by_cases hkey : register.key wanted = k
    · rw [hnames, if_pos hkey.symm, if_pos hkey, ← hkey, hname, Option.none_or]
    · rw [hnames, if_neg (Ne.symm hkey), if_neg hkey, Option.or_none]
  | some name =>
    rw [hname] at hkept
    by_cases hsame : name = wanted.qualifiedName
    · rw [register.claim_own hvalid (hsame ▸ hname)]
      exact ⟨hvalid, hkept (Option.some_ne_none name)⟩
    · obtain ⟨error, hclaim⟩ := register.claim_other hvalid hname hsame
      rw [hclaim]
      exact ⟨hvalid, hkept (Option.some_ne_none name)⟩

theorem passed_over_iff (hvalid : register.Valid sink) :
    (Sink.claim sink wanted).1 = .ok none ↔
      register.name? sink (register.key wanted) = some wanted.qualifiedName := by
  cases hname : register.name? sink (register.key wanted) with
  | none =>
    obtain ⟨next, hclaim, -⟩ := register.claim_free hvalid hname
    rw [hclaim]
    simp
  | some name =>
    by_cases hsame : name = wanted.qualifiedName
    · rw [register.claim_own hvalid (hsame ▸ hname), hsame]
      simp
    · obtain ⟨error, hclaim⟩ := register.claim_other hvalid hname hsame
      rw [hclaim]
      simp [hsame]

theorem free_of_granted (hvalid : register.Valid sink) {claim : Claim} {next : σ}
    (hgranted : Sink.claim sink wanted = (.ok (some claim), next)) :
    claim = wanted ∧ register.name? sink (register.key wanted) = none := by
  cases hname : register.name? sink (register.key wanted) with
  | none =>
    obtain ⟨next', hclaim, -⟩ := register.claim_free hvalid hname
    rw [hclaim] at hgranted
    exact ⟨(Option.some.inj (Except.ok.inj (Prod.mk.inj hgranted).1)).symm, rfl⟩
  | some name =>
    by_cases hsame : name = wanted.qualifiedName
    · rw [register.claim_own hvalid (hsame ▸ hname)] at hgranted
      simp at hgranted
    · obtain ⟨error, hclaim⟩ := register.claim_other hvalid hname hsame
      rw [hclaim] at hgranted
      simp at hgranted

/-- A key is taken once it was granted to some type. -/
def Taken (register : Sink.Register σ κ) (sink : σ) (k : κ) : Prop := register.name? sink k ≠ none

theorem passed_over (hvalid : register.Valid sink) (hnone : (Sink.claim sink wanted).1 = .ok none) :
    register.Taken sink (register.key wanted) ∧ (Sink.claim sink wanted).2 = sink := by
  have hown := (passed_over_iff hvalid).1 hnone
  rw [register.claim_own hvalid hown, Taken, hown]
  exact ⟨Option.some_ne_none _, rfl⟩

theorem granted (hvalid : register.Valid sink) {claim : Claim} {next : σ}
    (hgranted : Sink.claim sink wanted = (.ok (some claim), next)) :
    claim = wanted ∧ ¬ register.Taken sink (register.key wanted) ∧ register.Valid next ∧
      ∀ k, register.Taken next k ↔ register.Taken sink k ∨ k = register.key wanted := by
  obtain ⟨hclaim, hfree⟩ := free_of_granted hvalid hgranted
  obtain ⟨hnext, hnames⟩ := name?_claim hvalid wanted
  rw [hgranted] at hnext hnames
  refine ⟨hclaim, not_not.2 hfree, hnext, fun k => ?_⟩
  rw [Taken, Taken, hnames, ne_eq, Option.or_eq_none_iff, not_and_or, eq_comm (a := k)]
  simp

theorem name?_commit (hvalid : register.Valid sink) {files later : FileSystem} {claim : Claim}
    {source : String} {result : Except ResourceError (Option Path)} {next : σ}
    (hcommit : Sink.commit sink files claim source = (result, later, next)) :
    register.Valid next ∧ register.name? next = register.name? sink := by
  have hkeeps := register.commit_keeps files claim source hvalid
  rw [hcommit] at hkeeps
  exact hkeeps

/-- A sink that has granted nothing. -/
structure Fresh (register : Sink.Register σ κ) (sink : σ) : Prop where
  valid : register.Valid sink
  free : ∀ k, register.name? sink k = none

theorem Fresh.not_taken (h : register.Fresh sink) (k : κ) : ¬ register.Taken sink k :=
  not_not.2 (h.free k)

end Sink.Register

namespace MemorySink

/-- The name under which a name was claimed is that name itself. -/
def claimed? (sink : MemorySink) (name : String) : Option String :=
  if name ∈ sink.claimed then some name else none

theorem claimed?_eq_none_iff {sink : MemorySink} {name : String} :
    sink.claimed? name = none ↔ name ∉ sink.claimed := by
  rw [claimed?, ite_eq_right_iff]
  exact forall_congr' fun _ => iff_false_intro (Option.some_ne_none name)

theorem eq_of_claimed? {sink : MemorySink} {name granted : String}
    (h : sink.claimed? name = some granted) : name ∈ sink.claimed ∧ name = granted := by
  rw [claimed?] at h
  split at h
  · rename_i hmem
    exact ⟨hmem, Option.some.inj h⟩
  · simp at h

/-- The memory sink keys types by their names, so no key is ever claimed under another name. -/
def register : Sink.Register MemorySink String where
  Valid _ := True
  key := Claim.qualifiedName
  name? := claimed?
  claim_free {sink wanted} _ hfree := by
    rw [claimed?_eq_none_iff] at hfree
    refine ⟨{ sink with claimed := sink.claimed ++ [wanted.qualifiedName] }, ?_, trivial, fun name => ?_⟩
    · simp only [Sink.claim, claim, if_neg hfree]
    · by_cases hname : name = wanted.qualifiedName
      · rw [if_pos hname, claimed?, if_pos (by simp [hname]), hname]
      · rw [if_neg hname, claimed?, claimed?]
        simp [hname]
  claim_own {sink wanted} _ hown := by
    simp only [Sink.claim, claim, if_pos (eq_of_claimed? hown).1]
  claim_other {sink wanted name} _ hother hne := absurd (eq_of_claimed? hother).2.symm hne
  commit_keeps _ _ _ _ := ⟨trivial, rfl⟩

theorem fresh_register : register.Fresh {} where
  valid := trivial
  free name := by
    show claimed? {} name = none
    rw [claimed?_eq_none_iff]
    exact List.not_mem_nil

end MemorySink

namespace FileSink

def register (outDir : Path) : Sink.Register FileSink (List Path.Component) where
  Valid sink := sink.outDir = outDir
  key wanted := (pathOf outDir wanted).components
  name? sink := sink.created.get?
  claim_free {sink wanted} hvalid hfree := by
    rw [← hvalid, ← target_eq] at hfree ⊢
    refine ⟨{ sink with created :=
      sink.created.insert (sink.target wanted).components wanted.qualifiedName }, ?_, rfl, ?_⟩
    · show sink.claim wanted = _
      simp only [claim, hfree]
    · exact fun components => OrderedMap.get?_insert _ _ _ _
  claim_own {sink wanted} hvalid hown := by
    rw [← hvalid, ← target_eq] at hown
    show sink.claim wanted = _
    simp only [claim, hown, if_pos]
  claim_other {sink wanted name} hvalid hother hne := by
    rw [← hvalid, ← target_eq] at hother
    refine ⟨.clash (sink.target wanted).text name wanted.qualifiedName, ?_⟩
    show sink.claim wanted = _
    simp only [claim, hother, if_neg hne]
  commit_keeps {sink} files claim source hvalid := by
    rw [commit_eq]
    exact ⟨hvalid, rfl⟩

theorem fresh_register (outDir : Path) : (register outDir).Fresh ⟨outDir, .empty⟩ where
  valid := rfl
  free components := OrderedMap.get?_empty components

end FileSink

end BundleForge
