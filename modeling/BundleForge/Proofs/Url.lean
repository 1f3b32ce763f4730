import BundleForge.Generator
import BundleForge.Proofs.Base64
import BundleForge.Proofs.Literal
/-!
# URLs of payloads

A payload is reached under one of two kinds of URL. One that may be embedded and is small enough is spelled in
its URL, from which strict decoding gets it back; any other is a file, and the URL is the prefix of the
deployment with the name of the file. `Deployment.Addresses` says which URL belongs to a payload, without
looking at files; an expression `Denotes` a text if it is read as that text by the rules for literals.
-/

namespace BundleForge

namespace Deployment

/-- The URL of a payload of some MIME type. -/
inductive Addresses (deployment : Deployment) (fileName mimeType : String) (data : Bytes)
    (embed : Bool) : String → Prop
  | inline {spelled : List Char} (allowed : embed = true) (small : data.length < 65536)
      (spells : Base64.Spells spelled data) :
      Addresses deployment fileName mimeType data embed
        ("data:" ++ mimeType ++ ";base64," ++ String.ofList spelled)
  | deployed {dir : Path} {urlPrefix : String} (outside : embed = false ∨ 65536 ≤ data.length)
      (external : deployment = .external dir urlPrefix) :
      Addresses deployment fileName mimeType data embed (urlPrefix ++ hashedName fileName data)

variable {deployment : Deployment} {files : FileSystem} {fileName mimeType : String} {data : Bytes}
  {embed : Bool}

theorem addresses_of_url {url : String}
    (h : (deployment.url files fileName mimeType data (!embed)).1 = .ok url) :
    deployment.Addresses fileName mimeType data embed url := by
  unfold Deployment.url at h
  simp only [Bool.not_not, Bool.and_eq_true, decide_eq_true_eq] at h
  split at h
  · rename_i hinside
    obtain rfl := Except.ok.inj h
    exact .inline hinside.1 hinside.2 (Base64.spells_encode data)
  · rename_i houtside
    cases deployment with
    | inline => simp at h
    | external dir urlPrefix =>
      dsimp only at h
      split at h
      · obtain rfl := Except.ok.inj h
        refine .deployed ?_ rfl
        rw [← Bool.not_eq_true, ← Nat.not_lt]
        exact not_and_or.1 houtside
      · simp at h

theorem Addresses.unique {url other : String} (h : deployment.Addresses fileName mimeType data embed url)
    (h' : deployment.Addresses fileName mimeType data embed other) : url = other := by
  cases h with
  | inline allowed small spells =>
    cases h' with
    | inline _ _ spells' =>
      rw [Base64.eq_encode_of_decode? spells.decoded, Base64.eq_encode_of_decode? spells'.decoded]
    | deployed outside _ =>
      rcases outside with houtside | hlarge
      · rw [allowed] at houtside
        simp at houtside
      · exact absurd small (Nat.not_lt.2 hlarge)
  | deployed outside external =>
    cases h' with
    | inline allowed small _ =>
      rcases outside with houtside | hlarge
      · rw [allowed] at houtside
        simp at houtside
      · exact absurd small (Nat.not_lt.2 hlarge)
    | deployed _ external' =>
      obtain ⟨-, rfl⟩ := Deployment.external.inj (external.symm.trans external')
      rfl

/-- What can neither be embedded nor deployed is refused for its size, and nothing else is. -/
theorem url_inlineLimit_iff :
    (∃ name size limit, (deployment.url files fileName mimeType data (!embed)).1 =
      .error (.inlineLimit name size limit)) ↔
    (embed = false ∨ 65536 ≤ data.length) ∧ deployment = .inline := by
  have houtside : (embed = false ∨ 65536 ≤ data.length) ↔ ¬ (embed = true ∧ data.length < inlineLimit) := by
    rw [not_and_or, Bool.not_eq_true, Nat.not_lt]
    rfl
  unfold Deployment.url store
  simp only [Bool.not_not, Bool.and_eq_true, decide_eq_true_eq, houtside]
  split
  · rename_i hinside
    simp [hinside]
  · rename_i houtside
    cases deployment with
    | inline => simp [houtside]
    | external dir urlPrefix =>
      dsimp only
      split
      · simp
      · rename_i error _ hstore
        split at hstore
        · simp at hstore
        · split at hstore
          · obtain rfl := Except.error.inj (Prod.mk.inj hstore).1
            simp
          · split at hstore
            · simp at hstore
            · obtain rfl := Except.error.inj (Prod.mk.inj hstore).1
              simp

end Deployment

/-- The expression is read as the text wherever it stands, and spells it. -/
def Denotes (expression : String) (text : String) : Prop :=
  ∃ shown, (∀ rest, StringExpression.read? (expression.toList ++ rest) = some (shown, rest)) ∧
    shown.Spells text

theorem Denotes.unique {expression text other : String} (h : Denotes expression text)
    (h' : Denotes expression other) : text = other := by
  obtain ⟨shown, hread, hspells⟩ := h
  obtain ⟨shown', hread', hspells'⟩ := h'
  obtain ⟨rfl, -⟩ := Prod.mk.inj (Option.some.inj ((hread []).symm.trans (hread' [])))
  exact String.toList_inj.1 (hspells.value_eq.symm.trans hspells'.value_eq)

theorem denotes_stringExpression (text : String) :
    Denotes (Literal.stringExpression text) text := by
  by_cases hshort : text.length ≤ Literal.chunkLimit
  case pos =>
    refine ⟨.literal text.toList, fun rest => ?_, rfl, hshort⟩
    rw [Literal.toList_stringExpression_of_le hshort, List.append_assoc, List.append_assoc]
    exact StringExpression.read?_literal text rest
  case neg =>
    have hlong := Nat.not_le.1 hshort
    refine ⟨.builder (Literal.chunks Literal.chunkLimit text.toList), fun rest => ?_,
      Literal.flatten_chunks _ _, hlong, fun piece hpiece => Literal.length_of_mem_chunks (by decide) hpiece⟩
    have hblock : (Literal.stringExpression text).toList = Literal.builderBlock [] text.utf8ByteSize
        (Literal.chunks Literal.chunkLimit text.toList) := by
      rw [Literal.toList_stringExpression_of_lt hlong, Literal.builderBlock_eq, List.flatMap_append,
        List.flatMap_singleton]
      rfl
    rw [hblock]
    exact StringExpression.read?_builderBlock (by simp) _ _ rest

end BundleForge
