import BundleForge.Proofs.Image
/-!
# The call for an image, read back

The value of an image accessor is made by a call with eight arguments: a literal for the name, a clone of the static
that has the URL, four numbers for the rectangle, and two flags. `ImageCall.read?` reads such a call by the rules of
the generated language, and knows nothing of how it was written.
-/

namespace BundleForge

open Lexical (IsPath isWord)

/-- A call that makes the value of an image accessor, by its arguments. -/
structure ImageCall where
  name : List Char
  /-- The path of the static that is cloned. -/
  urlStatic : List Char
  left : Nat
  top : Nat
  width : Nat
  height : Nat
  animated : Bool
  lossy : Bool
deriving DecidableEq

namespace ImageCall

open Literal (token? isBlank)

def isPathChar (c : Char) : Bool := isWord c || c == ':'

def readNumber? (input : List Char) : Option (Nat × List Char) := do
  let input ← token? "," input
  let (digits, rest) := (input.dropWhile isBlank).span Char.isDigit
  if digits = [] then none else some (Nat.ofDigitChars 10 digits 0, rest)

def readFlag? (input : List Char) : Option (Bool × List Char) := do
  let input ← token? "," input
  match token? "true" input with
  | some rest => some (true, rest)
  | none => (token? "false" input).map (false, ·)

/-- The call at the start of an input, and what follows it. -/
def read? (input : List Char) : Option (ImageCall × List Char) := do
  let input ← token? "::bundle_runtime::ImageResourcePrototype::new(" input
  let (name, input) ← Literal.readLiteral? input
  let input ← token? "," input
  let input ← token? "::std::string::String::clone(&" input
  let (urlStatic, input) := input.span isPathChar
  let input ← token? ")" input
  let (left, input) ← readNumber? input
  let (top, input) ← readNumber? input
  let (width, input) ← readNumber? input
  let (height, input) ← readNumber? input
  let (animated, input) ← readFlag? input
  let (lossy, input) ← readFlag? input
  let input ← token? ")" input
  return (⟨name, urlStatic, left, top, width, height, animated, lossy⟩, input)

/-! ### Arguments -/

theorem token?_space (token : String) (input : List Char) : token? token (' ' :: input) = token? token input :=
  @Literal.token?_blanks [' '] (by decide) token input

theorem repr_ne_nil (number : Nat) : number.repr.toList ≠ [] := by
  rw [Nat.toList_repr]
  exact Nat.toDigits_ne_nil

theorem head?_repr (number : Nat) : number.repr.toList.head?.any (!isBlank ·) = true := by
  obtain ⟨first, others, hcons⟩ := List.exists_cons_of_ne_nil (repr_ne_nil number)
  have hdigit : first.isDigit = true := Text.isDigit_of_mem_repr (hcons ▸ List.mem_cons_self)
  have hspace : first ≠ ' ' := fun heq => absurd (heq ▸ hdigit) (by decide)
  have hbreak : first ≠ '\n' := fun heq => absurd (heq ▸ hdigit) (by decide)
  rw [hcons]
  simp [isBlank, hspace, hbreak]

theorem readNumber?_repr (number : Nat) {after : List Char} (hafter : after.head?.all (!·.isDigit) = true) :
    readNumber? (", ".toList ++ (number.repr.toList ++ after)) = some (number, after) := by
  have hdigits : ∀ c ∈ number.repr.toList, c.isDigit = true := fun _ => Text.isDigit_of_mem_repr
  have hvalue : Nat.ofDigitChars 10 number.repr.toList 0 = number := by
    rw [Nat.toList_repr]
    exact Nat.ofDigitChars_toDigits (by decide) (by decide)
  have hstop : after.takeWhile Char.isDigit = [] ∧ after.dropWhile Char.isDigit = after := by
    cases after with
    | nil => exact ⟨rfl, rfl⟩
    | cons c rest =>
      have hc : c.isDigit = false := by simpa using hafter
      exact ⟨List.takeWhile_cons_of_neg (by simp [hc]), List.dropWhile_cons_of_neg (by simp [hc])⟩
  have hblank : (' ' :: (number.repr.toList ++ after)).dropWhile isBlank = number.repr.toList ++ after := by
    rw [List.dropWhile_cons_of_pos (by decide), Literal.dropWhile_isBlank_of_head (head?_repr number)]
  have hcomma : ", ".toList ++ (number.repr.toList ++ after) =
      ",".toList ++ ' ' :: (number.repr.toList ++ after) := rfl
  rw [readNumber?, hcomma, Literal.token?_append (by decide)]
  simp only [Option.bind_eq_bind, Option.bind_some]
  rw [hblank, List.span_eq_takeWhile_dropWhile, List.takeWhile_append_of_pos hdigits,
    List.dropWhile_append_of_pos hdigits, hstop.1, hstop.2, List.append_nil]
  dsimp only
  rw [if_neg (repr_ne_nil number), hvalue]

theorem readFlag?_toString (flag : Bool) (after : List Char) :
    readFlag? (", ".toList ++ ((toString flag).toList ++ after)) = some (flag, after) := by
  have hcomma : ", ".toList ++ ((toString flag).toList ++ after) =
      ",".toList ++ ' ' :: ((toString flag).toList ++ after) := rfl
  rw [readFlag?, hcomma, Literal.token?_append (by decide)]
  simp only [Option.bind_eq_bind, Option.bind_some, token?_space]
  cases flag with
  | true =>
    have htrue : token? "true" ((toString true).toList ++ after) = some after := Literal.token?_append (by decide) _
    rw [htrue]
  | false =>
    have htrue : token? "true" ((toString false).toList ++ after) = none :=
      Literal.token?_eq_none [] "rue".toList (c := 't') (d := 'f') (by decide) (by decide) (by decide) _
    have hfalse : token? "false" ((toString false).toList ++ after) = some after :=
      Literal.token?_append (by decide) _
    rw [htrue, hfalse]
    rfl

theorem span_path {path : List Char} (h : IsPath path) (after : List Char) :
    (path ++ ')' :: after).span isPathChar = (path, ')' :: after) := by
  have hpath : ∀ c ∈ path, isPathChar c = true := by
    intro c hc
    simpa [isPathChar] using h c hc
  have hclose : ¬ isPathChar ')' = true := by decide
  rw [List.span_eq_takeWhile_dropWhile, List.takeWhile_append_of_pos hpath, List.dropWhile_append_of_pos hpath,
    List.takeWhile_cons_of_neg hclose, List.dropWhile_cons_of_neg hclose, List.append_nil]

/-! ### The call of an accessor -/

/-- The call shows an image with some header the way the accessor wants it: at its place and in its size, with the
flags of the header. -/
structure Shows (call : ImageCall) (accessor : Accessor) (header : Image.Header) : Prop where
  name : call.name = accessor.name.toList
  corner : call.left = 0 ∧ call.top = 0
  size : (call.width, call.height) =
    (Image.displaySize header.width header.height accessor.width accessor.height).map UInt32.toNat UInt32.toNat
  animated : call.animated = header.animated
  lossy : call.lossy = header.lossy

theorem toList_imageExpression (name ident : String) (use : Generator.ImageUse) :
    (Generator.imageExpression name ident use).toList =
      "::bundle_runtime::ImageResourcePrototype::new(".toList ++ ((Literal.literal name).toList ++
        (", ".toList ++ ("::std::string::String::clone(&".toList ++ (ident.toList ++ (")".toList ++
          (", ".toList ++ ((0 : Nat).repr.toList ++ (", ".toList ++ ((0 : Nat).repr.toList ++
            (", ".toList ++ (use.width.toNat.repr.toList ++ (", ".toList ++ (use.height.toNat.repr.toList ++
              (", ".toList ++ ((toString use.animated).toList ++ (", ".toList ++
                ((toString use.lossy).toList ++ ")".toList))))))))))))))))) := by
  have hexpression : Generator.imageExpression name ident use =
      "::bundle_runtime::ImageResourcePrototype::new(" ++ Literal.literal name ++
        (", ::std::string::String::clone(&" ++ ident ++ "), 0, 0, " ++ use.width.toNat.repr ++ ", " ++
          use.height.toNat.repr ++ ", ") ++
        (toString use.animated ++ ", " ++ toString use.lossy ++ ")") := rfl
  have hclone : (", ::std::string::String::clone(&" : String) = ", " ++ "::std::string::String::clone(&" := by
    decide
  have hcorner : ("), 0, 0, " : String) = ")" ++ (", " ++ ((0 : Nat).repr ++ (", " ++ ((0 : Nat).repr ++ ", ")))) := by
    decide
  rw [hexpression, hclone, hcorner]
  simp only [String.toList_append, List.append_assoc]

/-- The expression for an image accessor is read as a call that shows the image, with its static. -/
theorem exists_read?_imageExpression {accessor : Accessor} {resource : Resource} {header : Image.Header}
    {ident : String} (hident : IsPath ident.toList) :
    ∃ call : ImageCall, (∀ rest, read?
        ((Generator.imageExpression accessor.name ident (.of accessor resource header)).toList ++ rest) =
          some (call, rest)) ∧
      call.Shows accessor header ∧ call.urlStatic = ident.toList := by
  let use := Generator.ImageUse.of accessor resource header
  refine ⟨⟨accessor.name.toList, ident.toList, 0, 0, use.width.toNat, use.height.toNat, header.animated,
    header.lossy⟩, fun rest => ?_, ⟨rfl, ⟨rfl, rfl⟩, rfl, rfl, rfl⟩, rfl⟩
  have hcomma : ∀ after : List Char, ", ".toList ++ after = ",".toList ++ ' ' :: after := fun _ => rfl
  have hnumber : ∀ (number : Nat) (after : List Char),
      readNumber? (", ".toList ++ (number.repr.toList ++ (", ".toList ++ after))) =
        some (number, ", ".toList ++ after) := fun number after => readNumber?_repr number rfl
  rw [toList_imageExpression]
  simp only [List.append_assoc]
  rw [read?, Literal.token?_append (by decide)]
  simp only [Option.bind_eq_bind, Option.bind_some, Literal.readLiteral?_literal]
  rw [hcomma, Literal.token?_append (by decide)]
  simp only [Option.bind_some]
  rw [token?_space, Literal.token?_append (by decide)]
  have hclose : ∀ after : List Char, ")".toList ++ after = ')' :: after := fun _ => rfl
  simp only [Option.bind_some]
  rw [hclose, span_path hident, ← hclose]
  dsimp only
  rw [Literal.token?_append (by decide)]
  simp only [Option.bind_some, hnumber, readFlag?_toString]
  rw [Literal.token?_append (by decide)]
  rfl

end ImageCall

end BundleForge
