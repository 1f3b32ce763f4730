import BundleForge.Proofs.Image
import BundleForge.Proofs.Implementation.Assemblies
import BundleForge.Proofs.Pass.Data
/-!
# What generators answer, read as code

The expressions of the generators are code around the name of an accessor, which is a literal. A text or a URL stands
in them at one place, and an image or a nested bundle is named by a path alone; so whatever texts two generators
remember, their expressions differ at that place only.
-/

namespace BundleForge

open Lexical

namespace Lexical

/-- The code in front of the name of an accessor, where the value of the accessor is made. -/
theorem before_new {front : String} (h : Piece front) :
    Before ("::std::boxed::Box::new(" ++ (front ++ "new(")) where
  toRow := (row_of_head (by decide) (by decide)).append (h.append (by decide))
  opens := by
    have hbox : Codes "::std::boxed::Box::new(".toList := by decide
    have hnew : Opens "new(".toList := by decide
    rw [String.toList_append, String.toList_append]
    exact hbox.opens (h.codes.opens hnew)
  ends blanks := by
    have hnew : "new(".toList = "ne".toList ++ ['w', '('] := by decide
    rw [String.toList_append, String.toList_append, hnew, ← List.append_assoc, ← List.append_assoc,
      ← List.append_assoc]
    exact not_suffix_of_ends (by decide)

end Lexical

namespace Implementation

theorem twinExpression_texts {front : String} (h : Piece front) (name text other : String) :
    TwinExpression (front ++ "new(" ++ Literal.literal name ++ ", " ++ Literal.stringExpression text ++ ")")
      (front ++ "new(" ++ Literal.literal name ++ ", " ++ Literal.stringExpression other ++ ")") := by
  have hprelude := @prelude_literal _ name (before_new h)
  have hopening : "::std::boxed::Box::new(" ++ (front ++ "new(") ++ Literal.literal name ++ ", " =
      "::std::boxed::Box::new(" ++ (front ++ "new(" ++ Literal.literal name ++ ", ") := by
    simp only [String.append_assoc]
  rw [hopening] at hprelude
  exact .texts hprelude text other

theorem twinExpression_textCall (name text other : String) :
    TwinExpression (textCall name text) (textCall name other) := by
  have hfront : ("::bundle_runtime::TextResourcePrototype::new(" : String) =
      "::bundle_runtime::TextResourcePrototype::" ++ "new(" := by decide
  unfold textCall
  rw [hfront]
  exact twinExpression_texts (by decide) name text other

theorem twinExpression_dataCall (name url other : String) :
    TwinExpression (Pass.dataCall name (Literal.stringExpression url))
      (Pass.dataCall name (Literal.stringExpression other)) := by
  have hfront : ("::bundle_runtime::DataResourcePrototype::new(" : String) =
      "::bundle_runtime::DataResourcePrototype::" ++ "new(" := by decide
  unfold Pass.dataCall
  rw [hfront]
  exact twinExpression_texts (by decide) name url other

theorem twinExpression_image {field : String} (h : IsPath field.toList) (name : String)
    (use : Generator.ImageUse) :
    TwinExpression (Generator.imageExpression name field use) (Generator.imageExpression name field use) := by
  have hnumber : ∀ number : UInt32, Piece (toString number) :=
    fun number => (isPath_repr number.toNat).piece
  have hflag : ∀ flag : Bool, Piece (toString flag) := by decide
  let after := "::std::string::String::clone(&" ++ field ++ "), 0, 0, " ++ toString use.width ++ ", " ++
    toString use.height ++ ", " ++ toString use.animated ++ ", " ++ toString use.lossy ++ "))"
  have hafter : Piece after :=
    (((((((((Piece.append (by decide) h.piece).append (by decide)).append (hnumber _)).append
      (by decide)).append (hnumber _)).append (by decide)).append (hflag _)).append (by decide)).append
        (hflag _)).append (by decide)
  have hcloses : Closes (", " ++ after).toList := by
    have hcomma : Closes ", ".toList := by decide
    rw [String.toList_append]
    exact hcomma.append hafter.codes
  have hbefore := @before_new "::bundle_runtime::ImageResourcePrototype::" (by decide)
  have hline : s!"::std::boxed::Box::new({Generator.imageExpression name field use})" =
      "::std::boxed::Box::new(" ++ ("::bundle_runtime::ImageResourcePrototype::" ++ "new(") ++
        Literal.literal name ++ (", " ++ after) := by
    have hcallee : ("::bundle_runtime::ImageResourcePrototype::new(" : String) =
        "::bundle_runtime::ImageResourcePrototype::" ++ "new(" := by decide
    have hclone : (", ::std::string::String::clone(&" : String) =
        ", " ++ "::std::string::String::clone(&" := by decide
    have hclose : ("))" : String) = ")" ++ ")" := by decide
    show "::std::boxed::Box::new(" ++ ("::bundle_runtime::ImageResourcePrototype::new(" ++
      Literal.literal name ++ (", ::std::string::String::clone(&" ++ field ++ "), 0, 0, " ++
        toString use.width ++ ", " ++ toString use.height ++ ", ") ++
      (toString use.animated ++ ", " ++ toString use.lossy ++ ")")) ++ ")" = _
    rw [hcallee, hclone]
    simp only [after, hclose, String.append_assoc]
  have hsettled := @settled_literal _ _ name hbefore (Piece.append (by decide) hafter) hcloses
  rw [← hline] at hsettled
  exact .same hsettled

theorem twinExpression_path {path : String} (h : IsPath path.toList) :
    TwinExpression (path ++ "::new()") (path ++ "::new()") := by
  have hline : ∀ expression : String, Piece expression → Row s!"::std::boxed::Box::new({expression})" :=
    fun expression hexpression => ((row_of_head (by decide) (by decide)).append hexpression).append (by decide)
  exact .same (settled_code (hline _ (h.piece.append (by decide))))

end Implementation

end BundleForge
