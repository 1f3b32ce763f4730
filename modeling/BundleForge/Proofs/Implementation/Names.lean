import BundleForge.Implementation
import BundleForge.Proofs.Identifier
import BundleForge.Proofs.Skeleton
import Mathlib
/-!
# The characters of names in a module

The names that a module declares are made from the names of the bundle, of its accessors and of the types around
them: by joining parts with underscores, by spelling words in another case, by cutting paths, and by adding numbers.
None of this brings in a character that would not stand in an identifier or in a path.
-/

namespace BundleForge

open Lexical

namespace Lexical

instance (text : List Char) : Decidable (IsPath text) :=
  inferInstanceAs (Decidable (∀ c ∈ text, isWord c = true ∨ c = ':'))

theorem caseClosed_path : Identifier.CaseClosed fun c => isWord c = true ∨ c = ':' where
  lower h := h.imp Identifier.caseClosed_canContinue.lower fun hcolon => by rw [hcolon]; rfl
  upper h := h.imp Identifier.caseClosed_canContinue.upper fun hcolon => by rw [hcolon]; rfl

end Lexical

namespace Identifier

variable {name : String}

theorem isPath_toSnakeCase (h : IsPath name.toList) : IsPath (toSnakeCase name).toList := by
  rw [toSnakeCase, String.toList_ofList]
  exact forall_mem_snake caseClosed_path (.inl rfl) h

theorem isPath_toScreamingCase (h : IsPath name.toList) : IsPath (toScreamingCase name).toList := by
  rw [toScreamingCase, String.toList_ofList]
  exact forall_mem_screaming caseClosed_path (.inl rfl) h

theorem isPath_toCamelCase (h : IsPath name.toList) : IsPath (toCamelCase name).toList := by
  rw [toCamelCase, String.toList_ofList]
  exact forall_mem_camel caseClosed_path h

theorem isPath_fresh {separator base : String} (hseparator : IsPath separator.toList) (hbase : IsPath base.toList)
    (used : List String) : IsPath (fresh used separator base).toList := by
  obtain ⟨number, hnumber⟩ := exists_fresh_eq used separator base
  rw [hnumber]
  exact forall_mem_numbered (fun hdigit => .inl (canContinue_iff.2 (.inr (.inl hdigit)))) hseparator hbase number

end Identifier

namespace TypeName

variable {ty : TypeName}

theorem isPath_simpleName (h : IsPath ty.path.toList) : IsPath ty.simpleName.toList := by
  rw [simpleName]
  split
  · rename_i before after hcut
    rw [eq_append_of_cutPath hcut] at h
    rw [String.toList_ofList]
    exact fun c hc => h c (by simp [hc])
  · exact h

theorem isPath_modulePath (h : IsPath ty.path.toList) : IsPath ty.modulePath.toList := by
  rw [modulePath]
  split
  · rename_i before after hcut
    rw [eq_append_of_cutPath hcut] at h
    rw [String.toList_ofList]
    exact fun c hc => h c (by simp [hc])
  · exact fun c hc => absurd hc List.not_mem_nil

theorem isPath_qualify {module simple : String} (hmodule : IsPath module.toList)
    (hsimple : IsPath simple.toList) : IsPath (qualify module simple).toList := by
  rw [qualify]
  split
  · exact hsimple
  · rw [String.toList_append, String.toList_append]
    exact (hmodule.append (by decide)).append hsimple

end TypeName

namespace Bundle

theorem isPath_implementationName {enclosing : List String} {simple : String} {locale : Option String}
    (henclosing : ∀ name ∈ enclosing, IsPath name.toList) (hsimple : IsPath simple.toList)
    (hlocale : ∀ text ∈ locale, IsPath text.toList) :
    IsPath (implementationName enclosing simple locale).toList := by
  have hbase : IsPath (String.intercalate "_" (enclosing ++ [simple])).toList := by
    rw [String.toList_intercalate]
    refine Identifier.forall_mem_intercalate (by decide) ?_
    rw [List.forall_mem_map, List.forall_mem_append, List.forall_mem_singleton]
    exact ⟨henclosing, hsimple⟩
  cases locale with
  | none =>
    have hname := hbase.append (by decide : IsPath "Impl".toList)
    rwa [← String.toList_append] at hname
  | some text =>
    have hname := (((hbase.append (by decide : IsPath "_".toList)).append (hlocale text rfl)).append
      (by decide : IsPath "_".toList)).append (by decide : IsPath "Impl".toList)
    simp only [← String.toList_append] at hname
    exact hname

end Bundle

namespace Implementation

theorem isPath_pathInside {ty : TypeName} (h : IsPath ty.path.toList) : IsPath (pathInside ty).toList := by
  rw [pathInside]
  split
  · exact h
  · rw [String.toList_append]
    refine IsPath.append (by decide) ?_
    cases hdrop : Text.dropBeginning? "self::" ty.path with
    | none => exact h
    | some rest =>
      obtain ⟨chars, hchars, rfl⟩ := Option.map_eq_some_iff.1 hdrop
      rw [List.isPrefixOf?_eq_some_iff_append_eq] at hchars
      rw [← hchars] at h
      rw [Option.getD_some, String.toList_ofList]
      exact fun c hc => h c (List.mem_append_right _ hc)

theorem isPath_of_mem_holderNames {used accessors : List String}
    (h : ∀ accessor ∈ accessors, IsPath accessor.toList) {name : String}
    (hname : name ∈ holderNames used accessors) : IsPath name.toList := by
  induction accessors generalizing used with
  | nil => exact absurd hname List.not_mem_nil
  | cons accessor rest ih =>
    rw [List.forall_mem_cons] at h
    rcases List.mem_cons.1 hname with rfl | hrest
    · apply Identifier.isPath_fresh (by decide)
      rw [String.toList_append]
      exact (Identifier.isPath_toCamelCase h.1).append (by decide)
    · exact ih h.2 hrest

end Implementation

namespace FieldRegistry

theorem isPath_identFor {request : FieldRequest} (h : IsPath request.name.toList) (registry : FieldRegistry) :
    IsPath (registry.identFor request).toList := by
  apply Identifier.isPath_fresh (by decide)
  have hbase : ∀ spelled : String, IsPath spelled.toList →
      IsPath (if spelled = "" then "field" else spelled).toList := by
    intro spelled hspelled
    split
    · decide
    · exact hspelled
  apply hbase
  split
  · exact Identifier.isPath_toScreamingCase h
  · exact Identifier.isPath_toSnakeCase h

end FieldRegistry

end BundleForge
