import BundleForge.Implementation
import BundleForge.Proofs.Text
import BundleForge.Sink
/-!
# Paths of types

A declared type is named by a path: names after `::`, `crate::`, `self::` or `super::`, or names alone. The
text of a path can be read back. A generated module stands one level below the module of its bundle, and
`inside` is the path that leads from there to what a path stands for; `pathInside` writes just that. The
implementation of a bundle stands beside the bundle, so its path is that of a `sibling`.
-/

namespace BundleForge

/-- A segment of a path that is the name of an item. -/
def IsName (segment : String) : Prop :=
  FileSink.isAnchor segment = false ∧ ':' ∉ segment.toList

instance (segment : String) : Decidable (IsName segment) := inferInstanceAs (Decidable (_ ∧ _))

theorem IsName.ne {segment : String} (h : IsName segment) :
    segment ≠ "" ∧ segment ≠ "crate" ∧ segment ≠ "self" ∧ segment ≠ "super" := by
  have hanchor := h.1
  simp only [FileSink.isAnchor, Bool.or_eq_false_iff, beq_eq_false_iff_ne] at hanchor
  exact ⟨hanchor.1.1.1, hanchor.1.1.2, hanchor.1.2, hanchor.2⟩

/-- Where the names of a path begin. -/
inductive Anchor where
  /-- After `::`, with an external crate. -/
  | external
  /-- After `crate::`. -/
  | root
  /-- After `self::` and a number of `super::`. -/
  | here (ups : Nat)
  /-- After one `super::` and a number of others. -/
  | above (ups : Nat)
  | plain
deriving DecidableEq

def Anchor.segments : Anchor → List String
  | .external => [""]
  | .root => ["crate"]
  | .here ups => "self" :: List.replicate ups "super"
  | .above ups => "super" :: List.replicate ups "super"
  | .plain => []

/-- The anchor, one level below, that leads where this one leads. -/
def Anchor.inside : Anchor → Anchor
  | .external => .external
  | .root => .root
  | .here ups => .above ups
  | .above ups => .above (ups + 1)
  | .plain => .above 0

structure TypePath where
  anchor : Anchor
  first : String
  rest : List String
  names : ∀ name ∈ first :: rest, IsName name
deriving DecidableEq

namespace TypePath

def segments (path : TypePath) : List String := path.anchor.segments ++ path.first :: path.rest

def text (path : TypePath) : String := "::".intercalate path.segments

/-! ### Reading a path -/

def ofNames (anchor : Anchor) : List String → Option TypePath
  | [] => none
  | first :: rest =>
    if names : ∀ name ∈ first :: rest, IsName name then some ⟨anchor, first, rest, names⟩ else none

def climb (anchor : Nat → Anchor) (ups : Nat) : List String → Option TypePath
  | [] => none
  | segment :: others =>
    if segment = "super" then climb anchor (ups + 1) others
    else ofNames (anchor ups) (segment :: others)

def ofSegments : List String → Option TypePath
  | [] => none
  | segment :: others =>
    if segment = "" then ofNames .external others
    else if segment = "crate" then ofNames .root others
    else if segment = "self" then climb .here 0 others
    else if segment = "super" then climb .above 0 others
    else ofNames .plain (segment :: others)

def read (text : String) : Option TypePath :=
  ofSegments ((FileSink.moduleSegments text.toList).map String.ofList)

theorem moduleSegments_append {segment : List Char} (h : ':' ∉ segment) (rest : List Char) :
    FileSink.moduleSegments (segment ++ "::".toList ++ rest) =
      segment :: FileSink.moduleSegments rest := by
  induction segment with
  | nil =>
    show FileSink.moduleSegments (':' :: ':' :: rest) = _
    rw [FileSink.moduleSegments, if_pos ⟨rfl, rfl⟩, List.tail_cons]
  | cons c others ih =>
    rw [List.mem_cons, not_or] at h
    rw [List.cons_append, List.cons_append, FileSink.moduleSegments, if_neg fun hc => h.1 hc.1.symm,
      ih h.2]

theorem moduleSegments_of_not_mem {segment : List Char} (h : ':' ∉ segment) :
    FileSink.moduleSegments segment = [segment] := by
  induction segment with
  | nil => rw [FileSink.moduleSegments]
  | cons c others ih =>
    rw [List.mem_cons, not_or] at h
    rw [FileSink.moduleSegments, if_neg fun hc => h.1 hc.1.symm, ih h.2]

theorem moduleSegments_intercalate {segments : List String} (hnonempty : segments ≠ [])
    (h : ∀ segment ∈ segments, ':' ∉ segment.toList) :
    (FileSink.moduleSegments ("::".intercalate segments).toList).map String.ofList = segments := by
  induction segments with
  | nil => exact absurd rfl hnonempty
  | cons segment others ih =>
    obtain ⟨hfirst, hothers⟩ := List.forall_mem_cons.1 h
    cases others with
    | nil =>
      rw [String.intercalate_singleton, moduleSegments_of_not_mem hfirst, List.map_singleton,
        String.ofList_toList]
    | cons other rest =>
      rw [String.intercalate_cons_cons, String.toList_append, String.toList_append,
        moduleSegments_append hfirst, List.map_cons, String.ofList_toList,
        ih (List.cons_ne_nil _ _) hothers]

theorem colon_not_mem_segments (path : TypePath) :
    ∀ segment ∈ path.segments, ':' ∉ segment.toList := by
  have hsuper : ∀ {ups : Nat} {segment : String}, segment ∈ List.replicate ups "super" →
      ':' ∉ segment.toList := by
    intro ups segment hsegment
    rw [List.eq_of_mem_replicate hsegment]
    decide
  intro segment hsegment
  rcases List.mem_append.1 hsegment with hanchor | hname
  · match path.anchor, hanchor with
    | .external, hanchor | .root, hanchor =>
      rw [List.mem_singleton.1 hanchor]
      decide
    | .here ups, hanchor | .above ups, hanchor =>
      rcases List.mem_cons.1 hanchor with rfl | hups
      · decide
      · exact hsuper hups
  · exact (path.names segment hname).2

theorem ofNames_eq (path : TypePath) : ofNames path.anchor (path.first :: path.rest) = some path := by
  rw [ofNames, dif_pos path.names]

theorem climb_replicate {anchor : Nat → Anchor} {path : TypePath} (done ups : Nat)
    (h : path.anchor = anchor (done + ups)) :
    climb anchor done (List.replicate ups "super" ++ path.first :: path.rest) = some path := by
  induction ups generalizing done with
  | zero =>
    have hfirst := (path.names path.first List.mem_cons_self).ne.2.2.2
    rw [List.replicate_zero, List.nil_append, climb, if_neg hfirst, ← path.ofNames_eq, h]
    rfl
  | succ ups ih =>
    rw [List.replicate_succ, List.cons_append, climb, if_pos rfl]
    exact ih (done + 1) (by rw [h, Nat.add_right_comm]; rfl)

/-- A path can be read off its text. -/
theorem read_text (path : TypePath) : read path.text = some path := by
  have hnonempty : path.segments ≠ [] := List.append_ne_nil_of_right_ne_nil _ (List.cons_ne_nil _ _)
  rw [read, text, moduleSegments_intercalate hnonempty path.colon_not_mem_segments, segments]
  have hanchor : ∀ {anchor}, path.anchor = anchor →
      ofNames anchor (path.first :: path.rest) = some path := by
    rintro _ rfl
    exact path.ofNames_eq
  cases h : path.anchor with
  | external =>
    rw [Anchor.segments, List.singleton_append, ofSegments, if_pos rfl]
    exact hanchor h
  | root =>
    rw [Anchor.segments, List.singleton_append, ofSegments, if_neg (by decide), if_pos rfl]
    exact hanchor h
  | here ups =>
    rw [Anchor.segments, List.cons_append, ofSegments, if_neg (by decide), if_neg (by decide), if_pos rfl]
    exact climb_replicate 0 ups (by rw [h, Nat.zero_add])
  | above ups =>
    rw [Anchor.segments, List.cons_append, ofSegments, if_neg (by decide), if_neg (by decide),
      if_neg (by decide), if_pos rfl]
    exact climb_replicate 0 ups (by rw [h, Nat.zero_add])
  | plain =>
    obtain ⟨hempty, hcrate, hself, hsuper⟩ := (path.names path.first List.mem_cons_self).ne
    rw [Anchor.segments, List.nil_append, ofSegments, if_neg hempty, if_neg hcrate, if_neg hself,
      if_neg hsuper]
    exact hanchor h

/-! ### One level below -/

/-- The path, one level below, to what the path stands for. -/
def inside (path : TypePath) : TypePath := { path with anchor := path.anchor.inside }

theorem beginsWith_intercalate {segment first : String} {others : List String}
    (hsegment : ':' ∉ segment.toList) (hfirst : ':' ∉ first.toList) :
    Text.beginsWith (segment ++ "::") ("::".intercalate (first :: others)) = true ↔
      first = segment ∧ others ≠ [] := by
  rw [Text.beginsWith, List.isPrefixOf_iff_prefix, String.toList_append]
  cases others with
  | nil =>
    rw [String.intercalate_singleton]
    refine ⟨fun hbegins => absurd (List.IsPrefix.subset hbegins ?_) hfirst, fun h => absurd rfl h.2⟩
    exact List.mem_append_right _ List.mem_cons_self
  | cons other rest =>
    rw [String.intercalate_cons_cons, String.toList_append, String.toList_append]
    constructor
    · rintro ⟨after, hafter⟩
      have hcut := Text.cutFirst?_append hsegment (':' :: after)
      rw [show segment.toList ++ ':' :: ':' :: after = segment.toList ++ "::".toList ++ after by simp,
        hafter, show ∀ more : List Char, first.toList ++ "::".toList ++ more =
          first.toList ++ ':' :: ':' :: more by simp, Text.cutFirst?_append hfirst] at hcut
      have hsame := (Prod.mk.inj (Option.some.inj hcut)).1
      exact ⟨String.toList_inj.1 hsame, List.cons_ne_nil _ _⟩
    · rintro ⟨rfl, -⟩
      exact List.prefix_append _ _

theorem pathInside_intercalate {segment : String} (h : ':' ∉ segment.toList) (others : List String) :
    Implementation.pathInside ⟨"::".intercalate (segment :: others)⟩ =
      if others ≠ [] ∧ (segment = "" ∨ segment = "crate") then "::".intercalate (segment :: others)
      else if others ≠ [] ∧ segment = "self" then "::".intercalate ("super" :: others)
      else "::".intercalate ("super" :: segment :: others) := by
  have hbegins : ∀ {first begin : String}, ':' ∉ first.toList → first ++ "::" = begin →
      (Text.beginsWith begin ("::".intercalate (segment :: others)) = true ↔
        others ≠ [] ∧ segment = first) := by
    rintro first _ hfirst rfl
    rw [beginsWith_intercalate hfirst h, and_comm]
  have hempty := hbegins (by decide) (show "" ++ "::" = "::" by decide)
  have hcrate := hbegins (by decide) (show "crate" ++ "::" = "crate::" by decide)
  have hself := hbegins (by decide) (show "self" ++ "::" = "self::" by decide)
  have hkept : (Text.beginsWith "::" ("::".intercalate (segment :: others)) ||
      Text.beginsWith "crate::" ("::".intercalate (segment :: others))) = true ↔
        others ≠ [] ∧ (segment = "" ∨ segment = "crate") := by
    rw [Bool.or_eq_true, hempty, hcrate, ← and_or_left]
  refine if_congr hkept rfl ?_
  split
  · rename_i hc
    obtain ⟨hne, rfl⟩ := hc
    rw [String.intercalate_cons_of_ne_nil hne, show "self" ++ "::" = "self::" by decide,
      Text.dropBeginning?_append, Option.getD_some, String.intercalate_cons_of_ne_nil hne]
    rfl
  · rename_i hc
    rw [Text.dropBeginning?_eq_none (Bool.eq_false_iff.2 (mt hself.1 hc)), Option.getD_none,
      String.intercalate_cons_cons]
    rfl

theorem pathInside_eq {ty : TypeName} {path : TypePath} (h : ty.path = path.text) :
    Implementation.pathInside ty = path.inside.text := by
  have hnames : ∀ before : List String, before ++ path.first :: path.rest ≠ [] := fun before =>
    List.append_ne_nil_of_right_ne_nil _ (List.cons_ne_nil _ _)
  obtain ⟨hempty, hcrate, hself, -⟩ := (path.names path.first List.mem_cons_self).ne
  have hfirst := (path.names path.first List.mem_cons_self).2
  obtain ⟨_⟩ := ty
  subst h
  rw [text, text, segments, segments, inside]
  cases path.anchor with
  | external =>
    rw [Anchor.segments, List.singleton_append, pathInside_intercalate (by decide),
      if_pos ⟨List.cons_ne_nil _ _, Or.inl rfl⟩]
    rfl
  | root =>
    rw [Anchor.segments, List.singleton_append, pathInside_intercalate (by decide),
      if_pos ⟨List.cons_ne_nil _ _, Or.inr rfl⟩]
    rfl
  | here ups =>
    rw [Anchor.segments, List.cons_append, pathInside_intercalate (by decide), if_neg (by simp),
      if_pos ⟨hnames _, rfl⟩]
    rfl
  | above ups =>
    rw [Anchor.segments, List.cons_append, pathInside_intercalate (by decide), if_neg (by simp),
      if_neg (by simp)]
    rfl
  | plain =>
    rw [Anchor.segments, List.nil_append, pathInside_intercalate hfirst, if_neg (by simp [hempty, hcrate]),
      if_neg (by simp [hself])]
    rfl

/-! ### Beside a type -/

theorem cutPath_of_not_mem {segment : List Char} (h : ':' ∉ segment) : TypeName.cutPath segment = none := by
  induction segment with
  | nil => rfl
  | cons c rest ih =>
    rw [List.mem_cons, not_or] at h
    rw [TypeName.cutPath, ih h.2]
    exact if_neg fun hc => h.1 hc.1.symm

theorem cutPath_append {after : List Char} (h : ':' ∉ after) (before : List Char) :
    TypeName.cutPath (before ++ "::".toList ++ after) = some (before, after) := by
  induction before with
  | nil =>
    have hsecond : TypeName.cutPath (':' :: after) = none := by
      rw [TypeName.cutPath, cutPath_of_not_mem h]
      exact if_neg fun hc => h (List.mem_of_head? hc.2)
    show TypeName.cutPath (':' :: ':' :: after) = _
    rw [TypeName.cutPath, hsecond]
    rfl
  | cons c rest ih => rw [List.cons_append, List.cons_append, TypeName.cutPath, ih]

theorem modulePath_intercalate {name : String} (h : ':' ∉ name.toList) (segments : List String) :
    TypeName.modulePath ⟨"::".intercalate (segments ++ [name])⟩ = "::".intercalate segments := by
  rw [TypeName.modulePath]
  cases segments with
  | nil =>
    rw [List.nil_append, String.intercalate_singleton, cutPath_of_not_mem h]
    rfl
  | cons first rest =>
    rw [String.intercalate_append_of_ne_nil (List.cons_ne_nil _ _) (List.cons_ne_nil _ _),
      String.intercalate_singleton, String.toList_append, String.toList_append, cutPath_append h]
    exact String.ofList_toList

theorem intercalate_eq_empty_iff {segments : List String} :
    "::".intercalate segments = "" ↔ segments = [] ∨ segments = [""] := by
  match segments with
  | [] => simp
  | [segment] => simp
  | first :: second :: rest =>
    rw [String.intercalate_cons_cons, ← String.toList_inj]
    simp

/-- The path beside a path, with another last name. A name that `::` leaves alone has no module. -/
def sibling (path : TypePath) (name : String) (h : IsName name) : TypePath where
  anchor := if path.anchor = .external ∧ path.rest = [] then .plain else path.anchor
  first := if path.rest = [] then name else path.first
  rest := if path.rest = [] then [] else path.rest.dropLast ++ [name]
  names := by
    obtain ⟨hfirst, hrest⟩ := List.forall_mem_cons.1 path.names
    split
    · exact List.forall_mem_singleton.2 h
    · refine List.forall_mem_cons.2 ⟨hfirst, fun other hother => ?_⟩
      rcases List.mem_append.1 hother with hmem | hmem
      · exact hrest other (List.dropLast_subset _ hmem)
      · exact List.mem_singleton.1 hmem ▸ h

theorem qualify_intercalate {segments : List String} (hnonempty : segments ≠ []) (hempty : segments ≠ [""])
    (name : String) :
    TypeName.qualify ("::".intercalate segments) name = "::".intercalate (segments ++ [name]) := by
  rw [TypeName.qualify, if_neg (mt intercalate_eq_empty_iff.1 (not_or.2 ⟨hnonempty, hempty⟩)),
    String.intercalate_append_of_ne_nil hnonempty (List.cons_ne_nil _ _), String.intercalate_singleton]

theorem qualify_modulePath {ty : TypeName} {path : TypePath} (h : ty.path = path.text) {name : String}
    (hname : IsName name) : TypeName.qualify ty.modulePath name = (path.sibling name hname).text := by
  obtain ⟨hfirst, hothers⟩ := List.forall_mem_cons.1 path.names
  obtain ⟨_⟩ := ty
  subst h
  rw [text, text, segments, segments, sibling]
  dsimp only
  by_cases hrest : path.rest = []
  · rw [if_pos hrest, if_pos hrest, hrest, modulePath_intercalate hfirst.2]
    cases path.anchor with
    | external => rfl
    | plain => rfl
    | root => exact qualify_intercalate (by decide) (by decide) name
    | here ups => exact qualify_intercalate (List.cons_ne_nil _ _) (by simp) name
    | above ups => exact qualify_intercalate (List.cons_ne_nil _ _) (by simp) name
  · have hlast := (hothers _ (List.getLast_mem hrest)).2
    let before := path.anchor.segments ++ path.first :: path.rest.dropLast
    have hsegments : path.anchor.segments ++ path.first :: path.rest =
        before ++ [path.rest.getLast hrest] := by
      rw [List.append_assoc, List.cons_append, List.dropLast_append_getLast]
    have hnonempty : before ≠ [] := List.append_ne_nil_of_right_ne_nil _ (List.cons_ne_nil _ _)
    have hempty : before ≠ [""] := by
      intro heq
      have hmem : path.first ∈ before := List.mem_append_right _ List.mem_cons_self
      rw [heq] at hmem
      exact hfirst.ne.1 (List.mem_singleton.1 hmem)
    rw [hsegments, modulePath_intercalate hlast, qualify_intercalate hnonempty hempty, if_neg hrest,
      if_neg hrest, if_neg fun h => hrest h.2, List.append_assoc, List.cons_append]

end TypePath

end BundleForge
