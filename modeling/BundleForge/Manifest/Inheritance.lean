import BundleForge.Bundle
/-!
# Inherited accessors

A bundle that extends declared bundles inherits their accessors. The walk upwards follows declared
bundles only and remembers the bundles it came through; it turns back at a bundle it came through
already, so it ends also where bundles extend each other in a circle. `Inheritance.circles` reports
where it turned back, and `Inheritance.accessors` what it gathered.
-/

namespace BundleForge

namespace Inheritance

def ahead (bundles : Bundles) (through : List TypeName) : List TypeName :=
  bundles.keys.filter (· ∉ through)

theorem mem_keys_of_get? {bundles : Bundles} {name : TypeName} {bundle : Bundle}
    (h : bundles.get? name = some bundle) : name ∈ bundles.keys := by
  obtain ⟨before, after, hsplit, -⟩ := List.lookup_eq_some_iff.1 h
  simp [OrderedMap.keys, hsplit]

theorem length_ahead_lt {bundles : Bundles} {name : TypeName} {through : List TypeName}
    (hdeclared : name ∈ bundles.keys) (hnew : name ∉ through) :
    (ahead bundles (name :: through)).length < (ahead bundles through).length := by
  have hfilter : ahead bundles (name :: through) =
      (ahead bundles through).filter (· ≠ name) := by
    simp [ahead, List.filter_filter, not_or]
  rw [hfilter]
  refine List.length_filter_lt_length_iff_exists.2 ⟨name, ?_, by simp⟩
  simp [ahead, hdeclared, hnew]

set_option linter.unusedVariables false in
/-- The bundles at which a walk from a bundle turns back, in the order in which it does. -/
def circles (bundles : Bundles) (through : List TypeName) (name : TypeName) : List TypeName :=
  if hnew : name ∈ through then [name]
  else
    match hname : bundles.get? name with
    | none => []
    | some bundle => bundle.supertypes.flatMap (circles bundles (name :: through))
termination_by (ahead bundles through).length
decreasing_by exact length_ahead_lt (mem_keys_of_get? hname) hnew

/-- Adds what a parent passes on: accessors with names that are there already stay out, and the
others are the parent's unless they belong to a bundle above it. -/
def inherit (parent : TypeName) (gathered passedOn : List Accessor) : List Accessor :=
  passedOn.foldl (fun gathered accessor =>
    if gathered.any (·.name = accessor.name) then gathered
    else gathered ++ [{ accessor with owner := some (accessor.owner.getD parent) }]) gathered

def override (own : Accessor) : List Accessor → List Accessor
  | [] => [own]
  | inherited :: rest =>
    if inherited.name = own.name then { own with owner := inherited.owner } :: rest
    else inherited :: override own rest

set_option linter.unusedVariables false in
/-- The accessors of a bundle: inherited ones first, in the order of the parents, each replaced
where it stands if the bundle declares it too. -/
def accessors (bundles : Bundles) (through : List TypeName) (name : TypeName) : List Accessor :=
  if hnew : name ∈ through then []
  else
    match hname : bundles.get? name with
    | none => []
    | some bundle =>
      let inherited := bundle.supertypes.foldl (fun gathered parent =>
        inherit parent gathered (accessors bundles (name :: through) parent)) []
      bundle.accessors.foldl (fun gathered own => override own gathered) inherited
termination_by (ahead bundles through).length
decreasing_by exact length_ahead_lt (mem_keys_of_get? hname) hnew

end Inheritance

end BundleForge
