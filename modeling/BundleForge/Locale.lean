import BundleForge.Text.Segments
/-!
# Locale fallback

A locale is a list of segments joined by underscores. A resource is looked for under its name with
all segments added, then with one fewer at a time, down to the plain name. Segments are added before
the last dot of the file name, or at its end when it has no dot; dots in directories do not count.
-/

namespace BundleForge.Locale

/-- A path cut before the extension of its last segment; the extension keeps its dot. -/
def cutExtension (path : List Char) : List Char × List Char :=
  let file := Text.afterLast '/' path
  match Text.cutLast? '.' file with
  | some (_, extension) =>
    (path.take (path.length - (extension.length + 1)), '.' :: extension)
  | none => (path, [])

/-- Segments as they stand in a file name, each after an underscore. -/
def suffix (segments : List (List Char)) : List Char :=
  segments.flatMap ('_' :: ·)

/-- A path with the first `count` segments added. -/
def candidate (path : List Char) (segments : List (List Char)) (count : Nat) : List Char :=
  let (base, extension) := cutExtension path
  base ++ suffix (segments.take count) ++ extension

def candidates (path : String) (locale : Option String) : List String :=
  match locale with
  | none => [path]
  | some locale =>
    if locale = "" then [path]
    else
      let segments := locale.toList.splitOn '_'
      (List.range (segments.length + 1)).reverse.map fun count =>
        String.ofList (candidate path.toList segments count)

end BundleForge.Locale
