import BundleForge.Text.Segments
/-!
# Extensions of file names
-/

namespace BundleForge.FileName

/-- What follows the last dot of a file name, in lower case, if it has a dot. Case is ASCII case. -/
def extension? (fileName : String) : Option String :=
  (Text.cutLast? '.' fileName.toList).map fun (_, extension) =>
    String.ofList (extension.map Char.toLower)

end BundleForge.FileName
