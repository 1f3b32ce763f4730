/-!
# The words of a name

A name is read as words, whatever its spelling: `mainLogo`, `main_logo` and `main-logo` have the
same two. The word list is all that the three spellings of generated identifiers depend on. Case is
ASCII case throughout; other letters are kept as they are and never start a word.
-/

namespace BundleForge.Identifier

def isSeparator (c : Char) : Bool :=
  c == '_' || c == '-' || c == '.'

/-- An upper-case letter starts a word when it follows a lower-case letter or a digit. -/
def startsWord (previous c : Char) : Bool :=
  c.isUpper && (previous.isLower || previous.isDigit)

def words (name : List Char) : List (List Char) :=
  (name.splitOnP isSeparator).flatMap fun part =>
    (part.splitBy fun previous c => !startsWord previous c).map (·.map Char.toLower)

def capitalize : List Char → List Char
  | [] => []
  | c :: rest => c.toUpper :: rest

def snake (name : List Char) : List Char :=
  ['_'].intercalate (words name)

def screaming (name : List Char) : List Char :=
  (snake name).map Char.toUpper

def camel (name : List Char) : List Char :=
  (words name).flatMap capitalize

def toSnakeCase (name : String) : String :=
  String.ofList (snake name.toList)

def toScreamingCase (name : String) : String :=
  String.ofList (screaming name.toList)

def toCamelCase (name : String) : String :=
  String.ofList (camel name.toList)

end BundleForge.Identifier
