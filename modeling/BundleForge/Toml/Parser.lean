import BundleForge.Toml.Scalar
/-!
# Reading TOML

Each reader takes the start of a text and answers with what it read and the rest. Strings are read by
recursion on the text. Values nest, so their readers carry fuel: each call takes one unit, and two
units for each character are more than any text can use. Arrays and tables in braces may nest to a
depth of eighty.
-/

namespace BundleForge.Toml

/-! ## Blanks, comments and line ends -/

def isSpace (c : Char) : Bool := c == ' ' || c == '\t'

/-- A character that may stand in a comment or, unless it is special there, in a string. -/
def isPlain (c : Char) : Bool := c == '\t' || (' ' ≤ c && c != '\x7f')

def skipSpaces (text : List Char) : List Char := text.dropWhile isSpace

def afterNewline? : List Char → Option (List Char)
  | '\n' :: rest => some rest
  | '\r' :: '\n' :: rest => some rest
  | _ => none

def endLine? (text : List Char) : Option (List Char) :=
  let rest :=
    match skipSpaces text with
    | '#' :: comment => comment.dropWhile isPlain
    | rest => rest
  match rest with
  | [] => some []
  | rest => afterNewline? rest

def skipLayout (inComment : Bool) : List Char → List Char
  | [] => []
  | '\n' :: rest => skipLayout false rest
  | '\r' :: '\n' :: rest => skipLayout false rest
  | c :: rest =>
    if inComment then (if isPlain c then skipLayout true rest else c :: rest)
    else if isSpace c then skipLayout false rest
    else if c = '#' then skipLayout true rest
    else c :: rest

/-! ## Strings -/

def codePoint? (count : Nat) (text : List Char) : Option (Char × Nat) :=
  let digits := text.take count
  let code := natural 16 digits
  if h : code.isValidChar then
    if digits.length = count ∧ digits.all (isDigitOf 16) then
      some (Char.ofNatAux code h, count + 1)
    else none
  else none

def escape? : List Char → Option (Char × Nat)
  | 'b' :: _ => some ('\x08', 1)
  | 't' :: _ => some ('\t', 1)
  | 'n' :: _ => some ('\n', 1)
  | 'f' :: _ => some ('\x0c', 1)
  | 'r' :: _ => some ('\r', 1)
  | 'e' :: _ => some ('\x1b', 1)
  | '"' :: _ => some ('"', 1)
  | '\\' :: _ => some ('\\', 1)
  | 'x' :: rest => codePoint? 2 rest
  | 'u' :: rest => codePoint? 4 rest
  | 'U' :: rest => codePoint? 8 rest
  | _ => none

def basicString? (text : List Char) : Option (List Char × List Char) :=
  match text with
  | [] => none
  | c :: rest =>
    if c = '"' then some ([], rest)
    else if c = '\\' then do
      let (escaped, length) ← escape? rest
      let (string, after) ← basicString? (rest.drop length)
      return (escaped :: string, after)
    else if isPlain c then do
      let (string, after) ← basicString? rest
      return (c :: string, after)
    else none
termination_by text.length
decreasing_by
  all_goals simp only [List.length_drop, List.length_cons]
  all_goals omega

def literalString? (text : List Char) : Option (List Char × List Char) :=
  match text.span fun c => isPlain c && c != '\'' with
  | (string, '\'' :: after) => some (string, after)
  | _ => none

/-- Quotes at the start of a text: how many belong to a string of several lines, and whether they
end it. A string ends with three quotes and may have two more before them. -/
def quotesAt (quote : Char) (text : List Char) : Nat × Bool :=
  let count := min (text.takeWhile (· = quote)).length 5
  if count < 3 then (count, false) else (count - 3, true)

/-- Whether a backslash ends its line, so that the string goes on at the next visible character. -/
def continuesLine (text : List Char) : Bool := (afterNewline? (skipSpaces text)).isSome

def skipBreaks : List Char → List Char
  | '\n' :: rest => skipBreaks rest
  | '\r' :: '\n' :: rest => skipBreaks rest
  | c :: rest => if isSpace c then skipBreaks rest else c :: rest
  | [] => []

theorem length_skipBreaks_le (text : List Char) : (skipBreaks text).length ≤ text.length := by
  fun_induction skipBreaks text <;> simp only [List.length_cons, List.length_nil] at * <;> omega

def multilineBasic? (text : List Char) : Option (List Char × List Char) :=
  match text with
  | [] => none
  | c :: rest =>
    if c = '"' then
      match quotesAt '"' text with
      | (count, true) => some (List.replicate count '"', rest.drop (count + 2))
      | (_, false) => do
        let (string, after) ← multilineBasic? rest
        return ('"' :: string, after)
    else if c = '\\' then
      if continuesLine rest then multilineBasic? (skipBreaks rest)
      else do
        let (escaped, length) ← escape? rest
        let (string, after) ← multilineBasic? (rest.drop length)
        return (escaped :: string, after)
    else if isPlain c || (afterNewline? text).isSome then do
      let (string, after) ← multilineBasic? rest
      return (c :: string, after)
    else none
termination_by text.length
decreasing_by
  all_goals simp only [List.length_drop, List.length_cons]
  all_goals have := length_skipBreaks_le rest
  all_goals omega

def multilineLiteral? : List Char → Option (List Char × List Char)
  | [] => none
  | c :: rest =>
    if c = '\'' then
      match quotesAt '\'' (c :: rest) with
      | (count, true) => some (List.replicate count '\'', rest.drop (count + 2))
      | (_, false) => do
        let (string, after) ← multilineLiteral? rest
        return ('\'' :: string, after)
    else if isPlain c || (afterNewline? (c :: rest)).isSome then do
      let (string, after) ← multilineLiteral? rest
      return (c :: string, after)
    else none

/-- A line end right after the opening quotes does not count. -/
def dropNewline (text : List Char) : List Char := (afterNewline? text).getD text

def string? : List Char → Option (List Char × List Char)
  | '"' :: '"' :: '"' :: rest => multilineBasic? (dropNewline rest)
  | '\'' :: '\'' :: '\'' :: rest => multilineLiteral? (dropNewline rest)
  | '"' :: rest => basicString? rest
  | '\'' :: rest => literalString? rest
  | _ => none

/-! ## Keys -/

def isBareKey (c : Char) : Bool := c.isAlphanum || c == '_' || c == '-'

def simpleKey? : List Char → Option (String × List Char)
  | '"' :: rest => (basicString? rest).map fun (key, after) => (String.ofList key, after)
  | '\'' :: rest => (literalString? rest).map fun (key, after) => (String.ofList key, after)
  | text =>
    match text.span isBareKey with
    | ([], _) => none
    | (key, after) => some (String.ofList key, after)

def dottedKey? : Nat → List Char → Option (List String × List Char)
  | 0, _ => none
  | fuel + 1, text => do
    let (key, after) ← simpleKey? (skipSpaces text)
    match skipSpaces after with
    | '.' :: rest =>
      let (keys, after) ← dottedKey? fuel rest
      return (key :: keys, after)
    | after => return ([key], after)

def key? (text : List Char) : Option (List String × List Char) := dottedKey? text.length text

/-! ## Values -/

/-- A character that ends an unquoted word. -/
def endsWord (c : Char) : Bool :=
  isSpace c || c == '\n' || c == '\r' || c == ',' || c == '[' || c == ']' || c == '{' || c == '}' ||
    c == '=' || c == '#' || c == '"' || c == '\''

/-- A word at the start of a text. A date takes the time after a single blank with it. -/
def word (text : List Char) : List Char × List Char :=
  let (first, rest) := text.span (!endsWord ·)
  match rest with
  | ' ' :: c :: _ =>
    if isDate first ∧ c.isDigit then
      let (second, rest) := rest.tail.span (!endsWord ·)
      (first ++ ' ' :: second, rest)
    else (first, rest)
  | _ => (first, rest)

def scalarAt? (text : List Char) : Option (Value × List Char) := do
  let (first, rest) := word text
  return (← scalar? first, rest)

mutual

/-- A value at the start of a text, with at most `depth` brackets open inside it. -/
def value? : Nat → Nat → List Char → Option (Value × List Char)
  | 0, _, _ => none
  | fuel + 1, depth, text =>
    match text with
    | '[' :: rest =>
      match depth with
      | 0 => none
      | depth + 1 => do
        let (items, after) ← items? fuel depth (skipLayout false rest)
        return (.array false items, after)
    | '{' :: rest =>
      match depth with
      | 0 => none
      | depth + 1 => do
        let (entries, after) ← pairs? fuel depth [] (skipLayout false rest)
        return (.table .inline entries, after)
    | '"' :: _ | '\'' :: _ => (string? text).map fun (s, after) => (.string (String.ofList s), after)
    | text => scalarAt? text

def items? : Nat → Nat → List Char → Option (List Value × List Char)
  | 0, _, _ => none
  | fuel + 1, depth, text =>
    match text with
    | ']' :: rest => some ([], rest)
    | text => do
      let (item, after) ← value? fuel depth text
      match skipLayout false after with
      | ',' :: rest =>
        let (items, after) ← items? fuel depth (skipLayout false rest)
        return (item :: items, after)
      | ']' :: rest => return ([item], rest)
      | _ => none

def pairs? : Nat → Nat → Entries → List Char → Option (Entries × List Char)
  | 0, _, _, _ => none
  | fuel + 1, depth, entries, text =>
    match text with
    | '}' :: rest => some (entries, rest)
    | text => do
      let (keys, after) ← key? text
      match skipSpaces after with
      | '=' :: rest =>
        let (value, after) ← value? fuel depth (skipSpaces rest)
        let last ← keys.getLast?
        let entries ← Entries.insertDotted last value keys.dropLast entries
        match skipLayout false after with
        | ',' :: rest => pairs? fuel depth entries (skipLayout false rest)
        | '}' :: rest => return (entries, rest)
        | _ => none
      | _ => none

end

/-- How deep arrays and tables in braces may nest. -/
def maxDepth : Nat := 80

/-! ## Documents -/

structure Reading where
  root : Entries
  path : List String

def pairLine? (reading : Reading) (text : List Char) : Option (Reading × List Char) := do
  let (keys, after) ← key? text
  match after with
  | '=' :: rest =>
    let (value, after) ← value? (2 * rest.length + 2) maxDepth (skipSpaces rest)
    let after ← endLine? after
    let last ← keys.getLast?
    let root ← reading.root.modify (Entries.insertDotted last value keys.dropLast) reading.path
    return ({ reading with root }, after)
  | _ => none

/-- A header, which opens a table; `double` if it adds to an array of tables. -/
def headerLine? (reading : Reading) (double : Bool) (text : List Char) :
    Option (Reading × List Char) := do
  let (keys, after) ← key? text
  let after ←
    match double, after with
    | false, ']' :: after => some after
    | true, ']' :: ']' :: after => some after
    | _, _ => none
  let after ← endLine? after
  let last ← keys.getLast?
  let change := if double then Entries.appendTable last else Entries.openTable last
  let root ← reading.root.modify change keys.dropLast
  return (⟨root, keys⟩, after)

def line? (reading : Reading) (text : List Char) : Option (Reading × List Char) :=
  match text with
  | '[' :: '[' :: rest => headerLine? reading true rest
  | '[' :: rest => headerLine? reading false rest
  | text => pairLine? reading text

def lines? : Nat → Reading → List Char → Option Entries
  | 0, _, _ => none
  | fuel + 1, reading, text =>
    match skipLayout false text with
    | [] => some reading.root
    | rest => do
      let (reading, after) ← line? reading rest
      lines? fuel reading after

/-- The root table of a document, if the text is TOML. A byte order mark in front is skipped. -/
def document? (text : String) : Option Entries :=
  let chars :=
    match text.toList with
    | '\ufeff' :: rest => rest
    | chars => chars
  lines? (chars.length + 1) ⟨[], []⟩ chars

end BundleForge.Toml
