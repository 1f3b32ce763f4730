/-!
# Text as an expression of the generated language

A text is written as string literals. Inside a literal the backslash, the quote, the newline, the
carriage return and NUL are escaped, so a literal never spans lines and ends at its closing quote.
No literal holds more than `chunkLimit` characters: longer text is appended piece by piece.
-/

namespace BundleForge.Literal

def chunkLimit : Nat := 16383

def escapeChar (c : Char) : List Char :=
  if c = '\\' then ['\\', '\\']
  else if c = '"' then ['\\', '"']
  else if c = '\n' then ['\\', 'n']
  else if c = '\r' then ['\\', 'r']
  else if c = '\x00' then ['\\', '0']
  else [c]

def escape (text : String) : String :=
  String.ofList (text.toList.flatMap escapeChar)

def literal (text : String) : String :=
  "\"" ++ escape text ++ "\""

set_option linter.unusedVariables false in
/-- Consecutive pieces of `limit` characters, the last of them perhaps shorter; a limit of zero
counts as one. -/
def chunks (limit : Nat) (text : List Char) : List (List Char) :=
  if h : text = [] then []
  else text.take (max limit 1) :: chunks limit (text.drop (max limit 1))
termination_by text.length
decreasing_by
  have : 0 < text.length := List.length_pos_iff.2 h
  rw [List.length_drop]
  omega

/-- The lines of a block that appends a text piece by piece to a builder with room for all of its
bytes. -/
def builderLines (text : String) : List String :=
  [s!"    let mut builder = ::std::string::String::with_capacity({text.utf8ByteSize});"] ++
    (chunks chunkLimit text.toList).map (fun piece =>
      "    builder.push_str(" ++ literal (String.ofList piece) ++ ");") ++
    ["    builder"]

def stringExpression (text : String) : String :=
  if text.length ≤ chunkLimit then
    "::std::string::String::from(" ++ literal text ++ ")"
  else
    String.intercalate "\n" (["\x7b"] ++ builderLines text ++ ["\x7d"])

end BundleForge.Literal
