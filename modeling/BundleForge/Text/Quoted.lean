import BundleForge.Text.Unseen
/-!
# Quoted text

Messages that name a text whose ends must be visible show it in double quotes. Tab, carriage return,
newline, NUL, backslash and quote have short escapes; any other character that could not be seen is
shown by its code point in hexadecimal.
-/

namespace BundleForge.Text

def quoteChar (c : Char) : List Char :=
  if c = '\x00' then ['\\', '0']
  else if c = '\t' then ['\\', 't']
  else if c = '\r' then ['\\', 'r']
  else if c = '\n' then ['\\', 'n']
  else if c = '\\' then ['\\', '\\']
  else if c = '"' then ['\\', '"']
  else if isUnseen c then ['\\', 'u', '{'] ++ Nat.toDigits 16 c.toNat ++ ['}']
  else [c]

def quoted (s : String) : String :=
  String.ofList ('"' :: (s.toList.flatMap quoteChar ++ ['"']))

def quotedList (items : List String) : String :=
  String.intercalate ", " (items.map quoted)

end BundleForge.Text
