/-!
# Identifiers of generated code

A name can be written as an identifier when it consists of ASCII letters, digits and underscores,
does not start with a digit, is more than a lone underscore, and is not a keyword.
-/

namespace BundleForge.Identifier

def keywords : List String :=
  ["as", "async", "await", "break", "const", "continue", "crate", "dyn", "else", "enum", "extern",
   "false", "fn", "for", "gen", "if", "impl", "in", "let", "loop", "match", "mod", "move", "mut",
   "pub", "ref", "return", "self", "Self", "static", "struct", "super", "trait", "true", "type",
   "unsafe", "use", "where", "while", "abstract", "become", "box", "do", "final", "macro",
   "override", "priv", "try", "typeof", "unsized", "virtual", "yield"]

def canStart (c : Char) : Bool :=
  c.isAlpha || c == '_'

def canContinue (c : Char) : Bool :=
  c.isAlphanum || c == '_'

/-- Whether a name can be used as an identifier as it stands. -/
def isValid (name : String) : Bool :=
  match name.toList with
  | [] => false
  | first :: rest =>
    canStart first && rest.all canContinue && name != "_" && !keywords.contains name

end BundleForge.Identifier
