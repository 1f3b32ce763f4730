/-!
# Indented text

A layout is a list of instructions for a writer that keeps a depth. A line is written after four
blanks for each level of depth, unless it is empty; a text with newlines is written line by line. A
block is an opening line, its body one level deeper, and a closing line.
-/

namespace BundleForge

inductive Instruction where
  | line (text : String)
  | blank
  | indent
  | outdent
deriving DecidableEq, Repr

abbrev Layout := List Instruction

namespace Layout

def block (header suffix : String) (body : Layout) : Layout :=
  [.line (header ++ " \x7b"), .indent] ++ body ++ [.outdent, .line ("\x7d" ++ suffix)]

def renderLine (depth : Nat) (line : List Char) : List Char :=
  match line with
  | [] => ['\n']
  | _ :: _ => List.replicate (4 * depth) ' ' ++ line ++ ['\n']

def depthAfter (depth : Nat) : Instruction → Nat
  | .line _ | .blank => depth
  | .indent => depth + 1
  | .outdent => depth - 1

/-- What an instruction writes at a depth. -/
def written (depth : Nat) : Instruction → List Char
  | .line text => (text.toList.splitOn '\n').flatMap (renderLine depth)
  | .blank => ['\n']
  | .indent | .outdent => []

def renderFrom (depth : Nat) : Layout → List Char
  | [] => []
  | instruction :: rest =>
    written depth instruction ++ renderFrom (depthAfter depth instruction) rest

def render (layout : Layout) : String :=
  String.ofList (renderFrom 0 layout)

end Layout

end BundleForge
