import BundleForge.Text.Quoted
/-!
# Values of generated code

The three kinds of resource values that generated initializers construct, and how they are shown.
-/

namespace BundleForge

structure TextPrototype where
  name : String
  text : String

structure DataPrototype where
  name : String
  url : String

structure ImagePrototype where
  name : String
  url : String
  left : UInt32
  top : UInt32
  width : UInt32
  height : UInt32
  animated : Bool
  lossy : Bool

def showRecord (type firstField first secondField second : String) : String :=
  type ++ " \x7b " ++ firstField ++ ": " ++ Text.quoted first ++ ", " ++ secondField ++ ": " ++
    Text.quoted second ++ " \x7d"

def TextPrototype.display (value : TextPrototype) : String :=
  showRecord "TextResourcePrototype" "name" value.name "text" value.text

def DataPrototype.display (value : DataPrototype) : String :=
  showRecord "DataResourcePrototype" "name" value.name "url" value.url

def ImagePrototype.display (value : ImagePrototype) : String :=
  s!"{value.name} ({value.width}x{value.height})"

end BundleForge
