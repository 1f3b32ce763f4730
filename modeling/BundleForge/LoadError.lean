import BundleForge.FileSystem
import BundleForge.Manifest.Problem
/-!
# Why a manifest or the settings cannot be loaded

An error has a cause and, from the outside in, what was being attempted when it arose. Its messages
stand in the same order, the cause last.
-/

namespace BundleForge

inductive Attempt where
  | readManifest (path : Path)
  | acceptManifest (path : Path)
  | decodeManifest
  | readSettings (path : Path)
  | parseSettings (path : Path)
deriving DecidableEq, Repr

def Attempt.message : Attempt → String
  | readManifest path => s!"Failed to read manifest {path.text}"
  | acceptManifest path => s!"Invalid manifest {path.text}"
  | decodeManifest => "Malformed manifest"
  | readSettings path => s!"Failed to read config file {path.text}"
  | parseSettings path => s!"Failed to parse config file {path.text}"

inductive LoadError.Cause where
  | file (error : FileError)
  | toml (error : Toml.ReadError)
  | problems (found : List Problem)
deriving DecidableEq, Repr

def LoadError.Cause.message : LoadError.Cause → String
  | file error => error.message
  | toml error => error.message
  | problems found => Problem.report found

structure LoadError where
  cause : LoadError.Cause
  /-- Outermost first. -/
  attempts : List Attempt := []
deriving DecidableEq, Repr

namespace LoadError

def messages (error : LoadError) : List String :=
  error.attempts.map (·.message) ++ [error.cause.message]

def message (error : LoadError) : String := String.intercalate ": " error.messages

def within (error : LoadError) (attempt : Attempt) : LoadError :=
  { error with attempts := attempt :: error.attempts }

end LoadError

end BundleForge
