import BundleForge.Path
import BundleForge.Text.Segments
/-!
# The arguments of the command line

Arguments are read in two steps: `tokens` finds the options and the values that belong to them, and
`Draft.read` takes the options in their order. The first option that asks for help or for the version
ends the reading, and so does the first mistake, so a mistake counts only where nothing before it
ended the reading.

An option with a value takes it from its own argument, after an equals sign or, in its short form,
directly, and otherwise from the next argument, which must not look like an option. Short options may
share one argument. Nothing but options is accepted.
-/

namespace BundleForge.CommandLine

inductive Flag where
  | manifest
  | settings
  | outDir
  | locale
  | verbose
  | help
  | version
deriving DecidableEq, Repr

namespace Flag

def all : List Flag := [manifest, settings, outDir, locale, verbose, help, version]

def short : Flag → Char
  | manifest => 'm'
  | settings => 'c'
  | outDir => 'o'
  | locale => 'l'
  | verbose => 'v'
  | help => 'h'
  | version => 'V'

def long : Flag → String
  | manifest => "manifest"
  | settings => "config"
  | outDir => "out-dir"
  | locale => "locale"
  | verbose => "verbose"
  | help => "help"
  | version => "version"

def value? : Flag → Option String
  | manifest => some "MANIFEST"
  | settings => some "CONFIG"
  | outDir => some "OUT_DIR"
  | locale => some "LOCALES"
  | verbose | help | version => none

def summary : Flag → String
  | manifest => "Manifest declaring the bundles to generate"
  | settings => "Configuration file, `resource-bundler.toml` next to the manifest by default"
  | outDir => "Directory generated sources are written to"
  | locale => "Additional locale to generate; may be repeated"
  | verbose => "Increase verbosity (-v info, -vv debug, -vvv trace)"
  | help => "Print help"
  | version => "Print version"

/-- How the help shows an option: both names and the value, or that it may be counted. -/
def signature (flag : Flag) : String :=
  "-" ++ flag.short.toString ++ ", --" ++ flag.long ++
    match flag.value? with
    | some value => s!" <{value}>"
    | none => if flag = verbose then "..." else ""

end Flag

inductive Token where
  | switch (flag : Flag)
  | valued (flag : Flag) (value : String)
  | mistake
deriving DecidableEq, Repr

/-- The tokens of one argument, and the option that still lacks its value. -/
abbrev Scanned := List Token × Option Flag

def scanLong (name : String) (value : Option String) : Scanned :=
  match Flag.all.find? (·.long = name) with
  | none => ([.mistake], none)
  | some flag =>
    match flag.value?, value with
    | none, none => ([.switch flag], none)
    | none, some _ => ([.mistake], none)
    | some _, none => ([], some flag)
    | some _, some value => ([.valued flag value], none)

def scanShort : List Char → Scanned
  | [] => ([], none)
  | c :: rest =>
    match Flag.all.find? (·.short = c) with
    | none => ([.mistake], none)
    | some flag =>
      match flag.value?, rest with
      | none, _ =>
        let (tokens, waiting) := scanShort rest
        (.switch flag :: tokens, waiting)
      | some _, [] => ([], some flag)
      | some _, '=' :: value => ([.valued flag (String.ofList value)], none)
      | some _, value => ([.valued flag (String.ofList value)], none)

def scan (argument : String) : Scanned :=
  match argument.toList with
  | '-' :: '-' :: body =>
    match Text.cutFirst? '=' body with
    | some (name, value) => scanLong (String.ofList name) (some (String.ofList value))
    | none => scanLong (String.ofList body) none
  | '-' :: c :: rest => scanShort (c :: rest)
  | _ => ([.mistake], none)

def isValue (argument : String) : Bool := argument = "-" || !Text.beginsWith "-" argument

def tokens : List String → List Token
  | [] => []
  | argument :: rest =>
    if argument = "--" then (if rest = [] then [] else [.mistake])
    else
      match scan argument, rest with
      | (found, none), rest => found ++ tokens rest
      | (found, some flag), value :: rest =>
        if isValue value then found ++ .valued flag value :: tokens rest else found ++ [.mistake]
      | (found, some _), [] => found ++ [.mistake]

structure Arguments where
  manifest : Path
  settings : Option Path := none
  outDir : Option Path := none
  locales : List String := []
  verbosity : Nat := 0
deriving DecidableEq, Repr

inductive Request where
  | generate (arguments : Arguments)
  | help
  | version
deriving DecidableEq, Repr

structure Draft where
  manifest : Option Path := none
  settings : Option Path := none
  outDir : Option Path := none
  locales : List String := []
  verbosity : Nat := 0

namespace Draft

def once? (before : Option Path) (value : String) : Option (Option Path) :=
  if before.isSome || value = "" then none else some (some ⟨value⟩)

def give? (draft : Draft) (flag : Flag) (value : String) : Option Draft :=
  match flag with
  | .manifest => (once? draft.manifest value).map fun manifest => { draft with manifest }
  | .settings => (once? draft.settings value).map fun settings => { draft with settings }
  | .outDir => (once? draft.outDir value).map fun outDir => { draft with outDir }
  | .locale => some { draft with locales := draft.locales ++ [value] }
  | .verbose | .help | .version => none

def finish? (draft : Draft) : Option Request :=
  draft.manifest.map fun manifest =>
    .generate ⟨manifest, draft.settings, draft.outDir, draft.locales, draft.verbosity⟩

def read (draft : Draft) : List Token → Option Request
  | [] => draft.finish?
  | .switch .help :: _ => some .help
  | .switch .version :: _ => some .version
  | .switch .verbose :: rest => read { draft with verbosity := draft.verbosity + 1 } rest
  | .switch _ :: _ => none
  | .valued flag value :: rest =>
    match draft.give? flag value with
    | some draft => read draft rest
    | none => none
  | .mistake :: _ => none

end Draft

def parse? (arguments : List String) : Option Request := Draft.read {} (tokens arguments)

/-! ## Help -/

def name : String := "resource-bundler"

def usage : String := s!"Usage: {name} [OPTIONS] --manifest <MANIFEST>"

def help : String :=
  let width := (Flag.all.map fun flag => flag.signature.length).foldl max 0
  let line (flag : Flag) :=
    "  " ++ flag.signature ++ String.ofList (List.replicate (width - flag.signature.length) ' ') ++
      "  " ++ flag.summary ++ "\n"
  "Generate Rust implementations of declared resource bundles\n\n" ++ usage ++ "\n\nOptions:\n" ++
    String.join (Flag.all.map line)

def version : String := name ++ " 0.8.2\n"

end BundleForge.CommandLine
