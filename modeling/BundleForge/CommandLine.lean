import BundleForge.CommandLine.Arguments
import BundleForge.Manifest
import BundleForge.Run
import BundleForge.Settings
/-!
# The command line

A command line is carried out on a file system: settings and manifest are read, all passes made, and
the generated types written below the output directory. The outcome says what to print and how to
exit.
-/

namespace BundleForge.CommandLine

inductive Failure where
  | load (error : LoadError)
  | noOutDir
  | passes (failed total : Nat)
deriving DecidableEq, Repr

def Failure.messages : Failure → List String
  | load error => error.messages
  | noOutDir => ["No output directory given; pass --out-dir or set out_dir in the config"]
  | passes failed total => [s!"{failed} of {total} generation pass(es) failed"]

inductive Outcome where
  | misuse
  | help
  | version
  /-- The passes were not made. -/
  | refused (failure : Failure)
  | made (report : Report) (outDir : Path) (verbosity : Nat)
deriving DecidableEq

namespace Outcome

def failure? : Outcome → Option Failure
  | misuse | help | version => none
  | refused failure => some failure
  | made report .. =>
    if report.isSuccess then none
    else some (.passes report.failures.length (report.failures.length + report.generated.length))

def exitCode : Outcome → UInt32
  | misuse => 2
  | outcome => if outcome.failure?.isSome then 1 else 0

def output : Outcome → String
  | help => CommandLine.help
  | version => CommandLine.version
  | misuse | refused _ | made .. => ""

def reported : Outcome → List String
  | made report .. => report.diagnostics.map (·.line)
  | misuse | help | version | refused _ => []

/-- The line that sums up a success, for those who asked for more than errors. -/
def summary? : Outcome → Option String
  | made report outDir verbosity =>
    if report.isSuccess && verbosity != 0 then
      some s!"[INFO] Generated {report.generated.length} type(s) into {outDir.text}"
    else none
  | misuse | help | version | refused _ => none

def log (outcome : Outcome) : List String :=
  let complaint :=
    match outcome.failure?.map (·.messages) with
    | some (headline :: causes) =>
      s!"Error: {headline}" :: causes.map fun cause => s!"Caused by: {cause}"
    | _ => if outcome = misuse then [usage] else []
  outcome.summary?.toList ++ outcome.reported.map (fun line => s!"[ERROR] {line}") ++ complaint

end Outcome

/-- The settings file that is used when none is named: the one beside the manifest. -/
def defaultSettings (manifest : Path) : Path :=
  match manifest.parent? with
  | some dir => dir.join ⟨Settings.defaultFileName⟩
  | none => ⟨Settings.defaultFileName⟩

def settingsInFiles (arguments : Arguments) (files : FileSystem) : Except LoadError Settings :=
  match arguments.settings with
  | some path => Settings.load files path
  | none =>
    let path := defaultSettings arguments.manifest
    if files.isFile path then Settings.load files path else .ok {}

/-- The settings of a command line. Its locales follow those of the file, each once. -/
def settings (arguments : Arguments) (files : FileSystem) : Except LoadError Settings :=
  (settingsInFiles arguments files).map fun settings =>
    { settings with
      outDir := arguments.outDir <|> settings.outDir
      locales := arguments.locales.foldl
        (fun locales locale => if locale ∈ locales then locales else locales ++ [locale])
        settings.locales }

def plan (manifest : Manifest) (settings : Settings) : Plan :=
  { hierarchy := manifest.hierarchy, bundles := manifest.bundles,
    deployment := settings.deployment, stripComments := settings.stripComments }

def generate (arguments : Arguments) (files : FileSystem) : Outcome × FileSystem :=
  match settings arguments files with
  | .error error => (.refused (.load error), files)
  | .ok settings =>
    match Manifest.load files arguments.manifest with
    | .error error => (.refused (.load error), files)
    | .ok manifest =>
      match settings.outDir with
      | none => (.refused .noOutDir, files)
      | some outDir =>
        let world : World FileSink := ⟨files, settings.finder files, { outDir }⟩
        let (report, world) := Run.all (plan manifest settings) settings.locales world
        (.made report outDir arguments.verbosity, world.files)

def run (arguments : List String) (files : FileSystem) : Outcome × FileSystem :=
  match parse? arguments with
  | none => (.misuse, files)
  | some .help => (.help, files)
  | some .version => (.version, files)
  | some (.generate arguments) => generate arguments files

end BundleForge.CommandLine
