import BundleForge.Deployment
import BundleForge.LoadError
import BundleForge.Search.Finder
/-!
# Settings of a run

Settings are all optional. A relative directory in a settings file is meant from the directory of that
file.
-/

namespace BundleForge

structure Settings where
  directories : List (Location × List Path) := Location.all.map fun location => (location, [])
  /-- Each is generated in addition to the pass without a locale. -/
  locales : List String := []
  outDir : Option Path := none
  deployment : Deployment := .inline
  stripComments : Bool := false
deriving DecidableEq

namespace Settings

def defaultFileName : String := "resource-bundler.toml"

open Toml

def decodePath : Decoder Path := fun value => (Decoder.textFor "path string" value).map Path.mk

def directoriesField : Location → String
  | .source => "source_dirs"
  | .generatedSource => "generated_dirs"
  | .classPath => "classpath_dirs"
  | .classOutput => "output_dirs"
  | .processorPath => "processor_dirs"

def form : RecordForm :=
  ⟨"Config",
   Location.all.map directoriesField ++ ["locales", "out_dir", "deploy", "strip_comments"]⟩

def deploymentForm : RecordForm := ⟨"DeployConfig", ["dir", "url_prefix"]⟩

def decodeDeployment : Decoder Deployment := fun value => do
  let fields ← deploymentForm.open? value
  return .external (← deploymentForm.required fields "dir" decodePath)
    (← deploymentForm.defaulted fields "url_prefix" "" Decoder.text)

def decode : Decoder Settings := fun value => do
  let fields ← form.open? value
  return {
    directories := ← Location.all.mapM fun location => do
      return (location,
        ← form.defaulted fields (directoriesField location) [] (Decoder.list decodePath))
    locales := ← form.defaulted fields "locales" [] (Decoder.list Decoder.text)
    outDir := ← form.defaulted fields "out_dir" none fun value => (decodePath value).map some
    deployment := ← form.defaulted fields "deploy" .inline decodeDeployment
    stripComments := ← form.defaulted fields "strip_comments" false Decoder.flag }

def parse (text : String) : Except LoadError Settings :=
  (Toml.read decode text).mapError fun error => { cause := .toml error }

def resolveAgainst (settings : Settings) (base : Path) : Settings :=
  { settings with
    directories := settings.directories.map fun (location, dirs) => (location, dirs.map base.join)
    outDir := settings.outDir.map base.join
    deployment :=
      match settings.deployment with
      | .inline => .inline
      | .external dir urlPrefix => .external (base.join dir) urlPrefix }

def load (files : FileSystem) (path : Path) : Except LoadError Settings :=
  match files.readText path with
  | .error error => .error { cause := .file error, attempts := [.readSettings path] }
  | .ok text =>
    match parse text with
    | .error error => .error (error.within (.parseSettings path))
    | .ok settings => .ok (path.parent?.elim settings settings.resolveAgainst)

def finder (settings : Settings) (files : FileSystem) : Finder :=
  settings.directories.foldl
    (fun finder (location, dirs) =>
      dirs.foldl (fun finder dir => finder.register files location dir) finder) {}

end Settings

end BundleForge
