import BundleForge.CommandLine
/-!
# What a command line looks at

A run asks for a small part of the file system: the settings and the manifest, the files its
accessors may mean, and what stands where it writes. The footprint names that part. It depends on the
settings and on the manifest, so it is complete only for files that hold both.
-/

namespace BundleForge.CommandLine

structure Footprint where
  paths : List Path
  /-- Directories of which every entry counts. -/
  listed : List Path := []

namespace Footprint

def sources (arguments : Arguments) : List Path :=
  [arguments.settings.getD (defaultSettings arguments.manifest), arguments.manifest]

/-- The full paths that accessors may mean in the passes of a run. -/
def resources (manifest : Manifest) (locales : List String) : List String :=
  (Run.passes manifest.bundles locales).flatMap fun (bundle, locale) =>
    bundle.accessors.flatMap fun accessor =>
      SearchPath.candidates bundle accessor (manifest.hierarchy.defaultExtensions accessor.kind)
        (accessor.effectiveLocale locale)

def targets (manifest : Manifest) (locales : List String) (outDir : Path) : List Path :=
  (Run.passes manifest.bundles locales).map fun (bundle, locale) =>
    ({ outDir } : FileSink).target ⟨bundle.name.modulePath, bundle.implementation locale⟩

def ofRun (manifest : Manifest) (settings : Settings) : Footprint :=
  let found := resources manifest settings.locales
  let searched := settings.directories.flatMap fun (_, dirs) =>
    dirs.flatMap fun dir => dir :: found.map fun path => dir.join ⟨path⟩
  { paths := searched ++ settings.outDir.elim [] (targets manifest settings.locales)
    listed :=
      match settings.deployment with
      | .inline => []
      | .external dir _ => [dir] }

def ofFiles (arguments : Arguments) (files : FileSystem) : Footprint :=
  match settings arguments files, Manifest.load files arguments.manifest with
  | .ok settings, .ok manifest => ofRun manifest settings
  | _, _ => { paths := sources arguments }

end Footprint

end BundleForge.CommandLine
