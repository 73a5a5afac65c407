import TensorInference.Files.Tree
import TensorInference.Model.Config
import TensorInference.Text.Numeral

/-!
# Model repositories

A repository is a directory with one directory a model, which holds the model's configuration and
one directory a version. A model that cannot be used does not spoil the others: it is discovered
all the same, with the reason why it has no definition.
-/

namespace TensorInference.Model

open Files

/-- A model whose configuration was read and is valid. -/
structure Definition where
  name : String
  directory : Path
  config : Config
  /-- The versions that are to be served, highest first. -/
  versions : List UInt64

def Definition.versionDirectory (definition : Definition) (version : UInt64) : Path :=
  Path.join definition.directory (toString version.toNat)

/-- A directory of a repository that may hold a model. -/
structure Discovered where
  name : String
  definition : Except Status Definition

namespace Repository

def configFile : String := "config.json"

/-- The versions that have a directory; a directory whose name is no number is passed over. -/
def availableVersions (entries : Directory) : List UInt64 :=
  (textSubdirectories entries).filterMap fun entry => Text.word64? entry.1

def define (files : Tree) (name : String) (directory : Path) (entries : Directory) :
    Except Status Definition := do
  let path := Path.join directory configFile
  let text ← match files.readText path with
    | .ok text => pure text
    | .error fault => .error (.invalidArg (s!"failed to read '{path}': " ++ fault.message))
  let config ← match Config.codec.read (Bytes.ofText text) with
    | .ok config => pure config
    | .error fault => .error (.invalidArg (s!"failed to parse '{path}': " ++ fault.message))
  let config ← config.validate name
  let versions := config.policy.select (availableVersions entries)
  if versions = [] then
    .error (.invalidArg
      s!"at least one version must be available under the version policy of model '{name}'")
  return { name, directory, config, versions }

/-- Whether a directory may hold a model; hidden ones do not. -/
def isModelName (name : String) : Bool :=
  name.toList.head? ≠ some '.'

/-- Find the models of a repository, in the order of their names. A directory whose name is no text
is skipped. -/
def scan (files : Tree) (root : Path) : Except Status (List Discovered) :=
  if root = "" then .error (.invalidArg "model repository path must be specified")
  else if ¬ files.contains root then
    .error (.invalidArg s!"model repository '{root}' not found")
  else match files.directory? root with
    | none => .error (.invalidArg s!"model repository '{root}' is not a directory")
    | some entries =>
      let models := (textSubdirectories entries).filter fun entry => isModelName entry.1
      let found := OrderedMap.ofList (models.map fun entry =>
        (entry.1, define files entry.1 (Path.join root entry.1) entry.2))
      .ok (found.entries.map fun entry => ⟨entry.1, entry.2⟩)

end Repository

end TensorInference.Model
