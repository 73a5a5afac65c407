import TensorInference.Platform.AddSub
import TensorInference.Platform.Identity

/-!
# Platforms

The platform of a model decides how it is executed. A registry knows platforms by name; each makes
an executor from the configuration of a model and the directory of a version, or refuses.
-/

namespace TensorInference.Platform

open Model Files

/-- How a platform makes an executor. -/
abbrev Factory := Config → Path → Except Status Executor

structure Registry where
  factories : OrderedMap String Factory

namespace Registry

def empty : Registry := ⟨.empty⟩

/-- Add a platform, in place of one with the same name. -/
def register (registry : Registry) (platform : String) (factory : Factory) : Registry :=
  ⟨registry.factories.insert platform factory⟩

def standard : Registry :=
  (empty.register "identity" fun config _ => Identity.create config).register
    "add_sub" fun config _ => AddSub.create config

def contains (registry : Registry) (platform : String) : Bool :=
  registry.factories.contains platform

def platforms (registry : Registry) : List String :=
  registry.factories.keys

def describe (registry : Registry) : String :=
  "PlatformRegistry \x7b platforms: " ++
    Text.bracketed (registry.platforms.map Text.quoted) ++ " \x7d"

def create (registry : Registry) (config : Config) (directory : Path) : Except Status Executor :=
  match registry.factories.get? config.platform with
  | some factory => factory config directory
  | none =>
    let platform := config.platform
    let model := config.name
    .error (.unsupported s!"platform '{platform}' of model '{model}' is not supported")

end Registry

end TensorInference.Platform
