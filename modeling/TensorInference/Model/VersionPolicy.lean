import TensorInference.Json.Record

/-!
# Version policies

A model may be present in several versions, and its policy says which of them are served. A
selection lists versions from the highest to the lowest without repetition, and selects none that
is not present.
-/

namespace TensorInference.Model

open Json

/-- Which of the present versions of a model are served. -/
inductive VersionPolicy where
  /-- The highest versions, so many of them. -/
  | latest (count : UInt32)
  | all
  /-- The listed versions. -/
  | specific (versions : List UInt64)
  deriving DecidableEq, Repr

namespace VersionPolicy

/-- Put a version in its place, highest first, once. -/
def place (version : UInt64) : List UInt64 → List UInt64
  | [] => [version]
  | head :: rest =>
    if head < version then version :: head :: rest
    else if head = version then head :: rest
    else head :: place version rest

/-- The versions of a list, highest first, each once. -/
def descending (versions : List UInt64) : List UInt64 :=
  versions.foldr place []

def select (policy : VersionPolicy) (available : List UInt64) : List UInt64 :=
  match policy with
  | .latest count => (descending available).take count.toNat
  | .all => descending available
  | .specific versions => descending (versions.filter (available.contains ·))

def latestFormat : RecordFormat UInt32 where
  title := "struct variant VersionPolicy::Latest"
  types := [UInt32]
  fields := .cons { name := "num_versions", codec := .word32, get := id } .nil
  build := fun (count, ()) => count

def specificFormat : RecordFormat (List UInt64) where
  title := "struct variant VersionPolicy::Specific"
  types := [List UInt64]
  fields := .cons { name := "versions", codec := Codec.word64.list, get := id } .nil
  build := fun (versions, ()) => versions

/-- Policies are written by name, with what they count or list beside it. -/
def codec : Codec VersionPolicy where
  encode
    | .latest count => .object [("latest", latestFormat.codec.encode count)]
    | .all => .string "all"
    | .specific versions => .object [("specific", specificFormat.codec.encode versions)]
  decode := Codec.Alternative.decode [
    .withContent "latest" "struct variant" fun node => latest <$> latestFormat.decode node,
    .plain "all" .all,
    .withContent "specific" "struct variant" fun node => specific <$> specificFormat.decode node]

end VersionPolicy

end TensorInference.Model
