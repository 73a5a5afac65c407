import TensorInference.Files.Tree
import TensorInference.Json.Record

/-!
# Listings

A listing names paths and says what is there. The tree of a listing has every listed path and the
directories on the way to it, and nothing else. A listing can be read from a JSON object with one
member a path: null for a directory, a text for a file with that content, and an object with the
target for a symbolic link.
-/

namespace TensorInference.Files

open Json

inductive Listed where
  | directory
  | file (content : Bytes)
  | link (target : Path)

abbrev Listing := List (Path × Listed)

namespace Listing

/-- Put an entry under a name, in place of one with the same name. -/
def put (name : Name) (entry : Entry) : Directory → Directory
  | [] => [(name, entry)]
  | (other, old) :: rest =>
    if other = name then (name, entry) :: rest else (other, old) :: put name entry rest

/-- The content of the directory under a name; empty if there is none. -/
def inside (directory : Directory) (name : Name) : Directory :=
  match directory.find? (·.1 = name) with
  | some (_, .directory inner) => inner
  | _ => []

/-- Put what is listed at the end of a path, and directories on the way to it. -/
def place (listed : Listed) : List String → Directory → Directory
  | [], directory => directory
  | [name], directory =>
    put name
      (match listed with
      | .directory => .directory (inside directory name)
      | .file content => .file content
      | .link target => .link target)
      directory
  | name :: rest, directory =>
    put name (.directory (place listed rest (inside directory name))) directory

def directory (listing : Listing) : Directory :=
  listing.foldl
    (fun directory item =>
      place item.2 (((Path.cut item.1.toList).filter (· ≠ [])).map String.ofList) directory)
    []

def linkFormat : RecordFormat Path where
  title := "struct Link"
  types := [String]
  fields := .cons { name := "symlink", codec := .path, get := id } .nil
  build := fun (target, ()) => target

/-- How what is at a path is written; files of other bytes than text have no exact form. -/
def listed : Codec Listed where
  encode
    | .directory => .null
    | .file content => .string (Text.Utf8.repair content)
    | .link target => linkFormat.codec.encode target
  decode
    | .null => .ok .directory
    | .string token => do return .file (Bytes.ofText (← token.text))
    | node => .link <$> linkFormat.codec.decode node

def read (text : Bytes) : Except Fault Listing := do
  let document := Document.read text
  match document.root with
  | .object members =>
    let listing ← Codec.decodeEntries .text listed members
    if document.ends then .ok listing else .error .trailingCharacters
  | node => .error (node.mismatch "a map")

end Listing

end TensorInference.Files
