import TensorInference.Bytes

/-!
# Paths

A path is a text whose components are separated by slashes. Paths are joined as texts and shown as
they were given, so a path in a message has the redundant components that its parts had. Its
components are names of directories and files. A system takes any bytes for a name, so there are
names that no path has, and links can lead through them.
-/

namespace TensorInference.Files

/-- A name of a directory or a file: a text, or bytes that are none. -/
inductive Name where
  | text (text : String)
  | bytes (bytes : Bytes) (nontext : bytes.text? = none)
  deriving DecidableEq

instance : Coe String Name := ⟨.text⟩

def Name.text? : Name → Option String
  | .text name => some name
  | .bytes _ _ => none

/-- The length in bytes. -/
def Name.size : Name → Nat
  | .text name => name.utf8ByteSize
  | .bytes name _ => name.length

/-- A path, absolute if it starts with a slash. -/
abbrev Path := String

namespace Path

def isAbsolute (path : Path) : Bool :=
  path.toList.head? = some '/'

def join (directory path : Path) : Path :=
  if isAbsolute path then path
  else if directory = "" ∨ directory.toList.getLast? = some '/' then directory ++ path
  else directory ++ "/" ++ path

def cut : List Char → List (List Char)
  | [] => [[]]
  | c :: rest =>
    if c = '/' then [] :: cut rest
    else match cut rest with
      | [] => [[c]]
      | component :: more => (c :: component) :: more

/-- The components of a path. A slash at the end stands for the directory itself, as a component
of one dot does. -/
def components (path : Path) : List Name :=
  let parts := cut path.toList
  let inner := (parts.filter (· ≠ [])).map fun part => Name.text (String.ofList part)
  if parts.getLast? = some [] then inner ++ [.text "."] else inner

end Path

structure Target where
  isAbsolute : Bool
  components : List Name

/-- The target that is given by a path; the empty path leads nowhere. -/
def Path.target (path : Path) : Target :=
  if path = "" then ⟨false, []⟩ else ⟨path.isAbsolute, path.components⟩

instance : Coe Path Target := ⟨Path.target⟩

end TensorInference.Files
