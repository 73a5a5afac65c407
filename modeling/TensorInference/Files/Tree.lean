import TensorInference.Files.Path
import TensorInference.Text.Utf8

/-!
# File trees

The files that a program finds are a tree of directories, files and symbolic links. A path is
looked up component by component; links are followed where they are met, up to a fixed number of
them. An access that fails has a cause, and the causes are worded as operating systems word them.

A tree is a value: this module knows nothing of writing and of permissions.
-/

namespace TensorInference.Files

inductive Entry where
  | file (content : Bytes)
  | directory (entries : List (Name × Entry))
  | link (target : Target)

inductive AccessFault where
  | notFound
  | notDirectory
  | isDirectory
  | nameTooLong
  | tooManyLinks
  | nulInName
  | notText
  deriving DecidableEq, Repr

def AccessFault.message : AccessFault → String
  | .notFound => "No such file or directory (os error 2)"
  | .notDirectory => "Not a directory (os error 20)"
  | .isDirectory => "Is a directory (os error 21)"
  | .nameTooLong => "File name too long (os error 36)"
  | .tooManyLinks => "Too many levels of symbolic links (os error 40)"
  | .nulInName => "file name contained an unexpected NUL byte"
  | .notText => "stream did not contain valid UTF-8"

abbrev Directory := List (Name × Entry)

/-- A tree with the directory in which relative paths start. -/
structure Tree where
  root : Directory
  /-- The names on the way from the root to the current directory. -/
  current : List Name

namespace Tree

/-- A place in a tree: an entry that is not a link, and the directories around it, innermost
first. A directory is the first of its own surroundings. -/
structure Place where
  entry : Entry
  around : List Directory

/-- How far a look-up came. -/
inductive Progress where
  | found (place : Place)
  | failed (fault : AccessFault)
  /-- A link to be followed before the rest of the path. -/
  | linked (around : List Directory) (target : Target) (rest : List Name)

/-- Walk along components until they end or a link is met. -/
def walk (place : Place) : List Name → Progress
  | [] => .found place
  | component :: rest =>
    match place.entry with
    | .directory entries =>
      if component = "." then walk place rest
      else if component = ".." then
        match place.around with
        | _ :: parent :: outer => walk ⟨.directory parent, parent :: outer⟩ rest
        | _ => walk place rest
      else if 255 < component.size then .failed .nameTooLong
      else
        match entries.find? (·.1 = component) with
        | none => .failed .notFound
        | some (_, .directory inner) => walk ⟨.directory inner, inner :: place.around⟩ rest
        | some (_, .file content) => walk ⟨.file content, place.around⟩ rest
        | some (_, .link target) => .linked place.around target rest
    | _ => .failed .notDirectory

/-- Walk along components and follow at most so many links. -/
def follow (root : Directory) : Nat → List Directory → List Name → Except AccessFault Place
  | links, around, components =>
    match walk ⟨.directory (around.head?.getD root), around⟩ components with
    | .found place => .ok place
    | .failed fault => .error fault
    | .linked around target rest =>
      match links with
      | 0 => .error .tooManyLinks
      | links + 1 =>
        if target.components = [] then .error .notFound
        else
          follow root links (if target.isAbsolute then [root] else around)
            (target.components ++ rest)

def linkLimit : Nat := 40

/-- The longest path in bytes. -/
def pathLimit : Nat := 4095

def resolve (tree : Tree) (path : Path) : Except AccessFault Place :=
  if path.toList.contains '\x00' then .error .nulInName
  else if path = "" then .error .notFound
  else if pathLimit < path.utf8ByteSize then .error .nameTooLong
  else
    follow tree.root linkLimit [tree.root]
      ((if Path.isAbsolute path then [] else tree.current) ++ Path.components path)

def contains (tree : Tree) (path : Path) : Bool :=
  (tree.resolve path).isOk

/-- The content of a directory; nothing if the path leads to no directory. -/
def directory? (tree : Tree) (path : Path) : Option Directory :=
  match tree.resolve path with
  | .ok ⟨.directory entries, _⟩ => some entries
  | _ => none

def readText (tree : Tree) (path : Path) : Except AccessFault String :=
  match tree.resolve path with
  | .error fault => .error fault
  | .ok ⟨.file content, _⟩ =>
    match Bytes.text? content with
    | some text => .ok text
    | none => .error .notText
  | .ok _ => .error .isDirectory

end Tree

/-- The directories among the entries of a directory; links to directories do not count. -/
def subdirectories (entries : Directory) : List (Name × Directory) :=
  entries.filterMap fun entry =>
    match entry.2 with
    | .directory inner => some (entry.1, inner)
    | _ => none

/-- The subdirectories whose names are texts; the others are skipped. -/
def textSubdirectories (entries : Directory) : List (String × Directory) :=
  (subdirectories entries).filterMap fun entry =>
    match entry.1.text? with
    | some name => some (name, entry.2)
    | none => none

end TensorInference.Files
