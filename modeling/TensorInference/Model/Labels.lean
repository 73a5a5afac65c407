import TensorInference.Files.Tree
import TensorInference.Model.Config
import TensorInference.Text.Lines

/-!
# Class labels

An output whose elements score classes may have a file with one label a line. When the shape of
the output fixes the number of its classes, the file must have as many lines. A class without a
label has the empty one.
-/

namespace TensorInference.Model

open Files

/-- The labels of the outputs of a model, by the position of the class. -/
structure Labels where
  table : OrderedMap String (List String)

namespace Labels

def empty : Labels := ⟨.empty⟩

def insert (labels : Labels) (output : String) (names : List String) : Labels :=
  ⟨labels.table.insert output names⟩

def has (labels : Labels) (output : String) : Bool :=
  labels.table.contains output

def label (labels : Labels) (output : String) (index : Nat) : String :=
  ((labels.table.get? output).bind (·[index]?)).getD ""

section

variable {labels : Labels} {output name : String} {names : List String} {index : Nat}

theorem label_of_getElem? (hnames : labels.table.get? output = some names)
    (hname : names[index]? = some name) : labels.label output index = name := by
  rw [label, hnames, Option.bind_some, hname, Option.getD_some]

theorem label_of_length_le
    (h : ∀ names, labels.table.get? output = some names → names.length ≤ index) :
    labels.label output index = "" := by
  rw [label]
  cases hnames : labels.table.get? output with
  | none => rfl
  | some names => rw [Option.bind_some, List.getElem?_eq_none (h names hnames), Option.getD_none]

end

/-- Read the labels of an output that has a label file. -/
def loadOutput (files : Tree) (directory : Path) (labels : Labels) (output : Output) :
    Except Status Labels :=
  match output.labelFile with
  | none => .ok labels
  | some file => do
    let path := Path.join directory file
    let name := output.name
    let text ← match files.readText path with
      | .ok text => pure text
      | .error fault =>
        .error (.invalidArg
          (s!"failed to read label file '{path}' for output '{name}': " ++ fault.message))
    let names := Text.trimmedLines text
    if let some classes := output.shape.elementCount then
      if names.length ≠ classes then
        let count := names.length
        .error (.invalidArg
          s!"label file '{path}' has {count} labels but output '{name}' has {classes} classes")
    return labels.insert name names

def load (files : Tree) (directory : Path) (config : Config) : Except Status Labels :=
  config.outputs.foldlM (loadOutput files directory) empty

end Labels

end TensorInference.Model
