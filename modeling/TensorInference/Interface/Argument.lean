import TensorInference.Status
import TensorInference.Text.Utf8

/-!
# Arguments

Callers that know nothing of this library pass a text as the place where its bytes start, and a
zero byte ends it; they pass data as a place and a size. A place may be missing, bytes may be no
text, and so every argument is checked before it is used.
-/

namespace TensorInference.Interface

open Text

def missing (what : String) : Status :=
  .invalidArg s!"{what} must not be null"

/-- What can be read from the place of a text on, if there is one. -/
abbrev TextArgument := Option Bytes

namespace TextArgument

def untilZero (bytes : Bytes) : Bytes :=
  bytes.takeWhile (· ≠ 0)

def read (what : String) : TextArgument → Except Status String
  | none => .error (missing what)
  | some bytes =>
    match Utf8.read (untilZero bytes) with
    | .ok text => .ok text
    | .error fault => .error (.invalidArg (s!"{what} is not valid UTF-8: " ++ fault.message))

/-- The text that comes closest to what is passed; none is passed where there is no place. -/
def readLoosely : TextArgument → String
  | none => ""
  | some bytes => Utf8.repair (untilZero bytes)

end TextArgument

structure DataArgument where
  /-- What can be read from the place of the data on, if there is one. -/
  base : Option Bytes
  size : Nat

namespace DataArgument

/-- Whether data is announced and has no place. -/
def isDangling (data : DataArgument) : Bool :=
  data.base.isNone && data.size ≠ 0

def bytes (data : DataArgument) : Bytes :=
  (data.base.getD []).take data.size

end DataArgument

def codeNumber : Code → Nat
  | .success | .unknown => 0
  | .internal => 1
  | .notFound => 2
  | .invalidArg => 3
  | .unavailable => 4
  | .unsupported => 5
  | .alreadyExists => 6

def codeOfNumber? (number : Nat) : Option Code :=
  Code.all.find? fun code => code ≠ .success && codeNumber code = number

/-- A text as it is shown to callers, for whom a zero byte would end it. -/
def shownText (text : String) : String :=
  text.map fun c => if c = '\x00' then ' ' else c

end TensorInference.Interface
