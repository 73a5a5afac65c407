/-!
# Command-line arguments

The command takes options only. An option has a long name and a letter; letters may stand together
after one dash, and a value follows its option as the next argument, after an equals sign, or right
after the letter. Every option may be given once.
-/

namespace TensorInference.CommandLine

inductive Setting where
  | repository
  | config
  | model
  | verbose
  | help
  deriving DecidableEq, Repr

namespace Setting

def all : List Setting :=
  [.repository, .config, .model, .verbose, .help]

def letter : Setting → Char
  | .repository => 'r'
  | .config => 'c'
  | .model => 'm'
  | .verbose => 'v'
  | .help => 'h'

def name : Setting → String
  | .repository => "model-repository"
  | .config => "config"
  | .model => "model"
  | .verbose => "verbose"
  | .help => "help"

def takesValue : Setting → Bool
  | .repository | .config | .model => true
  | .verbose | .help => false

/-- Whether an empty value is refused: paths are not empty. -/
def wantsContent : Setting → Bool
  | .repository | .config => true
  | .model | .verbose | .help => false

end Setting

structure Arguments where
  repository : Option String := none
  config : Option String := none
  model : Option String := none
  verbose : Bool := false
  deriving DecidableEq, Repr

inductive ArgumentFault where
  | unexpected (word : String)
  | repeated (setting : Setting)
  | valueMissing (setting : Setting)
  | valueUnwanted (setting : Setting)
  deriving DecidableEq, Repr

def ArgumentFault.message : ArgumentFault → String
  | .unexpected word => s!"unexpected argument '{word}' found"
  | .repeated setting =>
    "the argument '--" ++ setting.name ++ "' cannot be used multiple times"
  | .valueMissing setting =>
    "a value is required for '--" ++ setting.name ++ "' but none was supplied"
  | .valueUnwanted setting => "unexpected value for '--" ++ setting.name ++ "' found"

inductive Request where
  | help
  | trial (arguments : Arguments)
  deriving DecidableEq, Repr

namespace Arguments

def has (arguments : Arguments) : Setting → Bool
  | .repository => arguments.repository.isSome
  | .config => arguments.config.isSome
  | .model => arguments.model.isSome
  | .verbose => arguments.verbose
  | .help => false

def store (arguments : Arguments) (setting : Setting) (value : String) : Arguments :=
  match setting with
  | .repository => { arguments with repository := some value }
  | .config => { arguments with config := some value }
  | .model => { arguments with model := some value }
  | .verbose => { arguments with verbose := true }
  | .help => arguments

/-- Set what takes a value. -/
def give (arguments : Arguments) (setting : Setting) (value : String) :
    Except ArgumentFault Arguments :=
  if value = "" ∧ setting.wantsContent then .error (.valueMissing setting)
  else if arguments.has setting then .error (.repeated setting)
  else .ok (arguments.store setting value)

/-- What a word of the command line leads to. -/
inductive Step where
  | done (arguments : Arguments)
  /-- The next word is the value. -/
  | awaiting (setting : Setting) (arguments : Arguments)
  | help

/-- Read the letters after a dash. -/
def readLetters (word : String) (arguments : Arguments) : List Char → Except ArgumentFault Step
  | [] => .ok (.done arguments)
  | letter :: rest =>
    match Setting.all.find? (·.letter = letter) with
    | none => .error (.unexpected word)
    | some .help => .ok .help
    | some .verbose =>
      if arguments.verbose then .error (.repeated .verbose)
      else readLetters word { arguments with verbose := true } rest
    | some setting =>
      match rest with
      | [] => .ok (.awaiting setting arguments)
      | '=' :: value => .done <$> arguments.give setting (String.ofList value)
      | value => .done <$> arguments.give setting (String.ofList value)

/-- Read a long name, and the value after an equals sign if there is one. -/
def readName (word : String) (arguments : Arguments) (text : List Char) :
    Except ArgumentFault Step :=
  let name := text.takeWhile (· ≠ '=')
  let value := (text.dropWhile (· ≠ '=')).tail?.map String.ofList
  match Setting.all.find? (·.name = String.ofList name), value with
  | none, _ => .error (.unexpected word)
  | some setting, some value =>
    if setting.takesValue then .done <$> arguments.give setting value
    else .error (.valueUnwanted setting)
  | some .help, none => .ok .help
  | some .verbose, none => .done <$> arguments.give .verbose ""
  | some setting, none => .ok (.awaiting setting arguments)

/-- Whether a word is no value: it starts with a dash and is more than that. -/
def startsOption (word : String) : Bool :=
  match word.toList with
  | '-' :: _ :: _ => true
  | _ => false

def readWord (arguments : Arguments) (word : String) : Except ArgumentFault Step :=
  match word.toList with
  | '-' :: '-' :: text => readName word arguments text
  | '-' :: letter :: rest => readLetters word arguments (letter :: rest)
  | _ => .error (.unexpected word)

/-- Read the words of a command line. Nothing may follow two dashes that stand alone. -/
def readFrom (arguments : Arguments) : List String → Except ArgumentFault Request
  | [] => .ok (.trial arguments)
  | "--" :: [] => .ok (.trial arguments)
  | "--" :: word :: _ => .error (.unexpected word)
  | word :: rest => do
    match ← readWord arguments word with
    | .help => return .help
    | .done arguments => readFrom arguments rest
    | .awaiting setting arguments =>
      match rest with
      | [] => .error (.valueMissing setting)
      | value :: rest =>
        if startsOption value then .error (.valueMissing setting)
        else do readFrom (← arguments.give setting value) rest

def read (words : List String) : Except ArgumentFault Request :=
  readFrom {} words

end Arguments

end TensorInference.CommandLine
