import Retrace.Log
import Retrace.Text.Integer

/-!
# Command-line arguments

Options in their short and long forms, and the path of a script. A value may follow its option, be
attached to it, or stand after an equals sign; short options may be written together. After two hyphens
everything is a path. What is wrong with the arguments is found from left to right, and a value is
looked at when the next option or path begins.
-/

namespace Retrace

structure Arguments where
  config : Option String
  scopes : Option String
  undoLimit : Option UInt64
  script : Option String
  logLevel : Option LogLevel
  isVerbose : Bool
  isQuiet : Bool
  deriving DecidableEq, Inhabited

/-- Why arguments do not lead to a run. -/
inductive Stop where
  | unknownArgument
  | missingValue
  | badValue
  | conflict
  | unneededValue
  | help
  | version
  deriving DecidableEq, Inhabited

namespace Arguments

def none : Arguments :=
  { config := .none, scopes := .none, undoLimit := .none, script := .none, logLevel := .none
    isVerbose := false, isQuiet := false }

def level (arguments : Arguments) : LogLevel :=
  match arguments.logLevel with
  | some level => level
  | .none =>
    if arguments.isVerbose then .debug else if arguments.isQuiet then .error else LogLevel.standard

inductive Slot where
  | config
  | scopes
  | undoLimit
  | logLevel
  | script
  deriving DecidableEq, Inhabited

inductive Flag where
  | verbose
  | quiet
  | help
  | version
  deriving DecidableEq, Inhabited

def longOption? (name : List Char) : Option (Slot ⊕ Flag) :=
  match String.ofList name with
  | "config" => some (.inl .config)
  | "scopes" => some (.inl .scopes)
  | "undo-limit" => some (.inl .undoLimit)
  | "log-level" => some (.inl .logLevel)
  | "verbose" => some (.inr .verbose)
  | "quiet" => some (.inr .quiet)
  | "help" => some (.inr .help)
  | "version" => some (.inr .version)
  | _ => .none

def shortOption? : Char → Option (Slot ⊕ Flag)
  | 'c' => some (.inl .config)
  | 's' => some (.inl .scopes)
  | 'l' => some (.inl .undoLimit)
  | 'v' => some (.inr .verbose)
  | 'q' => some (.inr .quiet)
  | 'h' => some (.inr .help)
  | 'V' => some (.inr .version)
  | _ => .none

/-- Whether a value was given already. -/
def has (arguments : Arguments) : Slot → Bool
  | .config => arguments.config.isSome
  | .scopes => arguments.scopes.isSome
  | .undoLimit => arguments.undoLimit.isSome
  | .logLevel => arguments.logLevel.isSome
  | .script => arguments.script.isSome

/-- Puts a value in its place. A path cannot be empty. -/
def put (arguments : Arguments) (slot : Slot) (value : List Char) : Except Stop Arguments :=
  match slot with
  | .config =>
    if value.isEmpty then .error .missingValue
    else .ok { arguments with config := some (String.ofList value) }
  | .scopes => .ok { arguments with scopes := some (String.ofList value) }
  | .undoLimit =>
    match Text.unsigned64? value with
    | some limit => .ok { arguments with undoLimit := some limit }
    | .none => .error .badValue
  | .logLevel =>
    match LogLevel.ofText? (String.ofList value) with
    | some level => .ok { arguments with logLevel := some level }
    | .none => .error .badValue
  | .script =>
    if value.isEmpty then .error .missingValue
    else .ok { arguments with script := some (String.ofList value) }

def take (arguments : Arguments) (slot : Slot) (value : Option (List Char)) : Except Stop Arguments :=
  match value with
  | .none => .error .missingValue
  | some value => if arguments.has slot then .error .conflict else arguments.put slot value

/-- Takes note of a flag, which must be given only once. -/
def raise (arguments : Arguments) : Flag → Except Stop Arguments
  | .verbose =>
    if arguments.isVerbose then .error .conflict else .ok { arguments with isVerbose := true }
  | .quiet => if arguments.isQuiet then .error .conflict else .ok { arguments with isQuiet := true }
  | .help => .error .help
  | .version => .error .version

/-- How far the arguments have been read: what was taken, what is still to be taken, whether a path was
given, and whether only paths follow. -/
structure Reading where
  taken : Arguments
  pending : Option (Slot × Option (List Char))
  hasPath : Bool
  onlyPaths : Bool

namespace Reading

def start : Reading := ⟨Arguments.none, .none, false, false⟩

def flush (reading : Reading) : Except Stop Reading :=
  match reading.pending with
  | .none => .ok reading
  | some (slot, value) =>
    (reading.taken.take slot value).map fun taken => { reading with taken, pending := .none }

def begin (reading : Reading) (slot : Slot) (value : Option (List Char)) : Except Stop Reading :=
  reading.flush.map fun reading => { reading with pending := some (slot, value) }

def fill (reading : Reading) (slot : Slot) (value : List Char) : Except Stop Reading := do
  let reading ← reading.flush
  let taken ← reading.taken.take slot (some value)
  return { reading with taken }

def raise (reading : Reading) (flag : Flag) : Except Stop Reading := do
  let reading ← reading.flush
  let taken ← reading.taken.raise flag
  return { reading with taken }

def readLong (reading : Reading) (text : List Char) : Except Stop Reading :=
  let name := text.takeWhile (· != '=')
  match longOption? name, text.drop name.length with
  | .none, _ => .error .unknownArgument
  | some (.inl slot), [] => reading.begin slot .none
  | some (.inl slot), _ :: value => reading.fill slot value
  | some (.inr flag), [] => reading.raise flag
  | some (.inr _), _ :: _ => .error .unneededValue

def readShort (reading : Reading) : List Char → Except Stop Reading
  | [] => .ok reading
  | letter :: rest =>
    match shortOption? letter with
    | .none => .error .unknownArgument
    | some (.inl slot) =>
      match rest with
      | [] => reading.begin slot .none
      | '=' :: value => reading.fill slot value
      | value => reading.fill slot value
    | some (.inr flag) => do
      let reading ← reading.raise flag
      readShort reading rest

/-- Reads a word that is no option: the value that an option waits for, or a path. -/
def readWord (reading : Reading) (word : List Char) : Except Stop Reading :=
  match reading.onlyPaths, reading.pending with
  | false, some (slot, .none) => .ok { reading with pending := some (slot, some word) }
  | _, _ =>
    if reading.hasPath then .error .unknownArgument
    else (reading.begin .script (some word)).map fun reading => { reading with hasPath := true }

def read (reading : Reading) (argument : List Char) : Except Stop Reading :=
  if reading.onlyPaths then reading.readWord argument
  else
    match argument with
    | ['-', '-'] => .ok { reading with onlyPaths := true }
    | '-' :: '-' :: text => reading.readLong text
    | '-' :: letter :: rest => reading.readShort (letter :: rest)
    | word => reading.readWord word

def readAll (reading : Reading) : List (List Char) → Except Stop Reading
  | [] => reading.flush
  | argument :: rest => do
    let reading ← reading.read argument
    readAll reading rest

end Reading

/-- What the arguments of the program ask for. -/
def parse (arguments : List String) : Except Stop Arguments := do
  let reading ← Reading.start.readAll (arguments.map String.toList)
  if reading.taken.isVerbose && reading.taken.isQuiet then .error .conflict
  else .ok reading.taken

end Arguments

end Retrace
