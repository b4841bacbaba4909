import Retrace.Text.Blank

/-!
# Log levels

How important a record is, and from which level on records are kept. A level is named in any mixture of
capital and small letters.
-/

namespace Retrace

inductive LogLevel where
  | trace
  | debug
  | info
  | warn
  | error
  deriving DecidableEq, Inhabited

/-- Why logging could not be set up. -/
inductive LogError where
  | invalidLevel (text : String)
  | alreadyInstalled (reason : String)
  deriving DecidableEq, Inhabited

namespace LogError

def message : LogError → String
  | invalidLevel text => s!"Invalid log level: {text}"
  | alreadyInstalled reason => s!"Logging already initialized: {reason}"

end LogError

namespace LogLevel

/-- The name of a level. -/
def name : LogLevel → String
  | trace => "TRACE"
  | debug => "DEBUG"
  | info => "INFO"
  | warn => "WARN"
  | error => "ERROR"

/-- The place of a level, the least important first. -/
def rank : LogLevel → Nat
  | trace => 0
  | debug => 1
  | info => 2
  | warn => 3
  | error => 4

/-- Whether a level is less important than another. -/
def isBelow (level other : LogLevel) : Bool := decide (level.rank < other.rank)

def standard : LogLevel := info

/-- A character in upper case, if that is a Latin letter without a mark: besides the small letters these
are the dotless i and the long s. -/
def capital (character : Char) : Char :=
  match character with
  | 'ı' => 'I'
  | 'ſ' => 'S'
  | _ => character.toUpper

/-- The level that a text names, whatever its case and the blanks around it. -/
def ofText? (text : String) : Option LogLevel :=
  match String.ofList ((Text.trim text.toList).map capital) with
  | "TRACE" => some trace
  | "DEBUG" => some debug
  | "INFO" => some info
  | "WARN" | "WARNING" => some warn
  | "ERROR" => some error
  | _ => none

def ofText (text : String) : Except LogError LogLevel :=
  match ofText? text with
  | some level => .ok level
  | none => .error (.invalidLevel text)

/-- The level from which on records are kept, once logging is set up; it is set up at most once. -/
def install (installed chosen : Option LogLevel) : Except LogError LogLevel :=
  match installed with
  | some _ => .error (.alreadyInstalled "a global default trace dispatcher has already been set")
  | none => .ok (chosen.getD standard)

end LogLevel

end Retrace
