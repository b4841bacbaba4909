import Retrace.Config.File
import Retrace.Session.Run
import Retrace.Shell.Arguments
import Retrace.Statement.Reader

/-!
# The ledger program

Reads the settings and a script, runs the script, and says what came of it. Where files and the standard
input come from is left to whoever runs the program.
-/

namespace Retrace

structure Source (m : Type → Type) where
  file : String → m (Except FileError String)
  input : m (Except FileError String)

/-- What a run has written, and what came of it. -/
structure Report where
  output : String
  result : Except ShellError Summary

/-- How a program ends: its exit code and what it has written. -/
structure Exit where
  code : UInt8
  output : String
  errors : String
  deriving DecidableEq, Inhabited

namespace Program

variable {m : Type → Type} [Monad m]

def version : String := "rewind 0.1.0"

def usage : String :=
  "\n".intercalate
    ["Run ledger scripts against the rewind undo/redo engine.", "",
      "Statements: set, add, get, undo, redo, jump, stack, limit, history,",
      "queued, wait, balances, clear, scopes. A trailing '&' submits without waiting.", "",
      "Usage: rewind [OPTIONS] [SCRIPT]", "",
      "Arguments:", "  [SCRIPT]  Script to run; reads stdin when omitted", "",
      "Options:", "  -c, --config <FILE>      Engine configuration file (YAML or JSON)",
      "  -s, --scopes <NAMES>     Scope names, comma separated (overrides the config file)",
      "  -l, --undo-limit <N>     Commands kept per stack, 0 for unlimited (overrides the config file)",
      "      --log-level <LEVEL>  Minimum log level", "  -v, --verbose            Enable verbose output",
      "  -q, --quiet              Minimize output", "  -h, --help               Print help",
      "  -V, --version            Print version"]

def override (arguments : Arguments) (config : Config) : Config :=
  { config with
    scopes := (arguments.scopes.map Registry.namesOf).getD config.scopes
    undoLimit := arguments.undoLimit.getD config.undoLimit }

def settings (source : Source m) (arguments : Arguments) : m (Except ShellError Config) := do
  match arguments.config with
  | none => return .ok (override arguments Config.standard)
  | some path =>
    match Config.load path (← source.file path) with
    | .ok config => return .ok (override arguments config)
    | .error error => return .error (.config error)

def start (config : Config) : Except ShellError Engine :=
  match config.startEngine with
  | .ok engine => .ok engine
  | .error error => .error (if error.isValidationFailure then .scope error else .config error)

def script (source : Source m) (arguments : Arguments) : m (Except FileError String) :=
  match arguments.script with
  | some path => source.file path
  | none => source.input

def closingLine (summary : Summary) (engine : Engine) : String :=
  s!"done: {summary.statements} statements, {summary.failures} failed, {engine.count} commands on " ++
    s!"stack {engine.history.active.name}"

def runOn (engine : Engine) (isQuiet : Bool) (lines : List ScriptLine) : Report :=
  let (result, session) := Session.run Pace.eager lines (Session.start engine (.upTo none))
  match result with
  | .error error => ⟨session.sink.text, .error error⟩
  | .ok summary =>
    let ending := if isQuiet then "" else closingLine summary session.engine ++ "\n"
    ⟨session.sink.text ++ ending, .ok summary⟩

def runText (engine : Engine) (isQuiet : Bool) (text : Except FileError String) : Report :=
  match text with
  | .error error => ⟨"", .error (.inputOutput error.message)⟩
  | .ok text =>
    match Script.parse text with
    | .error error => ⟨"", .error (.ofScript error)⟩
    | .ok lines => runOn engine isQuiet lines

def run (source : Source m) (arguments : Arguments) : m Report := do
  match (← settings source arguments).bind start with
  | .error error => return ⟨"", .error error⟩
  | .ok engine => return runText engine arguments.isQuiet (← script source arguments)

/-- How a run ends: with an error, with failed statements, or well. -/
def exitOf (report : Report) : Exit :=
  match report.result with
  | .error error => ⟨1, report.output, error.userMessage ++ "\n"⟩
  | .ok summary => ⟨if 0 < summary.failures then 2 else 0, report.output, ""⟩

def exitAt : Stop → Exit
  | .help => ⟨0, usage ++ "\n", ""⟩
  | .version => ⟨0, version ++ "\n", ""⟩
  | .unknownArgument => ⟨2, "", "error: unexpected argument found\n"⟩
  | .missingValue => ⟨2, "", "error: a value is required but none was supplied\n"⟩
  | .badValue => ⟨2, "", "error: invalid value\n"⟩
  | .conflict => ⟨2, "", "error: an argument cannot be used with another one or several times\n"⟩
  | .unneededValue => ⟨2, "", "error: unexpected value for an option that takes none\n"⟩

/-- Runs the program from its arguments to its end. -/
def execute (source : Source m) (arguments : List String) : m Exit := do
  match Arguments.parse arguments with
  | .error stop => return exitAt stop
  | .ok arguments => return exitOf (← run source arguments)

end Program

end Retrace
