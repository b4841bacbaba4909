import Retrace.Error
import Retrace.Statement

/-!
# Errors of the ledger program

Why the program or one of its statements failed, what is shown to its user, and whether the program has
to stop.
-/

namespace Retrace

inductive ShellError where
  | invalidArgument (reason : String)
  | script (line : Nat) (reason : String)
  | scope (cause : EngineError)
  | config (cause : EngineError)
  | engine (cause : EngineError)
  | inputOutput (reason : String)
  deriving DecidableEq, Inhabited

namespace ShellError

def ofScript (error : ScriptError) : ShellError := script error.line error.problem.message

def ofScopeLookup (error : EngineError) : ShellError :=
  if error.isValidationFailure then scope error else engine error

def isFatal : ShellError → Bool
  | scope _ | config _ | inputOutput _ => true
  | _ => false

/-- The error of the engine underneath, if there is one. -/
def cause? : ShellError → Option EngineError
  | scope cause | config cause | engine cause => some cause
  | _ => none

/-- The text shown for an error. -/
def message : ShellError → String
  | invalidArgument reason => s!"Invalid argument: {reason}"
  | script line reason => s!"Line {line}: {reason}"
  | scope cause => "Scope error: " ++ cause.message
  | config cause => "Configuration error: " ++ cause.message
  | engine cause => "Engine error: " ++ cause.message
  | inputOutput reason => s!"IO error: {reason}"

/-- The text shown to a user, with a hint at what to do. -/
def userMessage : ShellError → String
  | invalidArgument reason =>
    s!"Invalid argument: {reason}\n\nRun 'rewind --help' for usage information."
  | script line reason => s!"Script error on line {line}: {reason}"
  | scope cause =>
    "Scope error: " ++ cause.message ++ "\n\nRegister scopes with --scopes or the config file."
  | config cause =>
    "Configuration error: " ++ cause.message ++ "\n\nCheck the file passed with --config."
  | engine cause => cause.message
  | inputOutput reason => s!"File operation failed: {reason}"

end ShellError

end Retrace
