/-!
# Errors of the engine

Why a request was refused, an action failed or a document could not be used, and the text that says so.
-/

namespace Retrace

inductive EngineError where
  | reservedScopeName (name : String)
  | duplicateScope (name : String)
  | tooManyScopes (count limit : Nat)
  | unknownScope (name : String)
  | missingForwardAction (command : String)
  | invalid (reason : String)
  | indexOutOfRange (index count : Nat)
  | executionFailed (command reason : String)
  | unknownFailure (command reason : String)
  | noMoreUndos
  | noMoreRedos
  | cancelled
  | shutDown
  | badConfig (reason : String)
  | badJson (reason : String)
  | badYaml (reason : String)
  | inputOutput (reason : String)
  deriving DecidableEq, Inhabited

namespace EngineError

def message : EngineError → String
  | reservedScopeName name => s!"Scope name '{name}' is reserved"
  | duplicateScope name => s!"Scope already registered: {name}"
  | tooManyScopes count limit => s!"Too many scopes: {count} registered, at most {limit} supported"
  | unknownScope name => s!"Unknown scope: {name}"
  | missingForwardAction command => s!"Command '{command}' has no forward action"
  | invalid reason => s!"Validation error: {reason}"
  | indexOutOfRange index count => s!"Index {index} out of range for stack with {count} commands"
  | executionFailed command reason => s!"Command '{command}' failed: {reason}"
  | unknownFailure command reason => s!"Critical failure in command '{command}': {reason}"
  | noMoreUndos => "No more undos available"
  | noMoreRedos => "No more redos available"
  | cancelled => "Operation cancelled before execution"
  | shutDown => "Undo/redo engine has shut down"
  | badConfig reason => s!"Configuration error: {reason}"
  | badJson reason => s!"Serialization error: {reason}"
  | badYaml reason => s!"YAML error: {reason}"
  | inputOutput reason => s!"IO error: {reason}"

/-- Whether the error refuses a request before anything was scheduled. -/
def isValidationFailure : EngineError → Bool
  | reservedScopeName _ | duplicateScope _ | tooManyScopes _ _ | unknownScope _
  | missingForwardAction _ | invalid _ => true
  | _ => false

/-- Whether the error is the verdict on a command whose action failed. -/
def isCommandFailure : EngineError → Bool
  | executionFailed _ _ | unknownFailure _ _ => true
  | _ => false

/-- The reason of the error underneath, for the errors that wrap one. -/
def source? : EngineError → Option String
  | badJson reason | badYaml reason | inputOutput reason => some reason
  | _ => none

/-- The messages of an error and of the error underneath, outermost first. -/
def chain (error : EngineError) : List String := error.message :: error.source?.toList

end EngineError

end Retrace
