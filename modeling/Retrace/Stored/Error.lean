import Retrace.Error
import Retrace.Json.Fields

/-!
# Stored errors

The JSON form of an error of the engine: an object with the name of its kind and what belongs to it.
-/

namespace Retrace.EngineError

def kind : EngineError → String
  | reservedScopeName _ => "ReservedScopeName"
  | duplicateScope _ => "DuplicateScope"
  | tooManyScopes _ _ => "TooManyScopes"
  | unknownScope _ => "UnknownScope"
  | missingForwardAction _ => "MissingForwardAction"
  | invalid _ => "ValidationError"
  | indexOutOfRange _ _ => "IndexOutOfRange"
  | executionFailed _ _ => "ExecutionFailed"
  | unknownFailure _ _ => "UnknownFailure"
  | noMoreUndos => "NoMoreUndos"
  | noMoreRedos => "NoMoreRedos"
  | cancelled => "Cancelled"
  | shutDown => "EngineShutdown"
  | badConfig _ => "ConfigError"
  | badJson _ => "SerializationError"
  | badYaml _ => "YamlError"
  | inputOutput _ => "IoError"

/-- The error that a stored form stands for. The reasons of document errors are not stored. -/
def ofJson? (stored : Json) : Option EngineError := do
  let kind ← stored.textAt? "kind"
  let text := stored.textAt? "text"
  let count := stored.natAt? "count"
  match kind with
  | "ReservedScopeName" => text.map reservedScopeName
  | "DuplicateScope" => text.map duplicateScope
  | "TooManyScopes" => return tooManyScopes (← count) (← stored.natAt? "max")
  | "UnknownScope" => text.map unknownScope
  | "MissingForwardAction" => text.map missingForwardAction
  | "ValidationError" => text.map invalid
  | "IndexOutOfRange" => return indexOutOfRange (← stored.natAt? "index") (← count)
  | "ExecutionFailed" =>
    return executionFailed (← stored.textAt? "command") (← stored.textAt? "message")
  | "UnknownFailure" =>
    return unknownFailure (← stored.textAt? "command") (← stored.textAt? "message")
  | "NoMoreUndos" => some noMoreUndos
  | "NoMoreRedos" => some noMoreRedos
  | "Cancelled" => some cancelled
  | "EngineShutdown" => some shutDown
  | "ConfigError" => text.map badConfig
  | "SerializationError" => some (badJson "")
  | "YamlError" => some (badYaml "")
  | "IoError" => text.map inputOutput
  | _ => none

end Retrace.EngineError
