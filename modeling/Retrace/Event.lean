import Retrace.Command

/-!
# Events

What an action reports while it runs, and what the engine announces.
-/

namespace Retrace

/-- A report of a running action. -/
inductive ProgressEvent where
  | started
  | finished
  | range (minimum maximum : Int64)
  | value (value : Int64)
  | text (text : String)
  deriving DecidableEq, Inhabited

inductive Operation where
  | execute
  | undo
  | redo
  deriving DecidableEq, Inhabited

namespace Operation

def name : Operation → String
  | execute => "Execute"
  | undo => "Undo"
  | redo => "Redo"

/-- The side of the action that an operation runs. -/
def direction : Operation → Direction
  | execute | redo => .forward
  | undo => .backward

end Operation

/-- An announcement of the engine. -/
inductive EngineEvent where
  | stateChanged
  | undoing (scope : Scope) (active : Bool)
  | redoing (scope : Scope) (active : Bool)
  | progress (command : CommandId) (event : ProgressEvent)
  | completed (command : CommandId) (text : String) (operation : Operation) (error : Option String)
  deriving DecidableEq, Inhabited

end Retrace
