import Retrace.Json
import Retrace.Scope
import Retrace.Text.Quoted

/-!
# Commands

A command is a unit of work with a text to show, a kind and a scope. What it does is not part of it:
a command is known by its number, and whoever runs the action reports an outcome.
-/

namespace Retrace

structure StackId where
  name : String
  deriving DecidableEq, Inhabited

abbrev CommandId := Nat

abbrev ActionResult := Except EngineError Json

instance : DecidableEq ActionResult
  | .ok left, .ok right => decidable_of_iff (left = right) (by simp)
  | .error left, .error right => decidable_of_iff (left = right) (by simp)
  | .ok _, .error _ => isFalse (by simp)
  | .error _, .ok _ => isFalse (by simp)

/-- Whether a command changes the application. Only a command that does is recorded. -/
inductive CommandKind where
  | mutating
  | query
  deriving DecidableEq, Inhabited

namespace CommandKind

def name : CommandKind → String
  | mutating => "Mutating"
  | query => "Query"

end CommandKind

/-- Where a command is in its life. -/
inductive CommandStatus where
  | pending
  | running
  | applied
  | reversed
  | failed
  deriving DecidableEq, Inhabited

namespace CommandStatus

def name : CommandStatus → String
  | pending => "Pending"
  | running => "Running"
  | applied => "Applied"
  | reversed => "Reversed"
  | failed => "Failed"

/-- The status after a run that did not succeed: a command that never succeeded has failed, any other
is where it was. -/
def afterFailure : CommandStatus → CommandStatus
  | pending | failed => failed
  | status => status

def afterRun (previous onSuccess : CommandStatus) (succeeded : Bool) : CommandStatus :=
  if succeeded then onSuccess else previous.afterFailure

end CommandStatus

/-- The side of a command's action that is run. -/
inductive Direction where
  | forward
  | backward
  deriving DecidableEq, Inhabited

namespace Direction

def success : Direction → CommandStatus
  | forward => .applied
  | backward => .reversed

end Direction

/-- A unit of work. -/
structure Command where
  id : CommandId
  text : String
  kind : CommandKind
  scope : Scope
  stack : Option StackId
  deriving DecidableEq, Inhabited

namespace Command

def isQuery (command : Command) : Bool := command.kind == .query

def display (command : Command) (time : String) : String :=
  let kind := command.kind.name
  let scope := command.scope.display
  s!"[{time}] {kind} - {command.text} ({scope})"

def inspectScope : Scope → String
  | .all => "All"
  | .areas bits => s!"Set({bits.toNat})"

/-- A stack's name as it is shown to a developer. -/
def inspectStack (stack : StackId) : String := "StackId(" ++ Text.quoted stack.name ++ ")"

def inspect (command : Command) (id : String) (status : CommandStatus) : String :=
  let stack :=
    match command.stack with
    | some stack => "Some(" ++ inspectStack stack ++ ")"
    | none => "None"
  Text.record "Command"
    [("id", id), ("text", Text.quoted command.text), ("kind", command.kind.name),
      ("scope", inspectScope command.scope), ("stack", stack), ("status", status.name)]

end Command

/-! ### Outcomes -/

/-- How an action ends: it returns, or it breaks off with or without a text. -/
inductive Outcome where
  | returned (result : ActionResult)
  | brokeOff (reason : Option String)
  deriving DecidableEq

namespace Outcome

/-- The verdict on a command's run. An error that is a verdict stands; any other error, and an action
that broke off, becomes one that names the command. -/
def settle (command : String) : Outcome → ActionResult
  | returned (.ok value) => .ok value
  | returned (.error error) =>
    if error.isCommandFailure then .error error
    else .error (.executionFailed command error.message)
  | brokeOff reason => .error (.unknownFailure command (reason.getD "unknown error"))

/-- Whether a verdict is a success. -/
def succeeded (result : ActionResult) : Bool :=
  match result with
  | .ok _ => true
  | .error _ => false

end Outcome

namespace Command

/-- Whether a run in a direction runs the action. Taking back a query runs nothing and succeeds. -/
def runsAction (command : Command) (direction : Direction) : Bool :=
  direction == .forward || !command.isQuery

def verdict (command : Command) (direction : Direction) (previous : CommandStatus)
    (outcome : Outcome) : ActionResult × CommandStatus :=
  let result := outcome.settle command.text
  (result, previous.afterRun direction.success (Outcome.succeeded result))

end Command

end Retrace
