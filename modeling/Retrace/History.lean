import Retrace.Event
import Retrace.Stack
import Retrace.Text.Order

/-!
# History

All stacks of an engine, the one that is active, and the limit on their length. Stacks are created when
they are first needed and never removed.
-/

namespace Retrace

/-- The stacks of an engine. The sequence number counts recordings and cursor moves. -/
structure History where
  stackList : List Stack
  active : StackId
  defaultStack : StackId
  limit : Nat
  sequence : Nat
  deriving DecidableEq, Inhabited

namespace History

def start (defaultStack : StackId) (limit : Nat) : History :=
  { stackList := [Stack.empty defaultStack], active := defaultStack, defaultStack, limit, sequence := 0 }

def stack? (history : History) (id : StackId) : Option Stack :=
  history.stackList.find? fun stack => stack.id == id

def activeStack (history : History) : Option Stack := history.stack? history.active

def withStack (history : History) (id : StackId) : History :=
  match history.stack? id with
  | some _ => history
  | none => { history with stackList := history.stackList ++ [Stack.empty id] }

def modify (history : History) (id : StackId) (change : Stack → Stack) : History :=
  { history with
    stackList := history.stackList.map fun stack => if stack.id = id then change stack else stack }

def stackIds (history : History) : List StackId :=
  (history.stackList.map Stack.id).mergeSort fun left right => !Text.before right.name left.name

/-! ### Recording and moving -/

def record (history : History) (id : StackId) (command : Command) : History :=
  let sequence := history.sequence + 1
  { history.withStack id with sequence }.modify id fun stack =>
    ((stack.push command).trim history.limit).1.touch sequence

def neighbour (direction : Direction) (stack : Stack) : Option Command :=
  match direction with
  | .forward => stack.redoCommand
  | .backward => stack.undoCommand

def moved (direction : Direction) (stack : Stack) : Stack :=
  match direction with
  | .forward => stack.stepForward
  | .backward => stack.stepBackward

def isNextTo (history : History) (id : StackId) (command : CommandId) (direction : Direction) : Bool :=
  match (history.stack? id).bind (neighbour direction) with
  | some next => next.id == command
  | none => false

/-- Moves a stack's cursor over a command, provided the command still stands next to it. The sequence
number counts the attempt in either case. -/
def moveCursor (history : History) (id : StackId) (command : CommandId) (direction : Direction) :
    History × Bool :=
  let sequence := history.sequence + 1
  if history.isNextTo id command direction then
    ({ history with sequence }.modify id fun stack => (moved direction stack).touch sequence, true)
  else ({ history with sequence }, false)

/-! ### Choosing what to undo and redo -/

/-- A command that could be undone or redone, with its stack. -/
structure Candidate where
  stack : StackId
  lastTouched : Nat
  command : Command
  deriving DecidableEq, Inhabited

def latest : List Candidate → Option Candidate
  | [] => none
  | candidate :: rest =>
    match latest rest with
    | none => some candidate
    | some best => if best.lastTouched < candidate.lastTouched then some candidate else some best

/-- The candidate of a stack in a direction. -/
def candidate? (direction : Direction) (stack : Stack) : Option Candidate :=
  (neighbour direction stack).map fun command =>
    { stack := stack.id, lastTouched := stack.lastTouched, command }

/-- The command to undo or redo: without a filter the active stack's, with one that of the stack
touched last among those whose candidate the filter selects. -/
def target (history : History) (direction : Direction) (filter : Option Scope) : Option Candidate :=
  match filter with
  | none => history.activeStack.bind (candidate? direction)
  | some filter =>
    latest ((history.stackList.filterMap (candidate? direction)).filter fun candidate =>
      filter.selects candidate.command.scope)

/-! ### Changes from outside -/

def clear (history : History) : History :=
  { history with stackList := history.stackList.map Stack.clear }

/-- Changes the limit, cuts every stack down to it, and says how many commands went. -/
def setLimit (history : History) (limit : Nat) : History × Nat :=
  ({ history with limit, stackList := history.stackList.map fun stack => (stack.trim limit).1 },
    (history.stackList.map fun stack => (stack.trim limit).2).foldr (· + ·) 0)

/-- Makes a stack the active one, the default stack if none is named. -/
def activate (history : History) (id : Option StackId) : History :=
  let id := id.getD history.defaultStack
  { history.withStack id with active := id }

end History

end Retrace
