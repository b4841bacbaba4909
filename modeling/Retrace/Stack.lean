import Retrace.Command

/-!
# Stacks

The history of one undo domain: the recorded commands, oldest first, and a cursor. The commands before
the cursor are applied, those after it can be redone.
-/

namespace Retrace

structure HistoryEntry where
  index : Nat
  command : CommandId
  text : String
  scope : Scope
  isUndone : Bool
  deriving DecidableEq, Inhabited

/-- The commands of one undo domain. The first `applied` of them are applied; `lastTouched` orders the
stacks by when a command was recorded on them or their cursor moved. -/
structure Stack where
  id : StackId
  commands : List Command
  applied : Nat
  lastTouched : Nat
  deriving DecidableEq, Inhabited

namespace Stack

def empty (id : StackId) : Stack := ⟨id, [], 0, 0⟩

def count (stack : Stack) : Nat := stack.commands.length

def appliedCommands (stack : Stack) : List Command := stack.commands.take stack.applied

def redoCommands (stack : Stack) : List Command := stack.commands.drop stack.applied

/-- Records a command after the cursor; what could be redone is forgotten. -/
def push (stack : Stack) (command : Command) : Stack :=
  { stack with
    commands := stack.appliedCommands ++ [command]
    applied := stack.appliedCommands.length + 1 }

def canStepForward (stack : Stack) : Bool := decide (stack.applied < stack.count)

def canStepBackward (stack : Stack) : Bool := decide (0 < stack.applied)

/-- Moves the cursor over the next command that can be redone. -/
def stepForward (stack : Stack) : Stack :=
  if stack.canStepForward then { stack with applied := stack.applied + 1 } else stack

/-- Moves the cursor back over the last applied command. -/
def stepBackward (stack : Stack) : Stack :=
  if stack.canStepBackward then { stack with applied := stack.applied - 1 } else stack

def dropRedo (stack : Stack) : Stack := { stack with commands := stack.appliedCommands }

def dropOldest (stack : Stack) (excess : Nat) : Stack :=
  { stack with commands := stack.commands.drop excess, applied := stack.applied - excess }

/-- Cuts a stack down to at most `limit` commands, where no limit is written as zero, and says how many
commands went. The oldest commands go first, unless the cut would reach past the cursor: then what can
be redone goes before them, so that no command outlives an undone command before it. -/
def trim (stack : Stack) (limit : Nat) : Stack × Nat :=
  if limit = 0 ∨ stack.count ≤ limit then (stack, 0)
  else if stack.applied < stack.count - limit then
    let excess := stack.dropRedo.count - limit
    (stack.dropRedo.dropOldest excess, stack.count - stack.applied + excess)
  else
    let excess := stack.count - limit
    (stack.dropOldest excess, excess)

def clear (stack : Stack) : Stack := { stack with commands := [], applied := 0 }

def touch (stack : Stack) (sequence : Nat) : Stack := { stack with lastTouched := sequence }

def currentIndex (stack : Stack) : Option Nat :=
  if stack.applied = 0 then none else some (stack.applied - 1)

def commandAt (stack : Stack) (index : Nat) : Option Command := stack.commands[index]?

def textAt (stack : Stack) (index : Nat) : Option String :=
  (stack.commandAt index).map Command.text

def undoCommand (stack : Stack) : Option Command := stack.currentIndex.bind stack.commandAt

def redoCommand (stack : Stack) : Option Command := stack.commandAt stack.applied

def texts (stack : Stack) : List String := stack.commands.map Command.text

def entries (stack : Stack) : List HistoryEntry :=
  stack.commands.zipIdx.map fun (command, index) =>
    { index, command := command.id, text := command.text, scope := command.scope,
      isUndone := decide (stack.applied ≤ index) }

theorem appliedCommands_append_redoCommands (stack : Stack) :
    stack.appliedCommands ++ stack.redoCommands = stack.commands :=
  List.take_append_drop ..

end Stack

end Retrace
