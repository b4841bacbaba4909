import Retrace.Event.Bus
import Retrace.History
import Retrace.Scope.Registry

/-!
# The engine

The engine takes jobs in the order in which they are submitted and runs their actions one at a time.
Its state is everything that a caller can see or that decides what happens next. The calls of its users
(`Engine.submit`, `Engine.clear`, ...) and the steps of its worker (`Engine.advance`, `Engine.finish`)
are functions on that state, and a call may fall between any two steps.
-/

namespace Retrace

abbrev Ticket := Nat

inductive Goal where
  | execute (command : Command) (stack : StackId)
  | undo (filter : Option Scope)
  | redo (filter : Option Scope)
  | jump (target : Option Nat)
  deriving DecidableEq, Inhabited

/-- A unit of work in the queue. Its generation is the number of clears before its submission. -/
structure Job where
  ticket : Ticket
  generation : Nat
  goal : Goal
  deriving DecidableEq, Inhabited

/-- A command that was submitted and has not been started. -/
structure Waiting where
  ticket : Ticket
  text : String
  scope : Scope
  stack : StackId
  deriving DecidableEq, Inhabited

/-- The stack for commands that name none and whose scope has an area in common. -/
structure Route where
  scope : Scope
  stack : StackId
  deriving DecidableEq, Inhabited

/-- The way of a jump: how many commands of a stack are to be applied in the end. -/
structure Walk where
  stack : StackId
  wanted : Nat
  deriving DecidableEq, Inhabited

/-- An action to be run: a command, the stack it belongs to, and what it is run for. -/
structure Step where
  command : Command
  stack : StackId
  operation : Operation
  deriving DecidableEq, Inhabited

structure Run where
  number : Nat
  job : Job
  walk : Option Walk
  step : Step
  previous : CommandStatus
  deriving DecidableEq, Inhabited

inductive Phase where
  /-- It waits for a job. -/
  | idle
  /-- It has a job and is about to choose the next action. -/
  | choosing (job : Job) (walk : Option Walk)
  /-- An action runs. -/
  | acting (run : Run)
  /-- An action of a jump has ended, and it is about to look whether the history was cleared. -/
  | resting (job : Job) (walk : Walk)
  deriving DecidableEq, Inhabited

/-- The life of every command that has run, latest change first. -/
structure StatusBoard where
  changes : List (CommandId × CommandStatus)
  deriving DecidableEq, Inhabited

namespace StatusBoard

def get (board : StatusBoard) (id : CommandId) : CommandStatus :=
  (board.changes.lookup id).getD .pending

def set (board : StatusBoard) (id : CommandId) (status : CommandStatus) : StatusBoard :=
  ⟨(id, status) :: board.changes.filter fun change => change.1 != id⟩

theorem get_set_self (board : StatusBoard) (id : CommandId) (status : CommandStatus) :
    (board.set id status).get id = status := by
  simp [get, set]

theorem get_set_of_ne (board : StatusBoard) {id other : CommandId} (status : CommandStatus)
    (hne : other ≠ id) : (board.set id status).get other = board.get other := by
  have hlookup : ∀ changes : List (CommandId × CommandStatus),
      (changes.filter fun change => change.1 != id).lookup other = changes.lookup other := by
    intro changes
    induction changes with
    | nil => rfl
    | cons change rest ih =>
      obtain ⟨key, value⟩ := change
      by_cases hid : key = id
      · have hother : (other == key) = false := by simpa [hid] using hne
        simp [List.lookup_cons, hid, ih, hid ▸ hother]
      · simp [List.lookup_cons, hid, ih]
  have hother : (other == id) = false := by simpa using hne
  simp [get, set, List.lookup_cons, hother, hlookup]

end StatusBoard

structure Engine where
  registry : Registry
  history : History
  routes : List Route
  /-- The submitted commands that have not been started, in order. -/
  waiting : List Waiting
  /-- The number of clears so far. -/
  generation : Nat
  queue : List Job
  /-- Whether submissions are taken. -/
  isAccepting : Bool
  /-- Whether the worker still takes jobs from the queue. -/
  isListening : Bool
  nextTicket : Ticket
  /-- The number of accepted jobs that have not been answered. -/
  running : Nat
  phase : Phase
  /-- The number of actions started so far. -/
  runs : Nat
  statuses : StatusBoard
  /-- The results of the jobs, in the order of their answers. -/
  answers : List (Ticket × ActionResult)
  /-- The reports that reached the submitter of each job, in order. -/
  reports : List (Ticket × ProgressEvent)
  bus : Bus
  deriving DecidableEq

inductive EngineStatus where
  | idle
  | scheduling
  | executing
  deriving DecidableEq, Inhabited

namespace EngineStatus

def name : EngineStatus → String
  | idle => "Idle"
  | scheduling => "Scheduling"
  | executing => "Executing"

end EngineStatus

namespace Engine

/-- An engine to which nothing has been submitted. -/
def start (registry : Registry) (routes : List Route) (defaultStack : StackId) (limit capacity : Nat) :
    Engine :=
  { registry, history := History.start defaultStack limit, routes, waiting := [], generation := 0,
    queue := [], isAccepting := true, isListening := true, nextTicket := 1, running := 0,
    phase := .idle, runs := 0, statuses := ⟨[]⟩, answers := [], reports := [],
    bus := Bus.withCapacity capacity }

/-! ### What a caller can see -/

def isRunning (engine : Engine) : Bool := decide (0 < engine.running)

def status (engine : Engine) : EngineStatus :=
  match engine.phase with
  | .idle => if engine.isRunning then .scheduling else .idle
  | _ => .executing

def withActive {α : Type} (engine : Engine) (otherwise : α) (read : Stack → α) : α :=
  match engine.history.activeStack with
  | some stack => read stack
  | none => otherwise

def canUndo (engine : Engine) : Bool := engine.withActive false Stack.canStepBackward

def canRedo (engine : Engine) : Bool := engine.withActive false Stack.canStepForward

def undoText (engine : Engine) : Option String :=
  engine.withActive none fun stack => stack.undoCommand.map Command.text

def redoText (engine : Engine) : Option String :=
  engine.withActive none fun stack => stack.redoCommand.map Command.text

def texts (engine : Engine) : List String := engine.withActive [] Stack.texts

def entries (engine : Engine) : List HistoryEntry := engine.withActive [] Stack.entries

/-- The position of the last applied command of the active stack. -/
def currentIndex (engine : Engine) : Option Nat := engine.withActive none Stack.currentIndex

def count (engine : Engine) : Nat := engine.withActive 0 Stack.count

/-- The texts of the waiting commands that are bound for the active stack and that a filter selects. -/
def queuedTexts (engine : Engine) (filter : Scope) : List String :=
  (engine.waiting.filter fun entry =>
    entry.stack == engine.history.active && filter.selects entry.scope).map Waiting.text

/-- The texts of the waiting commands, for a filter given by the names of its areas. -/
def queuedTextsIn (engine : Engine) (names : String) : Except EngineError (List String) :=
  (engine.registry.scopeOfText names).map engine.queuedTexts

def answer? (engine : Engine) (ticket : Ticket) : Option ActionResult := engine.answers.lookup ticket

def isSettled (engine : Engine) : Bool := engine.phase == .idle && engine.queue.isEmpty

def inspect (engine : Engine) : String :=
  Text.record "Engine"
    [("status", engine.status.name), ("active_stack", Command.inspectStack engine.history.active)]

end Engine

end Retrace
