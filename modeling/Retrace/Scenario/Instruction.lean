import Retrace.Command.Draft
import Retrace.Engine

/-!
# Scripted actions

A small language for actions: an action is a list of instructions that are carried out one by one. It
serves to put an engine through a scenario, with actions that report, fail, break off, wait at a gate or
call the engine they run on.
-/

namespace Retrace.Scenario

/-- One instruction of an action. What an action can call is left open. -/
inductive Instruction (Call : Type) where
  /-- Reports progress. -/
  | report (event : ProgressEvent)
  /-- Adds to the counter, and may end the action with the sum. -/
  | add (amount : Int64) (answers : Bool)
  /-- Writes a text into the log. -/
  | note (text : String)
  /-- Writes a command's status into the log. -/
  | noteStatus (command : CommandId)
  /-- Lets others go first. -/
  | pause
  /-- Waits until the gate is opened. -/
  | gate
  /-- Keeps the reporter of this run for later. -/
  | keepReporter
  /-- Reports through a reporter that was kept. -/
  | reportLate (kept : Nat) (event : ProgressEvent)
  /-- Makes a call and writes the reply into the log. -/
  | call (call : Call)
  /-- Ends the action with an error. -/
  | fail (error : EngineError)
  /-- Ends the action without an answer. -/
  | breakOff (reason : Option String)
  /-- Ends the action with a value. -/
  | answer (value : Json)

/-- The runs of one side of an action: each run has its own instructions, and when there are no more
the last ones are used again. -/
abbrev Runs (Call : Type) := List (List (Instruction Call))

def instructionsFor {Call : Type} (runs : Runs Call) (earlier : Nat) : List (Instruction Call) :=
  match runs[earlier]? with
  | some instructions => instructions
  | none => runs.getLast?.getD []

/-- How the sides of an action are handed over: as they are, as one action, in both ways, or not. -/
inductive Supply where
  | sides
  | action
  | both
  | neither
  deriving DecidableEq, Inhabited

/-- What a command of a scenario is made of. Its scope may be given by the names of its areas. -/
structure Sheet (Call : Type) where
  text : String
  kind : CommandKind
  scope : Scope
  areas : Option String
  stack : Option StackId
  supply : Supply
  forward : Option (List (List (Instruction Call)))
  backward : Option (List (List (Instruction Call)))

namespace Sheet

/-- The draft of a sheet whose scope is known. An action has both sides, one that is missing does
nothing. -/
def draft {Call : Type} (sheet : Sheet Call) (scope : Scope) : Draft (Runs Call) :=
  let action := some ⟨sheet.forward.getD [], some (sheet.backward.getD [])⟩
  let plain := { Draft.ofText sheet.text sheet.kind with scope, stack := sheet.stack }
  match sheet.supply with
  | .sides => { plain with forward := sheet.forward, backward := sheet.backward }
  | .action => { plain with action }
  | .both => { plain with action, forward := sheet.forward, backward := sheet.backward }
  | .neither => plain

end Sheet

inductive Call where
  | build (sheet : Sheet Call)
  | enqueue (sheet : Sheet Call)
  | enqueueAgain (command : CommandId)
  | undo (filter : Option Scope)
  | redo (filter : Option Scope)
  | undoIn (names : String)
  | redoIn (names : String)
  | jump (target : Option Nat)
  | clear
  | setLimit (limit : Nat)
  | activate (stack : Option StackId)
  | route (scope : Scope) (stack : StackId)
  | queuedIn (names : String)
  | queued (filter : Scope)
  | history
  | scopeNames
  | overview
  | statusOf (command : CommandId)
  | describe (command : CommandId)
  | inspect
  | shutDown
  /-- A submission whose job is not looked at afterwards. -/
  | unlisted (call : Call)

inductive Reply where
  | nothing
  | done
  | refused (error : EngineError)
  | submitted (ticket : Ticket)
  | built (command : CommandId)
  | number (number : Nat)
  | text (text : String)
  | texts (texts : List String)
  | queue (texts : List String)
  | entries (entries : List HistoryEntry)
  | overview (engine : Engine) (counter : Int64)
  | status (status : CommandStatus)
  | command (command : Command) (status : CommandStatus)

inductive LogEntry where
  | text (text : String)
  | status (status : CommandStatus)
  | reply (reply : Reply)

/-- What the actions of a scenario share: a counter, a log, and the reporters that were kept. -/
structure Props where
  counter : Int64
  log : List LogEntry
  reporters : List Nat

namespace Props

def start : Props := ⟨0, [], []⟩

def write (props : Props) (entry : LogEntry) : Props := { props with log := props.log ++ [entry] }

end Props

/-- What an instruction asks of whoever carries out the action. -/
inductive Demand where
  | goOn
  | report (event : ProgressEvent)
  | reportLate (reporter : Nat) (event : ProgressEvent)
  | park
  | call (call : Call)
  | finish (outcome : Outcome)

def carryOut (statusOf : CommandId → CommandStatus) (reporter : Nat) (props : Props) :
    Instruction Call → Props × Demand
  | .report event => (props, .report event)
  | .add amount answers =>
    let sum := props.counter + amount
    ({ props with counter := sum },
      if answers then .finish (.returned (.ok (.integer sum.toInt))) else .goOn)
  | .note text => (props.write (.text text), .goOn)
  | .noteStatus command => (props.write (.status (statusOf command)), .goOn)
  | .pause => (props, .goOn)
  | .gate => (props, .park)
  | .keepReporter => ({ props with reporters := props.reporters ++ [reporter] }, .goOn)
  | .reportLate kept event =>
    match props.reporters[kept]? with
    | some reporter => (props, .reportLate reporter event)
    | none => (props, .goOn)
  | .call call => (props, .call call)
  | .fail error => (props, .finish (.returned (.error error)))
  | .breakOff reason => (props, .finish (.brokeOff reason))
  | .answer value => (props, .finish (.returned (.ok value)))

def silentEnd : Outcome := .returned (.ok .null)

/-- A command of a scenario with its action and the number of times each side has been run. -/
structure Role where
  command : Command
  behaviour : Behaviour (Runs Call)
  forwardRuns : Nat
  backwardRuns : Nat

namespace Role

def start (command : Command) (behaviour : Behaviour (Runs Call)) : Role := ⟨command, behaviour, 0, 0⟩

def play (role : Role) : Direction → List (Instruction Call) × Role
  | .forward =>
    (instructionsFor role.behaviour.forward role.forwardRuns,
      { role with forwardRuns := role.forwardRuns + 1 })
  | .backward =>
    (instructionsFor (role.behaviour.backward.getD []) role.backwardRuns,
      { role with backwardRuns := role.backwardRuns + 1 })

end Role

end Retrace.Scenario
