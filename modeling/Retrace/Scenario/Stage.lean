import Retrace.Scenario.Instruction
import Retrace.Engine.Move

/-!
# The stage

An engine together with the scripted actions that run on it. A scenario is a list of cues; after each
the engine goes on until it has nothing to do or an action waits at a gate.
-/

namespace Retrace.Scenario

/-- An engine, the roles of its commands by their numbers, the instructions that are left of the action
that runs, and what is needed to look at the jobs afterwards. -/
structure Stage where
  engine : Engine
  roles : Array Role
  props : Props
  script : Option (List (Instruction Call))
  isParked : Bool
  gatesOpen : Bool
  listed : List (Ticket × Option CommandId)
  subscribers : List Nat

namespace Stage

def start (engine : Engine) : Stage :=
  { engine, roles := #[], props := Props.start, script := none, isParked := false, gatesOpen := false,
    listed := [], subscribers := [] }

/-! ### Calls -/

def scopeFor (stage : Stage) (sheet : Sheet Call) : Except EngineError Scope :=
  match sheet.areas with
  | none => .ok sheet.scope
  | some names => stage.engine.registry.scopeOfText names

def prepare (stage : Stage) (sheet : Sheet Call) : Except EngineError (Stage × Command) := do
  let scope ← stage.scopeFor sheet
  let (command, behaviour) ← (sheet.draft scope).build stage.roles.size
  return ({ stage with roles := stage.roles.push (Role.start command behaviour) }, command)

def submitted (stage : Stage) (command : Option CommandId)
    (submission : Except EngineError Ticket × Engine) : Stage × Reply :=
  let stage := { stage with engine := submission.2 }
  match submission.1 with
  | .error error => (stage, .refused error)
  | .ok ticket =>
    ({ stage with listed := stage.listed ++ [(ticket, command)] }, .submitted ticket)

def enqueue (stage : Stage) (command : Command) : Stage × Reply :=
  stage.submitted (some command.id) (stage.engine.submit (.execute command))

def replaced (stage : Stage) (engine : Engine) (reply : Reply) : Stage × Reply :=
  ({ stage with engine }, reply)

def about (stage : Stage) (command : CommandId) (reply : Role → Reply) : Reply :=
  match stage.roles[command]? with
  | some role => reply role
  | none => .nothing

def perform (stage : Stage) : Call → Stage × Reply
  | .build sheet =>
    match stage.prepare sheet with
    | .error error => (stage, .refused error)
    | .ok (stage, command) => (stage, .built command.id)
  | .enqueue sheet =>
    match stage.prepare sheet with
    | .error error => (stage, .refused error)
    | .ok (stage, command) => stage.enqueue command
  | .enqueueAgain command =>
    match stage.roles[command]? with
    | some role => stage.enqueue role.command
    | none => (stage, .nothing)
  | .undo filter => stage.submitted none (stage.engine.submit (.undo filter))
  | .redo filter => stage.submitted none (stage.engine.submit (.redo filter))
  | .undoIn names => stage.submitted none (stage.engine.undoIn names)
  | .redoIn names => stage.submitted none (stage.engine.redoIn names)
  | .jump target => stage.submitted none (stage.engine.submit (.jump target))
  | .clear => stage.replaced stage.engine.clear .nothing
  | .setLimit limit => stage.replaced (stage.engine.setLimit limit) (.number limit)
  | .activate id =>
    let engine := stage.engine.activate id
    stage.replaced engine (.text engine.history.active.name)
  | .route scope id =>
    match stage.engine.route scope id with
    | (.ok (), engine) => stage.replaced engine .done
    | (.error error, engine) => stage.replaced engine (.refused error)
  | .queuedIn names =>
    match stage.engine.queuedTextsIn names with
    | .ok texts => (stage, .queue texts)
    | .error error => (stage, .refused error)
  | .queued filter => (stage, .texts (stage.engine.queuedTexts filter))
  | .history => (stage, .entries stage.engine.entries)
  | .scopeNames => (stage, .texts stage.engine.registry.names)
  | .overview => (stage, .overview stage.engine stage.props.counter)
  | .statusOf command => (stage, .status (stage.engine.statuses.get command))
  | .describe command =>
    (stage, stage.about command fun role =>
      .command role.command (stage.engine.statuses.get command))
  | .inspect => (stage, .text stage.engine.inspect)
  | .shutDown => stage.replaced stage.engine.shutDown .nothing
  | .unlisted call =>
    match stage.perform call with
    | (stage, .submitted ticket) =>
      ({ stage with listed := stage.listed.filter fun job => job.1 != ticket }, .submitted ticket)
    | other => other

/-! ### Turns -/

def finish (stage : Stage) (outcome : Outcome) : Stage :=
  { stage with engine := stage.engine.finish outcome, script := none }

def meet (stage : Stage) (run : Run) : Demand → Stage
  | .goOn => stage
  | .report event => { stage with engine := stage.engine.report run.number event }
  | .reportLate reporter event => { stage with engine := stage.engine.report reporter event }
  | .park => { stage with isParked := !stage.gatesOpen }
  | .call call =>
    let (stage, reply) := stage.perform call
    { stage with props := stage.props.write (.reply reply) }
  | .finish outcome => stage.finish outcome

def takeUp (stage : Stage) (run : Run) : Stage :=
  let id := run.step.command.id
  match stage.roles[id]? with
  | none => { stage with script := some [] }
  | some role =>
    let (instructions, role) := role.play run.step.operation.direction
    { stage with roles := stage.roles.setIfInBounds id role, script := some instructions }

/-- One turn: the next instruction of the action that runs, or the next step of the worker. -/
def turn (stage : Stage) : Stage :=
  match stage.engine.phase with
  | .acting run =>
    match stage.script with
    | none => stage.takeUp run
    | some [] => stage.finish silentEnd
    | some (instruction :: rest) =>
      let (props, demand) :=
        carryOut stage.engine.statuses.get run.number stage.props instruction
      { stage with props, script := some rest }.meet run demand
  | _ => { stage with engine := stage.engine.advance }

/-- Turns until there is nothing to do or an action waits at a gate, at most the given number. -/
def settle : Nat → Stage → Stage
  | 0, stage => stage
  | patience + 1, stage =>
    if stage.isParked || stage.engine.isSettled then stage else settle patience stage.turn

/-! ### Cues -/

/-- One thing that a scenario does from outside. -/
inductive Cue where
  | call (call : Call)
  | callAll (calls : List Call)
  | release
  | reportLate (kept : Nat) (event : ProgressEvent)
  | subscribe
  | unsubscribe (subscriber : Nat)
  | drain (subscriber : Nat)
  | shutDown

inductive CueReply where
  | reply (reply : Reply)
  | flag (value : Bool)
  | deliveries (deliveries : List Delivery)

def drain (stage : Stage) (subscriber : Nat) : Stage × List Delivery :=
  match stage.subscribers[subscriber]? with
  | none => (stage, [])
  | some number =>
    let (bus, deliveries) := stage.engine.bus.drain number
    ({ stage with engine := { stage.engine with bus } }, deliveries)

def subscribe (stage : Stage) : Stage :=
  let (bus, number) := stage.engine.bus.subscribe
  { stage with
    engine := { stage.engine with bus }
    subscribers := stage.subscribers ++ [number] }

def unsubscribe (stage : Stage) (subscriber : Nat) : Stage :=
  match stage.subscribers[subscriber]? with
  | none => stage
  | some number =>
    { stage with engine := { stage.engine with bus := stage.engine.bus.unsubscribe number } }

def isOpen (stage : Stage) (reporter : Nat) : Bool :=
  match stage.engine.phase with
  | .acting run => run.number == reporter
  | _ => false

def reportLate (stage : Stage) (kept : Nat) (event : ProgressEvent) : Stage × Bool :=
  match stage.props.reporters[kept]? with
  | none => (stage, false)
  | some reporter =>
    ({ stage with engine := stage.engine.report reporter event }, stage.isOpen reporter)

def follow (patience : Nat) (stage : Stage) : Cue → Stage × CueReply
  | .call call =>
    let (stage, reply) := stage.perform call
    (settle patience stage, .reply reply)
  | .callAll calls =>
    let stage := calls.foldl (fun stage call => (stage.perform call).1) stage
    (settle patience stage, .reply (.number calls.length))
  | .release =>
    (settle patience { stage with isParked := false }, .flag stage.isParked)
  | .reportLate kept event =>
    let (stage, isOpen) := stage.reportLate kept event
    (settle patience stage, .flag isOpen)
  | .subscribe => (settle patience stage.subscribe, .reply (.number stage.subscribers.length))
  | .unsubscribe subscriber => (settle patience (stage.unsubscribe subscriber), .reply .nothing)
  | .drain subscriber =>
    let (stage, deliveries) := stage.drain subscriber
    (settle patience stage, .deliveries deliveries)
  | .shutDown =>
    let stage := settle patience { stage with isParked := false, gatesOpen := true }
    ({ stage with engine := stage.engine.shutDown }, .reply .nothing)

structure FinishedJob where
  ticket : Ticket
  command : Option CommandId
  progress : List ProgressEvent
  result : ActionResult

def harvest (stage : Stage) : Stage × List FinishedJob :=
  if stage.engine.isSettled then
    let jobs := stage.listed.filterMap fun (ticket, command) =>
      (stage.engine.answer? ticket).map fun result =>
        let progress := (stage.engine.reports.filter fun report => report.1 == ticket).map Prod.snd
        { ticket, command, progress, result }
    ({ stage with listed := [] }, jobs)
  else (stage, [])

def takeLog (stage : Stage) : Stage × List LogEntry :=
  ({ stage with props := { stage.props with log := [] } }, stage.props.log)

end Stage

end Retrace.Scenario
