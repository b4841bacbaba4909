import Retrace.Engine.Submission

/-!
# The worker

The worker takes the jobs one by one. For each it chooses an action, waits for the action to end, notes
the effect on the history, announces it, and answers. Between two of these steps anything else may
happen to the engine, so each looks again at what it depends on.
-/

namespace Retrace.Engine

def answer (engine : Engine) (job : Job) (result : ActionResult) : Engine :=
  { engine with
    phase := .idle
    running := engine.running - 1
    answers := engine.answers ++ [(job.ticket, result)] }

/-! ### The end of an action -/

def around (step : Step) (active : Bool) : List EngineEvent :=
  match step.operation with
  | .execute => []
  | .undo => [.undoing step.command.scope active]
  | .redo => [.redoing step.command.scope active]

def closingEvents (step : Step) (result : ActionResult) (changed : Bool) : List EngineEvent :=
  let error :=
    match result with
    | .ok _ => none
    | .error error => some error.message
  around step false ++ [.completed step.command.id step.command.text step.operation error] ++
    if changed then [.stateChanged] else []

/-- The effect of a successful action on the history, and whether there is one: none after a clear and
none for a query. -/
def takeEffect (engine : Engine) (run : Run) : History × Bool :=
  if engine.generation ≠ run.job.generation then (engine.history, false)
  else
    match run.step.operation with
    | .execute =>
      if run.step.command.isQuery then (engine.history, false)
      else (engine.history.record run.step.stack run.step.command, true)
    | operation =>
      engine.history.moveCursor run.step.stack run.step.command.id operation.direction

/-- Goes on after an action from its result: a jump looks for its next step as long as nothing fails,
every other job is answered. -/
def conclude (engine : Engine) (run : Run) (result : ActionResult) : Engine :=
  let (history, changed) :=
    if Outcome.succeeded result then engine.takeEffect run else (engine.history, false)
  let announced :=
    { engine with
      history
      bus := engine.bus.publishAll (closingEvents run.step result changed) }
  match result, run.walk with
  | .ok _, some walk => { announced with phase := .resting run.job walk }
  | result, _ => announced.answer run.job result

/-- Takes note that the action that runs has ended. -/
def finish (engine : Engine) (outcome : Outcome) : Engine :=
  match engine.phase with
  | .acting run =>
    let (result, status) :=
      run.step.command.verdict run.step.operation.direction run.previous outcome
    let statuses := engine.statuses.set run.step.command.id status
    { engine with statuses }.conclude run result
  | _ => engine

/-- Takes note of a report that is made through the reporter of a run in one go: it reaches the bus and the
submitter as long as the action of that run has not ended. -/
def report (engine : Engine) (number : Nat) (event : ProgressEvent) : Engine :=
  match engine.phase with
  | .acting run =>
    if run.number = number then
      { engine with
        reports := engine.reports ++ [(run.job.ticket, event)]
        bus := engine.bus.publish (.progress run.step.command.id event) }
    else engine
  | _ => engine

/-! ### The start of an action -/

/-- Starts an action for a job. Undoing a query runs nothing and succeeds. -/
def begin (engine : Engine) (job : Job) (walk : Option Walk) (step : Step) : Engine :=
  let id := step.command.id
  let run : Run := ⟨engine.runs, job, walk, step, engine.statuses.get id⟩
  let announced := { engine with bus := engine.bus.publishAll (around step true) }
  if !step.command.runsAction step.operation.direction then announced.conclude run (.ok .null)
  else
    { announced with
      phase := .acting run
      runs := engine.runs + 1
      statuses := engine.statuses.set id .running }

/-- The start of an undo or a redo of the command that a filter leads to. -/
def beginMove (engine : Engine) (job : Job) (operation : Operation) (filter : Option Scope)
    (missing : EngineError) : Engine :=
  match engine.history.target operation.direction filter with
  | none => engine.answer job (.error missing)
  | some candidate => engine.begin job none ⟨candidate.command, candidate.stack, operation⟩

def arrival (target : Option Nat) : Json :=
  let index :=
    match target with
    | some index => Json.integer index
    | none => .null
  .object [("current_index", index)]

/-- The start of a jump: the active stack is walked from now on, whichever stack is active later. -/
def beginJump (engine : Engine) (job : Job) (target : Option Nat) : Engine :=
  match target with
  | none => { engine with phase := .choosing job (some ⟨engine.history.active, 0⟩) }
  | some index =>
    if engine.count ≤ index then engine.answer job (.error (.indexOutOfRange index engine.count))
    else { engine with phase := .choosing job (some ⟨engine.history.active, index + 1⟩) }

/-- The next step of a jump: back while more commands are applied than wanted, forward while fewer are,
and the answer when their number is right. -/
def continueJump (engine : Engine) (job : Job) (walk : Walk) (target : Option Nat) : Engine :=
  match engine.history.stack? walk.stack with
  | none => engine.answer job (.ok (arrival target))
  | some stack =>
    if walk.wanted < stack.applied then
      match stack.undoCommand with
      | none => engine.answer job (.error .noMoreUndos)
      | some command => engine.begin job (some walk) ⟨command, walk.stack, .undo⟩
    else if stack.applied < walk.wanted then
      match stack.redoCommand with
      | none => engine.answer job (.error .noMoreRedos)
      | some command => engine.begin job (some walk) ⟨command, walk.stack, .redo⟩
    else engine.answer job (.ok (arrival target))

def choose (engine : Engine) (job : Job) (walk : Option Walk) : Engine :=
  match job.goal, walk with
  | .execute command stack, _ =>
    { engine with waiting := withoutTicket job.ticket engine.waiting }.begin job none
      ⟨command, stack, .execute⟩
  | .undo filter, _ => engine.beginMove job .undo filter .noMoreUndos
  | .redo filter, _ => engine.beginMove job .redo filter .noMoreRedos
  | .jump target, none => engine.beginJump job target
  | .jump target, some walk => engine.continueJump job walk target

/-- Takes the next job from the queue. A job that was submitted before a clear is answered at once. -/
def take (engine : Engine) : Engine :=
  match engine.queue with
  | [] => engine
  | job :: queue =>
    let engine := { engine with queue }
    if job.generation = engine.generation then { engine with phase := .choosing job none }
    else engine.answer job (.error .cancelled)

/-- Goes on with a jump after one of its actions, unless the history was cleared. -/
def resume (engine : Engine) (job : Job) (walk : Walk) : Engine :=
  if job.generation = engine.generation then { engine with phase := .choosing job (some walk) }
  else engine.answer job (.error .cancelled)

/-- The next step of the worker. While an action runs there is none: the worker waits for its end. -/
def advance (engine : Engine) : Engine :=
  match engine.phase with
  | .idle => engine.take
  | .choosing job walk => engine.choose job walk
  | .acting _ => engine
  | .resting job walk => engine.resume job walk

end Retrace.Engine
