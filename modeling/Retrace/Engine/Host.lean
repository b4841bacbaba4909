import Retrace.Engine.Move

/-!
# Hosts

A host runs the actions of an engine's commands on a world of its own, each from start to end in one go.
-/

namespace Retrace

/-- What an action did: the world after it, its reports in order, and how it ended. -/
structure Performance (World : Type) where
  world : World
  reports : List ProgressEvent
  outcome : Outcome

/-- Whoever runs the actions. -/
structure Host (World : Type) where
  perform : Step → World → Performance World

namespace Host

/-- One turn of an engine and its world: the action that was started is run, or the worker takes its
next step. -/
def turn {World : Type} (host : Host World) (engine : Engine) (world : World) : Engine × World :=
  match engine.phase with
  | .acting run =>
    let done := host.perform run.step world
    let reported := done.reports.foldl (fun engine event => engine.report run.number event) engine
    (reported.finish done.outcome, done.world)
  | _ => (engine.advance, world)

/-- Turns until a condition holds or the given number of them has been taken. -/
def turnUntil {World : Type} (host : Host World) (stop : Engine → Bool) :
    Nat → Engine × World → Engine × World
  | 0, state => state
  | bound + 1, (engine, world) =>
    if stop engine then (engine, world) else host.turnUntil stop bound (host.turn engine world)

/-- How many turns the jobs of an engine need at most, when nothing else happens meanwhile: a jump takes
three for each command it passes, and it cannot pass more commands than its stack can hold by then. -/
def turnBound (engine : Engine) : Nat :=
  let jobs := engine.queue.length + 1
  let longest := (engine.history.stackList.map Stack.count).foldl Nat.max 0
  jobs * (3 * (longest + jobs) + 4)

def settle {World : Type} (host : Host World) (engine : Engine) (world : World) : Engine × World :=
  host.turnUntil Engine.isSettled (turnBound engine) (engine, world)

/-- Lets the worker go on until a job is answered. -/
def await {World : Type} (host : Host World) (ticket : Ticket) (engine : Engine) (world : World) :
    Engine × World :=
  host.turnUntil (fun engine => (engine.answer? ticket).isSome) (turnBound engine) (engine, world)

end Host

end Retrace
