import Retrace.Event.Reporter
import Retrace.Scenario.Instruction

/-!
# Rehearsals

A scripted command that is run without an engine, each time with a reporter of its own.
-/

namespace Retrace.Scenario

/-- A command, where it is in its life, and the reporters made for its runs so far. -/
structure Rehearsal where
  role : Role
  status : CommandStatus
  props : Props
  reporters : List Reporter
  isAttached : Bool
  bus : Bus

namespace Rehearsal

def start (role : Role) (isAttached : Bool) : Rehearsal :=
  { role, status := .pending, props := Props.start, reporters := [], isAttached
    bus := (Bus.withCapacity Bus.defaultCapacity).subscribe.1 }

def renew (rehearsal : Rehearsal) : Rehearsal :=
  let id := rehearsal.role.command.id
  let reporter := if rehearsal.isAttached then Reporter.attached id else Reporter.detached id
  { rehearsal with reporters := rehearsal.reporters ++ [reporter] }

def current (rehearsal : Rehearsal) : Nat := rehearsal.reporters.length - 1

def isOpen (rehearsal : Rehearsal) : Bool :=
  match rehearsal.reporters[rehearsal.current]? with
  | some reporter => reporter.isOpen
  | none => false

def emit (rehearsal : Rehearsal) (number : Nat) (event : ProgressEvent) : Rehearsal :=
  match rehearsal.reporters[number]? with
  | some reporter => { rehearsal with bus := reporter.emit event rehearsal.bus }
  | none => rehearsal

def emitLate (rehearsal : Rehearsal) (kept : Nat) (event : ProgressEvent) : Rehearsal :=
  match rehearsal.props.reporters[kept]? with
  | some number => rehearsal.emit number event
  | none => rehearsal

def close (rehearsal : Rehearsal) : Rehearsal :=
  { rehearsal with reporters := rehearsal.reporters.modify rehearsal.current Reporter.close }

/-- Carries out the instructions of a run up to its end. There is no engine to call, and no gate. -/
def carry (rehearsal : Rehearsal) : List (Instruction Call) → Rehearsal × Outcome
  | [] => (rehearsal, silentEnd)
  | instruction :: rest =>
    let (props, demand) :=
      carryOut (fun _ => rehearsal.status) rehearsal.current rehearsal.props instruction
    let rehearsal := { rehearsal with props }
    match demand with
    | .finish outcome => (rehearsal, outcome)
    | .report event => (rehearsal.emit rehearsal.current event).carry rest
    | .reportLate reporter event => (rehearsal.emit reporter event).carry rest
    | .goOn | .park | .call _ => rehearsal.carry rest

/-- Runs one side of the action with the current reporter. Taking back a query runs nothing. -/
def run (rehearsal : Rehearsal) (direction : Direction) : Rehearsal × ActionResult :=
  let command := rehearsal.role.command
  if !command.runsAction direction then (rehearsal.close, .ok .null)
  else
    let (instructions, role) := rehearsal.role.play direction
    let (acted, outcome) := { rehearsal with role, status := .running }.carry instructions
    let (result, status) := command.verdict direction rehearsal.status outcome
    ({ acted.close with status }, result)

def drain (rehearsal : Rehearsal) : Rehearsal × List Delivery :=
  let (bus, deliveries) := rehearsal.bus.drain 0
  ({ rehearsal with bus }, deliveries)

end Rehearsal

end Retrace.Scenario
