import Retrace.Engine

/-!
# Submitting jobs

A submission takes a ticket, is checked, and joins the queue. The stack of a command is settled when it
is submitted: the one it names, else the one its scope is routed to, else the active one.
-/

namespace Retrace

inductive Request where
  | execute (command : Command)
  | undo (filter : Option Scope)
  | redo (filter : Option Scope)
  | jump (target : Option Nat)
  deriving DecidableEq, Inhabited

namespace Engine

def routed? (engine : Engine) (scope : Scope) : Option StackId :=
  match scope with
  | .all => none
  | scope => (engine.routes.find? fun route => route.scope.selects scope).map Route.stack

def stackFor (engine : Engine) (command : Command) : StackId :=
  match command.stack with
  | some stack => stack
  | none => (engine.routed? command.scope).getD engine.history.active

def checkFilter (engine : Engine) : Option Scope → Except EngineError Unit
  | none => .ok ()
  | some filter => engine.registry.validate filter

/-- What a request asks the worker to do, if it is in order. -/
def goalFor (engine : Engine) : Request → Except EngineError Goal
  | .execute command =>
    (engine.registry.validate command.scope).map fun _ => .execute command (engine.stackFor command)
  | .undo filter => (engine.checkFilter filter).map fun _ => .undo filter
  | .redo filter => (engine.checkFilter filter).map fun _ => .redo filter
  | .jump target => .ok (.jump target)

/-- The entry of the waiting list for a job that executes a command. -/
def waitingEntry (ticket : Ticket) : Goal → List Waiting
  | .execute command stack => [⟨ticket, command.text, command.scope, stack⟩]
  | _ => []

/-- The waiting list without the entry of a ticket. -/
def withoutTicket (ticket : Ticket) (waiting : List Waiting) : List Waiting :=
  waiting.filter fun entry => entry.ticket != ticket

/-- Puts a job for a goal into the queue. If nobody takes jobs any more, the entry that was made in the
waiting list is taken back. -/
def schedule (engine : Engine) (ticket : Ticket) (goal : Goal) : Except EngineError Ticket × Engine :=
  let noted := { engine with waiting := engine.waiting ++ waitingEntry ticket goal }
  if noted.isListening then
    (.ok ticket,
      { noted with
        running := noted.running + 1
        queue := noted.queue ++ [⟨ticket, noted.generation, goal⟩] })
  else (.error .shutDown, { noted with waiting := withoutTicket ticket noted.waiting })

/-- Submits a request. The ticket is used up also when the request is refused, unless the engine takes
no requests at all. -/
def submit (engine : Engine) (request : Request) : Except EngineError Ticket × Engine :=
  if engine.isAccepting then
    let ticket := engine.nextTicket
    let numbered := { engine with nextTicket := ticket + 1 }
    match numbered.goalFor request with
    | .error error => (.error error, numbered)
    | .ok goal => numbered.schedule ticket goal
  else (.error .shutDown, engine)

/-- Submits a request that is made from a filter given by the names of its areas. -/
def submitIn (engine : Engine) (names : String) (request : Option Scope → Request) :
    Except EngineError Ticket × Engine :=
  match engine.registry.scopeOfText names with
  | .error error => (.error error, engine)
  | .ok filter => engine.submit (request (some filter))

def undoIn (engine : Engine) (names : String) : Except EngineError Ticket × Engine :=
  engine.submitIn names .undo

def redoIn (engine : Engine) (names : String) : Except EngineError Ticket × Engine :=
  engine.submitIn names .redo

end Engine

end Retrace
