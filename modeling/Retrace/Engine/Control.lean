import Retrace.Engine

/-!
# Calls that take effect at once

These calls change the history or the way it is used without going through the queue. They may be made
at any moment, also by an action while it runs.
-/

namespace Retrace.Engine

/-- Forgets every stack's commands and discards the jobs that wait. A job whose action runs goes on to
the end of that action, without effect on the history. -/
def clear (engine : Engine) : Engine :=
  { engine with
    generation := engine.generation + 1
    waiting := []
    history := engine.history.clear
    bus := engine.bus.publish .stateChanged }

def setLimit (engine : Engine) (limit : Nat) : Engine :=
  let (history, dropped) := engine.history.setLimit limit
  let events := if 0 < dropped then [EngineEvent.stateChanged] else []
  { engine with history, bus := engine.bus.publishAll events }

/-- Makes a stack the active one, the default stack if none is named. -/
def activate (engine : Engine) (id : Option StackId) : Engine :=
  { engine with
    history := engine.history.activate id
    bus := engine.bus.publish .stateChanged }

/-- Sends commands of a scope that name no stack to a stack. A route for the same scope is replaced, and
the new one comes after all others. -/
def route (engine : Engine) (scope : Scope) (stack : StackId) : Except EngineError Unit × Engine :=
  match engine.registry.validate scope with
  | .error error => (.error error, engine)
  | .ok () =>
    if scope.isAll || scope.isEmpty then
      (.error (.invalid "routes need a specific, non-empty scope"), engine)
    else
      let others := engine.routes.filter fun route => route.scope != scope
      (.ok (), { engine with routes := others ++ [⟨scope, stack⟩] })

def shutDown (engine : Engine) : Engine := { engine with isAccepting := false }

/-- Takes note that nobody takes jobs from the queue any more. -/
def abandon (engine : Engine) : Engine := { engine with isListening := false }

end Retrace.Engine
