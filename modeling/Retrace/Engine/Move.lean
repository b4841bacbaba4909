import Retrace.Engine.Control
import Retrace.Engine.Worker

/-!
# Moves

Everything that can happen to an engine, one move at a time, in any order: calls by its users, steps of
its worker, and what a running action does.
-/

namespace Retrace

inductive Move where
  | submit (request : Request)
  | clear
  | setLimit (limit : Nat)
  | activate (stack : Option StackId)
  | route (scope : Scope) (stack : StackId)
  | shutDown
  | advance
  | report (run : Nat) (event : ProgressEvent)
  | finish (outcome : Outcome)
  deriving DecidableEq

namespace Engine

def apply (engine : Engine) : Move → Engine
  | .submit request => (engine.submit request).2
  | .clear => engine.clear
  | .setLimit limit => engine.setLimit limit
  | .activate stack => engine.activate stack
  | .route scope stack => (engine.route scope stack).2
  | .shutDown => engine.shutDown
  | .advance => engine.advance
  | .report run event => engine.report run event
  | .finish outcome => engine.finish outcome

/-- The engine after a list of moves. -/
def applyAll (engine : Engine) (moves : List Move) : Engine := moves.foldl apply engine

@[simp] theorem applyAll_nil (engine : Engine) : engine.applyAll [] = engine := rfl

@[simp] theorem applyAll_cons (engine : Engine) (move : Move) (moves : List Move) :
    engine.applyAll (move :: moves) = (engine.apply move).applyAll moves := rfl

theorem applyAll_append (engine : Engine) (first second : List Move) :
    engine.applyAll (first ++ second) = (engine.applyAll first).applyAll second :=
  List.foldl_append

theorem applyAll_concat (engine : Engine) (moves : List Move) (move : Move) :
    engine.applyAll (moves ++ [move]) = (engine.applyAll moves).apply move := by
  rw [applyAll_append, applyAll_cons, applyAll_nil]

end Engine

end Retrace
