import Retrace.Command

/-!
# Building commands

A draft collects what a command is made of. Its behaviour is given either as one action with two sides
or as two separate sides, of which the forward one is needed.
-/

namespace Retrace

/-- The two sides of an action. Without a backward side there is nothing to take back. -/
structure Behaviour (α : Type) where
  forward : α
  backward : Option α

structure Draft (α : Type) where
  text : String
  kind : CommandKind
  scope : Scope
  stack : Option StackId
  action : Option (Behaviour α)
  forward : Option α
  backward : Option α

namespace Draft

def ofText (text : String) (kind : CommandKind) {α : Type} : Draft α :=
  { text, kind, scope := .all, stack := none, action := none, forward := none, backward := none }

def behaviour {α : Type} (draft : Draft α) : Except EngineError (Behaviour α) :=
  match draft.action, draft.forward, draft.backward with
  | some action, none, none => .ok action
  | some _, _, _ => .error (.invalid s!"command '{draft.text}' has both an action and closures")
  | none, some forward, backward => .ok ⟨forward, backward⟩
  | none, none, _ => .error (.missingForwardAction draft.text)

def build {α : Type} (draft : Draft α) (id : CommandId) :
    Except EngineError (Command × Behaviour α) :=
  draft.behaviour.map fun behaviour =>
    (⟨id, draft.text, draft.kind, draft.scope, draft.stack⟩, behaviour)

end Draft

end Retrace
