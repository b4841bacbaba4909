import Mathlib.Logic.Function.Basic
import Retrace.Engine.Host
import Retrace.Proofs.Stack

/-!
# The reference machine

What the engine is to do when each request is settled before the next: two lists for every name of a
stack, one with what is applied and one with what can be redone, and the names of the stacks in the order
of their last use. There are no jobs, no queue and no cursor.
-/

namespace Retrace

/-- What a user of an engine does when nothing is under way. -/
inductive Directive where
  | request (request : Request)
  | clear
  | setLimit (limit : Nat)
  | activate (stack : Option StackId)
  | route (scope : Scope) (stack : StackId)
  deriving DecidableEq, Inhabited

/-- The state of the machine. `recent` names the stacks on which a command was recorded or moved, the
latest first. -/
structure Reference where
  registry : Registry
  routes : List Route
  active : StackId
  defaultStack : StackId
  limit : Nat
  past : StackId → List Command
  future : StackId → List Command
  recent : List StackId

def Host.run {World : Type} (host : Host World) (step : Step) (world : World) : Bool × World :=
  let done := host.perform step world
  (Outcome.succeeded (done.outcome.settle step.command.text), done.world)

namespace Reference

def start (registry : Registry) (routes : List Route) (defaultStack : StackId) (limit : Nat) : Reference :=
  { registry, routes, active := defaultStack, defaultStack, limit,
    past := fun _ => [], future := fun _ => [], recent := [] }

def put (reference : Reference) (id : StackId) (past future : List Command) : Reference :=
  { reference with
    past := Function.update reference.past id past
    future := Function.update reference.future id future
    recent := id :: reference.recent.filter (· ≠ id) }

section Put

variable (reference : Reference) {id name : StackId} (past future : List Command)

@[simp] theorem past_put_self : (reference.put id past future).past id = past := Function.update_self ..

@[simp] theorem future_put_self : (reference.put id past future).future id = future := Function.update_self ..

theorem past_put_of_ne (hname : name ≠ id) : (reference.put id past future).past name = reference.past name :=
  Function.update_of_ne hname ..

theorem future_put_of_ne (hname : name ≠ id) :
    (reference.put id past future).future name = reference.future name :=
  Function.update_of_ne hname ..

end Put

/-- The newest commands that a limit allows, where no limit is written as zero. -/
def keep (limit : Nat) (commands : List Command) : List Command :=
  if limit = 0 then commands else Stack.newest limit commands

theorem keep_suffix (limit : Nat) (commands : List Command) : keep limit commands <:+ commands := by
  unfold keep
  split_ifs
  · exact List.suffix_refl commands
  · exact Stack.newest_suffix limit commands

/-- Appends a command to what is applied, within the limit; what could be redone is forgotten. -/
def record (reference : Reference) (id : StackId) (command : Command) : Reference :=
  reference.put id (keep reference.limit (reference.past id ++ [command])) []

def next (reference : Reference) (direction : Direction) (id : StackId) : Option Command :=
  match direction with
  | .forward => (reference.future id).head?
  | .backward => (reference.past id).getLast?

def pass (reference : Reference) (direction : Direction) (id : StackId) : Reference :=
  match reference.next direction id with
  | none => reference
  | some command =>
    match direction with
    | .forward => reference.put id (reference.past id ++ [command]) (reference.future id).tail
    | .backward => reference.put id (reference.past id).dropLast (command :: reference.future id)

section Pass

variable {reference : Reference} {id : StackId} {command : Command}

theorem pass_forward (hnext : reference.next .forward id = some command) :
    reference.pass .forward id =
      reference.put id (reference.past id ++ [command]) (reference.future id).tail := by
  rw [pass, hnext]

theorem pass_backward (hnext : reference.next .backward id = some command) :
    reference.pass .backward id =
      reference.put id (reference.past id).dropLast (command :: reference.future id) := by
  rw [pass, hnext]

end Pass

/-- The stack on which a command is to be recorded: the one it names, else the one of the first route
that its scope takes, else the active one. -/
def stackFor (reference : Reference) (command : Command) : StackId :=
  match command.stack, command.scope with
  | some stack, _ => stack
  | none, .all => reference.active
  | none, scope =>
    ((reference.routes.find? fun route => route.scope.selects scope).map Route.stack).getD reference.active

/-- The stack to undo or redo on, and the command: without a filter the active stack's, with one the
first that the filter selects in the order of the last use. -/
def choose (reference : Reference) (direction : Direction) : Option Scope → Option (StackId × Command)
  | none => (reference.next direction reference.active).map fun command => (reference.active, command)
  | some filter => reference.recent.findSome? fun id =>
    ((reference.next direction id).filter fun command => filter.selects command.scope).map fun command =>
      (id, command)

theorem next_of_choose {reference : Reference} {direction : Direction} {filter : Option Scope} {id : StackId}
    {command : Command} (hchoose : reference.choose direction filter = some (id, command)) :
    reference.next direction id = some command := by
  cases filter with
  | none =>
    obtain ⟨found, hnext, hsame⟩ := Option.map_eq_some_iff.mp hchoose
    obtain ⟨rfl, rfl⟩ := Prod.mk.inj hsame
    exact hnext
  | some filter =>
    obtain ⟨name, -, hname⟩ := List.exists_of_findSome?_eq_some hchoose
    obtain ⟨found, hfound, hsame⟩ := Option.map_eq_some_iff.mp hname
    obtain ⟨rfl, rfl⟩ := Prod.mk.inj hsame
    exact (Option.filter_eq_some_iff.mp hfound).1

def accepts (reference : Reference) : Request → Bool
  | .execute command => (reference.registry.validate command.scope).isOk
  | .undo (some filter) | .redo (some filter) => (reference.registry.validate filter).isOk
  | _ => true

section Host

variable {World : Type} (host : Host World)

/-- Executes a command; only a mutating one that succeeds is recorded. -/
def execute (reference : Reference) (command : Command) (world : World) : Reference × World :=
  let id := reference.stackFor command
  let (succeeded, world) := host.run ⟨command, id, .execute⟩ world
  (if succeeded && !command.isQuery then reference.record id command else reference, world)

/-- Undoes or redoes a command of a stack; only if that succeeds the command moves across. -/
def move (reference : Reference) (operation : Operation) (id : StackId) (command : Command) (world : World) :
    Bool × Reference × World :=
  let (succeeded, world) := host.run ⟨command, id, operation⟩ world
  (succeeded, if succeeded then reference.pass operation.direction id else reference, world)

variable {host} in
theorem move_of_succeeded {reference : Reference} {operation : Operation} {id : StackId} {command : Command}
    {world : World} (hsucceeded : (reference.move host operation id command world).1 = true) :
    (reference.move host operation id command world).2.1 = reference.pass operation.direction id := by
  unfold move at hsucceeded ⊢
  exact if_pos hsucceeded

def moveChosen (reference : Reference) (operation : Operation) (filter : Option Scope) (world : World) :
    Reference × World :=
  match reference.choose operation.direction filter with
  | none => (reference, world)
  | some (id, command) => (reference.move host operation id command world).2

def walk (operation : Operation) (id : StackId) : Nat → Reference × World → Reference × World
  | 0, state => state
  | count + 1, (reference, world) =>
    match reference.next operation.direction id with
    | none => (reference, world)
    | some command =>
      let (succeeded, state) := reference.move host operation id command world
      if succeeded then walk operation id count state else state

/-- Undoes or redoes on the active stack until so many of its commands are applied. -/
def walkTo (reference : Reference) (wanted : Nat) (world : World) : Reference × World :=
  let applied := (reference.past reference.active).length
  if wanted ≤ applied then walk host .undo reference.active (applied - wanted) (reference, world)
  else walk host .redo reference.active (wanted - applied) (reference, world)

def jump (reference : Reference) (target : Option Nat) (world : World) : Reference × World :=
  match target with
  | none => reference.walkTo host 0 world
  | some index =>
    if (reference.past reference.active).length + (reference.future reference.active).length ≤ index then
      (reference, world)
    else reference.walkTo host (index + 1) world

def serve (reference : Reference) (request : Request) (world : World) : Reference × World :=
  match request with
  | .execute command => reference.execute host command world
  | .undo filter => reference.moveChosen host .undo filter world
  | .redo filter => reference.moveChosen host .redo filter world
  | .jump target => reference.jump host target world

end Host

def clear (reference : Reference) : Reference := { reference with past := fun _ => [], future := fun _ => [] }

def setLimit (reference : Reference) (limit : Nat) : Reference :=
  { reference with
    limit
    past := fun id => (Stack.within limit (reference.past id) (reference.future id)).1
    future := fun id => (Stack.within limit (reference.past id) (reference.future id)).2 }

/-- Makes a stack the active one, the default stack if none is named. -/
def activate (reference : Reference) (stack : Option StackId) : Reference :=
  { reference with active := stack.getD reference.defaultStack }

def route (reference : Reference) (scope : Scope) (stack : StackId) : Reference :=
  if (reference.registry.validate scope).isOk && !(scope.isAll || scope.isEmpty) then
    { reference with routes := reference.routes.filter (·.scope ≠ scope) ++ [⟨scope, stack⟩] }
  else reference

def carryOut {World : Type} (host : Host World) (state : Reference × World) : Directive → Reference × World
  | .request request =>
    if state.1.accepts request then state.1.serve host request state.2 else state
  | .clear => (state.1.clear, state.2)
  | .setLimit limit => (state.1.setLimit limit, state.2)
  | .activate stack => (state.1.activate stack, state.2)
  | .route scope stack => (state.1.route scope stack, state.2)

/-- Carries out directives one after the other. -/
def carryOutAll {World : Type} (host : Host World) (state : Reference × World) (directives : List Directive) :
    Reference × World :=
  directives.foldl (carryOut host) state

/-! ### Stacks that are left alone -/

structure OnlyOn (before after : Reference) (id : StackId) : Prop where
  past : ∀ name, name ≠ id → after.past name = before.past name
  future : ∀ name, name ≠ id → after.future name = before.future name

theorem OnlyOn.refl (reference : Reference) (id : StackId) : OnlyOn reference reference id :=
  ⟨fun _ _ => rfl, fun _ _ => rfl⟩

theorem OnlyOn.trans {first second third : Reference} {id : StackId} (hfirst : OnlyOn first second id)
    (hsecond : OnlyOn second third id) : OnlyOn first third id where
  past name hname := (hsecond.past name hname).trans (hfirst.past name hname)
  future name hname := (hsecond.future name hname).trans (hfirst.future name hname)

theorem onlyOn_put (reference : Reference) (id : StackId) (past future : List Command) :
    OnlyOn reference (reference.put id past future) id where
  past _ hname := reference.past_put_of_ne past future hname
  future _ hname := reference.future_put_of_ne past future hname

private theorem onlyOn_pass (reference : Reference) (direction : Direction) (id : StackId) :
    OnlyOn reference (reference.pass direction id) id := by
  unfold pass
  split
  · exact OnlyOn.refl reference id
  · cases direction with
    | forward => exact onlyOn_put ..
    | backward => exact onlyOn_put ..

section Host

variable {World : Type} (host : Host World) (reference : Reference)

private theorem onlyOn_execute (command : Command) (world : World) :
    OnlyOn reference (reference.execute host command world).1 (reference.stackFor command) := by
  unfold execute
  dsimp only
  split_ifs
  · exact onlyOn_put ..
  · exact OnlyOn.refl ..

theorem onlyOn_move (operation : Operation) (id : StackId) (command : Command) (world : World) :
    OnlyOn reference (reference.move host operation id command world).2.1 id := by
  unfold move
  dsimp only
  split_ifs
  · exact onlyOn_pass ..
  · exact OnlyOn.refl ..

private theorem onlyOn_walk (operation : Operation) (id : StackId) (count : Nat) (world : World) :
    OnlyOn reference (walk host operation id count (reference, world)).1 id := by
  induction count generalizing reference world with
  | zero => exact OnlyOn.refl reference id
  | succ count ih =>
    unfold walk
    split
    · exact OnlyOn.refl reference id
    · next command hnext =>
      dsimp only
      have hmove := onlyOn_move host reference operation id command world
      split_ifs
      · exact hmove.trans (ih _ _)
      · exact hmove

theorem exists_onlyOn_serve (request : Request) (world : World) :
    ∃ id, OnlyOn reference (reference.serve host request world).1 id := by
  have hchosen : ∀ operation filter,
      ∃ id, OnlyOn reference (reference.moveChosen host operation filter world).1 id := by
    intro operation filter
    unfold moveChosen
    split
    · exact ⟨reference.active, OnlyOn.refl ..⟩
    · next id command hchoose => exact ⟨id, onlyOn_move ..⟩
  cases request with
  | execute command => exact ⟨_, onlyOn_execute ..⟩
  | undo filter => exact hchosen .undo filter
  | redo filter => exact hchosen .redo filter
  | jump target =>
    have hwalk : ∀ wanted, OnlyOn reference (reference.walkTo host wanted world).1 reference.active := by
      intro wanted
      unfold walkTo
      dsimp only
      split_ifs
      · exact onlyOn_walk ..
      · exact onlyOn_walk ..
    refine ⟨reference.active, ?_⟩
    unfold serve jump
    dsimp only
    split
    · exact hwalk 0
    · split_ifs
      · exact OnlyOn.refl ..
      · exact hwalk _

theorem exists_onlyOn_carryOut (state : Reference × World) (directive : Directive) :
    directive = .clear ∨ (∃ limit, directive = .setLimit limit) ∨
      ∃ id, OnlyOn state.1 (carryOut host state directive).1 id := by
  cases directive with
  | clear => exact .inl rfl
  | setLimit limit => exact .inr (.inl ⟨limit, rfl⟩)
  | request request =>
    refine .inr (.inr ?_)
    rw [carryOut]
    split_ifs
    · exact exists_onlyOn_serve host state.1 request state.2
    · exact ⟨state.1.active, OnlyOn.refl ..⟩
  | activate stack => exact .inr (.inr ⟨state.1.active, ⟨fun _ _ => rfl, fun _ _ => rfl⟩⟩)
  | route scope stack =>
    refine .inr (.inr ⟨state.1.active, ?_⟩)
    rw [carryOut, route]
    split_ifs
    · exact ⟨fun _ _ => rfl, fun _ _ => rfl⟩
    · exact OnlyOn.refl ..

end Host

end Reference

end Retrace
