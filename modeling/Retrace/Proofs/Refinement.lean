import Retrace.Proofs.Following

/-!
# The engine refines the reference machine

When every request is settled before the next, the stacks of the engine are those of the reference
machine, whatever the actions do and however they end.
-/

namespace Retrace

variable {World : Type} {host : Host World} {engine : Engine} {reference : Reference} {world : World}

namespace Directive

def move : Directive → Move
  | .request call => .submit call
  | .clear => .clear
  | .setLimit limit => .setLimit limit
  | .activate stack => .activate stack
  | .route scope stack => .route scope stack

end Directive

namespace Host

/-- Gives a directive to an engine and lets everything settle. -/
def carryOut (host : Host World) (state : Engine × World) (directive : Directive) : Engine × World :=
  host.settle (state.1.apply directive.move) state.2

theorem ShownBy.carryOut_eq {View : Type} {view : World → View} {shown : Host View} (hshown : ShownBy view host shown)
    (directive : Directive) (engine : Engine) (world : World) :
    shown.carryOut (engine, view world) directive =
      ((host.carryOut (engine, world) directive).1, view (host.carryOut (engine, world) directive).2) :=
  hshown.turnUntil_eq ..

def carryOutAll (host : Host World) (state : Engine × World) (directives : List Directive) : Engine × World :=
  directives.foldl host.carryOut state

end Host

/-- A request that is taken is the only job, and the worker takes it with its next step. -/
structure Taken (engine : Engine) (reference : Reference) (request : Request) (job : Job) : Prop where
  queue : (engine.submit request).2.queue = [job]
  idle : (engine.submit request).2.phase = .idle
  history : (engine.submit request).2.history = engine.history
  phase : (engine.submit request).2.advance.phase = .choosing job none
  kept : (engine.submit request).2.advance.history = engine.history
  current : (engine.submit request).2.advance.generation = job.generation
  goal : (engine.submit request).2.advance.goalFor request = .ok job.goal
  follows : Follows (engine.submit request).2.advance reference

theorem Follows.taken (hfollows : Follows engine reference) (hidle : engine.phase = .idle) {request : Request}
    {goal : Goal} (hgoal : engine.goalFor request = .ok goal) :
    Taken engine reference request ⟨engine.nextTicket, engine.generation, goal⟩ := by
  have hsame : ({ engine with nextTicket := engine.nextTicket + 1 } : Engine).goalFor request = .ok goal := by
    cases request <;> exact hgoal
  have hsubmit : (engine.submit request).2 =
      { engine with
        nextTicket := engine.nextTicket + 1
        waiting := engine.waiting ++ Engine.waitingEntry engine.nextTicket goal
        running := engine.running + 1
        queue := [⟨engine.nextTicket, engine.generation, goal⟩] } := by
    unfold Engine.submit
    rw [if_pos hfollows.accepting]
    dsimp only
    rw [hsame]
    unfold Engine.schedule
    dsimp only
    rw [if_pos hfollows.listening, hfollows.queue]
    rfl
  have hadvance : (engine.submit request).2.advance =
      { engine with
        nextTicket := engine.nextTicket + 1
        waiting := engine.waiting ++ Engine.waitingEntry engine.nextTicket goal
        running := engine.running + 1
        queue := []
        phase := .choosing ⟨engine.nextTicket, engine.generation, goal⟩ none } := by
    rw [hsubmit]
    simp only [Engine.advance, hidle, Engine.take, if_true]
  constructor
  case queue => rw [hsubmit]
  case idle => rw [hsubmit]; exact hidle
  case history => rw [hsubmit]
  case phase => rw [hadvance]
  case kept => rw [hadvance]
  case current => rw [hadvance]
  case goal => rw [hadvance]; cases request <;> exact hgoal
  case follows =>
    rw [hadvance]
    exact hfollows.same rfl ⟨rfl, rfl, rfl, hfollows.queue.symm, rfl, rfl⟩

/-! ### Directives -/

structure Rests (state : Engine × World) (machine : Reference × World) : Prop where
  idle : state.1.phase = .idle
  follows : Follows state.1 machine.1
  world : state.2 = machine.2

variable {state : Engine × World} {machine : Reference × World}

theorem Rests.settled (hrests : Rests state machine) : state.1.isSettled = true :=
  Host.isSettled_of_idle hrests.idle hrests.follows.queue

theorem Rests.at_once {reference : Reference} {directive : Directive}
    (hidle : (state.1.apply directive.move).phase = .idle)
    (hfollows : Follows (state.1.apply directive.move) reference) (hworld : state.2 = machine.2) :
    Rests (host.carryOut state directive) (reference, machine.2) := by
  have hsettles : host.Settles 0 (state.1.apply directive.move, state.2) (state.1.apply directive.move, state.2) :=
    .done (Host.isSettled_of_idle hidle hfollows.queue)
  unfold Host.carryOut Host.settle
  rw [hsettles.turnUntil_eq (Nat.zero_le _)]
  exact ⟨hidle, hfollows, hworld⟩

private theorem Rests.request (hrests : Rests state machine) (request : Request) :
    Rests (host.carryOut state (.request request)) (Reference.carryOut host machine (.request request)) := by
  have hfollows := hrests.follows
  rw [Reference.carryOut]
  split_ifs with haccepts
  · obtain ⟨goal, hgoal⟩ := hfollows.goalFor_ok haccepts
    have htaken := hfollows.taken hrests.idle hgoal
    have hserved := arrives_serve host htaken.goal htaken.follows htaken.phase htaken.current machine.2
    rw [htaken.kept] at hserved
    have hbusy : (state.1.submit request).2.isSettled = false := by simp [Engine.isSettled, htaken.queue]
    have hturn : host.turn (state.1.submit request).2 machine.2 =
        ((state.1.submit request).2.advance, machine.2) :=
      Host.turn_of_no_run (by rw [htaken.idle]; rfl) machine.2
    rw [← hturn] at hserved
    -- Taking the job is one more turn, and the bound leaves room for it.
    obtain ⟨number, last, hnumber, hsettles, hdone, hlast, hworld⟩ := hserved.after_turn hbusy
    have hbound := Host.le_turnBound (by rw [htaken.history]; exact hfollows.steady.sound) htaken.queue
      machine.1.active
    rw [htaken.history] at hbound
    have hsettled : host.carryOut state (.request request) = last := by
      unfold Host.carryOut Host.settle
      rw [hrests.world]
      have hle : number ≤ Host.turnBound (state.1.submit request).2 := by omega
      exact hsettles.turnUntil_eq hle
    rw [hsettled]
    exact ⟨hdone, hlast, hworld⟩
  · obtain ⟨error, herror⟩ := hfollows.goalFor_error (by simpa using haccepts)
    have hsubmit : (state.1.submit request).2 = { state.1 with nextTicket := state.1.nextTicket + 1 } := by
      have hsame : ({ state.1 with nextTicket := state.1.nextTicket + 1 } : Engine).goalFor request =
          .error error := by
        cases request <;> exact herror
      unfold Engine.submit
      rw [if_pos hfollows.accepting]
      dsimp only
      rw [hsame]
    have hafter : Follows (state.1.submit request).2 machine.1 := by
      rw [hsubmit]
      exact hfollows.same rfl ⟨rfl, rfl, rfl, rfl, rfl, rfl⟩
    have hidle : (state.1.submit request).2.phase = .idle := by
      rw [hsubmit]
      exact hrests.idle
    exact Rests.at_once hidle hafter hrests.world

private theorem Rests.clear (hrests : Rests state machine) :
    Rests (host.carryOut state .clear) (machine.1.clear, machine.2) := by
  have hfollows := hrests.follows
  exact Rests.at_once hrests.idle
    { hfollows with
      steady := hfollows.steady.change (hfollows.steady.change_apply .clear)
      past := History.past_clear _
      future := History.future_clear _
      recency := hfollows.recency.clear } hrests.world

private theorem Rests.setLimit (hrests : Rests state machine) (limit : Nat) :
    Rests (host.carryOut state (.setLimit limit)) (machine.1.setLimit limit, machine.2) := by
  have hfollows := hrests.follows
  have hlists := hfollows.steady.sound.lists_setLimit limit
  have hsame : ∀ id, Stack.within limit (state.1.history.past id) (state.1.history.future id) =
      Stack.within limit (machine.1.past id) (machine.1.future id) := by
    intro id
    rw [hfollows.past, hfollows.future]
  exact Rests.at_once hrests.idle
    { hfollows with
      steady := hfollows.steady.change (hfollows.steady.change_apply (.setLimit limit))
      limit := rfl
      past := fun id => (History.past_of_lists (hlists id)).trans (congrArg Prod.fst (hsame id))
      future := fun id => (History.future_of_lists (hlists id)).trans (congrArg Prod.snd (hsame id))
      recency := hfollows.recency.setLimit hfollows.steady.sound limit } hrests.world

private theorem Rests.activate (hrests : Rests state machine) (stack : Option StackId) :
    Rests (host.carryOut state (.activate stack)) (machine.1.activate stack, machine.2) := by
  have hfollows := hrests.follows
  obtain ⟨-, hdefault, hlimit, -⟩ :=
    History.settings_withStack state.1.history (stack.getD state.1.history.defaultStack)
  exact Rests.at_once hrests.idle
    { hfollows with
      steady := hfollows.steady.change (hfollows.steady.change_apply (.activate stack))
      active := congrArg stack.getD hfollows.defaultStack
      defaultStack := hdefault.trans hfollows.defaultStack
      limit := hlimit.trans hfollows.limit
      past := fun id => (History.past_activate ..).trans (hfollows.past id)
      future := fun id => (History.future_activate ..).trans (hfollows.future id)
      recency := hfollows.recency.activate stack } hrests.world

private theorem Rests.route (hrests : Rests state machine) (scope : Scope) (stack : StackId) :
    Rests (host.carryOut state (.route scope stack)) (machine.1.route scope stack, machine.2) := by
  have hfollows := hrests.follows
  refine Rests.at_once ((Engine.route_frame ..).2.trans hrests.idle) ?_ hrests.world
  show Follows (state.1.route scope stack).2 _
  have hvalid : state.1.registry.validate scope = machine.1.registry.validate scope := by
    rw [hfollows.registry]
  unfold Engine.route Reference.route
  rw [hvalid]
  cases machine.1.registry.validate scope with
  | error error => exact hfollows
  | ok =>
    dsimp only
    cases hwide : scope.isAll || scope.isEmpty with
    | true => simpa using hfollows
    | false =>
      have hroutes : (state.1.routes.filter fun route => route.scope != scope) ++ [⟨scope, stack⟩] =
          machine.1.routes.filter (·.scope ≠ scope) ++ [⟨scope, stack⟩] := by
        rw [hfollows.routes]
        congr 2
        funext route
        by_cases hscope : route.scope = scope <;> simp [hscope]
      rw [if_neg (by simp), if_pos (by rfl)]
      exact { hfollows with
        steady := ⟨hfollows.steady.sound, hfollows.steady.mutating⟩
        routes := hroutes }

variable (host) in
theorem Rests.directive (hrests : Rests state machine) (directive : Directive) :
    Rests (host.carryOut state directive) (Reference.carryOut host machine directive) := by
  cases directive with
  | request request => exact hrests.request request
  | clear => exact hrests.clear
  | setLimit limit => exact hrests.setLimit limit
  | activate stack => exact hrests.activate stack
  | route scope stack => exact hrests.route scope stack

theorem Rests.directives (hrests : Rests state machine) (directives : List Directive) :
    Rests (host.carryOutAll state directives) (Reference.carryOutAll host machine directives) := by
  induction directives generalizing state machine with
  | nil => exact hrests
  | cons directive directives ih => exact ih (hrests.directive host directive)

theorem rests_start (registry : Registry) (routes : List Route) (defaultStack : StackId) (limit capacity : Nat)
    (world : World) :
    Rests (Engine.start registry routes defaultStack limit capacity, world)
      (Reference.start registry routes defaultStack limit, world) where
  idle := rfl
  world := rfl
  follows :=
    { steady := Engine.Fresh.steady ⟨_, _, _, _, _, rfl⟩
      accepting := rfl, listening := rfl, queue := rfl, registry := rfl, routes := rfl, active := rfl
      defaultStack := rfl, limit := rfl
      past := History.past_start defaultStack limit
      future := History.future_start defaultStack limit
      recency := History.Recency.start defaultStack limit }

/-- **The engine refines the reference machine.** For every sequence of directives, whatever the actions do
and however they end, everything is settled after each, the world is the one the machine leads to, and
each stack holds behind and ahead of its cursor the two lists of the machine. And apart from clearing and
changes of the limit no directive changes more than one stack. -/
theorem carryOutAll_refines (host : Host World) (registry : Registry) (routes : List Route)
    (defaultStack : StackId) (limit capacity : Nat) (world : World) (directives : List Directive) :
    let state := host.carryOutAll (Engine.start registry routes defaultStack limit capacity, world) directives
    let machine := Reference.carryOutAll host (Reference.start registry routes defaultStack limit, world) directives
    state.1.isSettled = true ∧ state.2 = machine.2 ∧ state.1.history.active = machine.1.active ∧
      (∀ id, ((state.1.history.stack? id).getD (Stack.empty id)).Holds (machine.1.past id) (machine.1.future id)) ∧
      ∀ directive, directive = .clear ∨ (∃ limit, directive = .setLimit limit) ∨ ∃ id, ∀ name, name ≠ id →
        (host.carryOut state directive).1.history.past name = state.1.history.past name ∧
          (host.carryOut state directive).1.history.future name = state.1.history.future name := by
  intro state machine
  have hrests : Rests state machine :=
    (rests_start registry routes defaultStack limit capacity world).directives directives
  refine ⟨hrests.settled, hrests.world, hrests.follows.active, ?_, ?_⟩
  · intro id
    rw [← hrests.follows.past, ← hrests.follows.future]
    exact hrests.follows.steady.sound.getD_holds id
  · intro directive
    have hafter := (hrests.directive host directive).follows
    rcases Reference.exists_onlyOn_carryOut host machine directive with hclear | hlimit | ⟨id, honly⟩
    · exact .inl hclear
    · exact .inr (.inl hlimit)
    · refine .inr (.inr ⟨id, fun name hname => ?_⟩)
      rw [hafter.past, hafter.future, hrests.follows.past, hrests.follows.future]
      exact ⟨honly.past name hname, honly.future name hname⟩

end Retrace
