import Retrace.Proofs.Refinement

/-!
# The world mirrors the applied commands

The commands of one stack have effects on what a world shows, and their ways back take these effects back.
Whenever everything is settled, the world then shows the effects of the applied commands, in order, on a
base: what the world showed at the start or at the last clear, with the effects of what was evicted since.
-/

namespace Retrace

variable {World View : Type}

/-- What a world shows, and what the commands do to it: forward as far as they succeed, and back. -/
structure Effects (World View : Type) where
  view : World → View
  forward : Command → View → Option View
  backward : Command → View → View

namespace Effects

def replay (effects : Effects World View) (base : View) (commands : List Command) : Option View :=
  commands.foldlM (fun shown command => effects.forward command shown) base

section Replay

variable {effects : Effects World View} {base shown : View}

@[simp] theorem replay_nil : effects.replay base [] = some base := rfl

theorem replay_append (first second : List Command) :
    effects.replay base (first ++ second) =
      (effects.replay base first).bind fun between => effects.replay between second := by
  simp [replay, List.foldlM_append]

theorem replay_concat (commands : List Command) (command : Command) :
    effects.replay base (commands ++ [command]) = (effects.replay base commands).bind (effects.forward command) := by
  rw [replay_append]
  congr 1
  funext between
  simp [replay]

theorem replay_absorb {commands front kept : List Command} (hreplay : effects.replay base commands = some shown)
    (hcommands : front ++ kept = commands) :
    ∃ later, effects.replay base front = some later ∧ effects.replay later kept = some shown := by
  rw [← hcommands, replay_append] at hreplay
  exact Option.bind_eq_some_iff.mp hreplay

end Replay

end Effects

/-- A host whose actions have the given effects. An action that fails and a query change nothing that the world
shows, and any action may fail. -/
structure Host.Obeys (host : Host World) (effects : Effects World View) : Prop where
  backward_forward : ∀ command before after, command.isQuery = false →
    effects.forward command before = some after → effects.backward command after = before
  forward : ∀ step world, step.command.isQuery = false → step.operation.direction = .forward →
    (host.run step world).1 = true →
    effects.forward step.command (effects.view world) = some (effects.view (host.run step world).2)
  backward : ∀ step world, step.command.isQuery = false → step.operation.direction = .backward →
    (host.run step world).1 = true →
    effects.view (host.run step world).2 = effects.backward step.command (effects.view world)
  failed : ∀ step world, (host.run step world).1 = false →
    effects.view (host.run step world).2 = effects.view world
  query : ∀ step world, step.command.isQuery = true →
    effects.view (host.run step world).2 = effects.view world

/-! ### The base -/

def Directive.IsOn (engine : Engine) (stack : StackId) : Directive → Prop
  | .request (.execute command) => command.isQuery = true ∨ engine.stackFor command = stack
  | .request _ | .clear | .setLimit _ => True
  | .activate _ | .route _ _ => False

namespace Host

/-- The command that a directive adds to those applied: a mutating one whose action is run and succeeds. -/
def recorded (host : Host World) (state : Engine × World) : Directive → List Command
  | .request (.execute command) =>
    if (state.1.goalFor (.execute command)).isOk &&
        (host.run ⟨command, state.1.stackFor command, .execute⟩ state.2).1 && !command.isQuery then
      [command]
    else []
  | _ => []

/-- The commands that a directive evicts from the front of a stack while they are applied, by the limit and by what the
stack has before it: a recorded command forgets what could be redone and needs room itself, a new limit leaves less. -/
def evicted (host : Host World) (stack : StackId) (state : Engine × World) : Directive → List Command
  | .request request =>
    (host.recorded state (.request request)).flatMap fun command =>
      Stack.outworn state.1.history.limit (state.1.history.past stack ++ [command]) []
  | .setLimit limit => Stack.outworn limit (state.1.history.past stack) (state.1.history.future stack)
  | _ => []

end Host

namespace Effects

/-- The base after a directive: what the world shows after a clear, else the base with the effects of what was
evicted. -/
def rebase (effects : Effects World View) (host : Host World) (stack : StackId) (state : Engine × World)
    (base : View) : Directive → Option View
  | .clear => some (effects.view (host.carryOut state .clear).2)
  | directive => effects.replay base (host.evicted stack state directive)

/-- The base after directives. -/
def baseAfter (effects : Effects World View) (host : Host World) (stack : StackId) :
    Engine × World → View → List Directive → Option View
  | _, base, [] => some base
  | state, base, directive :: directives =>
    (effects.rebase host stack state base directive).bind fun later =>
      effects.baseAfter host stack (host.carryOut state directive) later directives

/-- The world shows the applied commands of the one stack that is used. -/
structure Mirrors (effects : Effects World View) (stackFor : Command → StackId) (stack : StackId) (base : View)
    (machine : Reference × World) : Prop where
  applied : effects.replay base (machine.1.past stack) = some (effects.view machine.2)
  mutating : ∀ command ∈ machine.1.past stack ++ machine.1.future stack, command.isQuery = false
  others : ∀ name, name ≠ stack → machine.1.past name = [] ∧ machine.1.future name = []
  active : machine.1.active = stack
  stackFor_eq : ∀ command, machine.1.stackFor command = stackFor command

variable {effects : Effects World View} {host : Host World} {stackFor : Command → StackId} {stack : StackId}
  {base : View} {reference : Reference} {world after : World} {command : Command}

namespace Mirrors

theorem mutating_of_next (hmirrors : effects.Mirrors stackFor stack base (reference, world))
    {direction : Direction} (hnext : reference.next direction stack = some command) : command.isQuery = false := by
  refine hmirrors.mutating command (List.mem_append.mpr ?_)
  cases direction with
  | forward => exact .inr (List.mem_of_mem_head? hnext)
  | backward => exact .inl (List.mem_of_getLast? hnext)

private theorem eq_of_next (hmirrors : effects.Mirrors stackFor stack base (reference, world)) {direction : Direction}
    {name : StackId} (hnext : reference.next direction name = some command) : name = stack := by
  by_contra hname
  obtain ⟨hpast, hfuture⟩ : reference.past name = [] ∧ reference.future name = [] := hmirrors.others name hname
  cases direction with
  | forward => simp [Reference.next, hfuture] at hnext
  | backward => simp [Reference.next, hpast] at hnext

theorem same (hmirrors : effects.Mirrors stackFor stack base (reference, world))
    (hview : effects.view after = effects.view world) : effects.Mirrors stackFor stack base (reference, after) :=
  { hmirrors with applied := by rw [hview]; exact hmirrors.applied }

theorem put (hmirrors : effects.Mirrors stackFor stack base (reference, world)) {later : View}
    {past future : List Command} (happlied : effects.replay later past = some (effects.view after))
    (hmutating : ∀ command ∈ past ++ future, command.isQuery = false) :
    effects.Mirrors stackFor stack later (reference.put stack past future, after) where
  applied := by
    rw [Reference.past_put_self]
    exact happlied
  mutating := by
    rw [Reference.past_put_self, Reference.future_put_self]
    exact hmutating
  others name hname := by
    rw [Reference.past_put_of_ne _ _ _ hname, Reference.future_put_of_ne _ _ _ hname]
    exact hmirrors.others name hname
  active := hmirrors.active
  stackFor_eq := hmirrors.stackFor_eq

/-! ### Undo, redo and jumps -/

private theorem pass_forward (hmirrors : effects.Mirrors stackFor stack base (reference, world))
    (hnext : reference.next .forward stack = some command)
    (heffect : effects.forward command (effects.view world) = some (effects.view after)) :
    effects.Mirrors stackFor stack base (reference.pass .forward stack, after) := by
  obtain ⟨rest, hfuture⟩ := List.head?_eq_some_iff.mp hnext
  have hmutating := hmirrors.mutating
  rw [Reference.pass_forward hnext]
  refine hmirrors.put ?_ ?_
  · rw [replay_concat, hmirrors.applied]
    exact heffect
  · rw [hfuture] at hmutating ⊢
    simpa using hmutating

private theorem pass_backward (hmirrors : effects.Mirrors stackFor stack base (reference, world))
    (hobeys : host.Obeys effects) (hnext : reference.next .backward stack = some command)
    (heffect : effects.view after = effects.backward command (effects.view world)) :
    effects.Mirrors stackFor stack base (reference.pass .backward stack, after) := by
  have hquery := hmirrors.mutating_of_next hnext
  obtain ⟨before, hpast⟩ := List.getLast?_eq_some_iff.mp hnext
  have hmutating := hmirrors.mutating
  have happlied := hmirrors.applied
  rw [hpast, replay_concat] at happlied
  -- The last effect led from `between` to what the world shows, so the way back leads there again.
  obtain ⟨between, hbefore, hlast⟩ := Option.bind_eq_some_iff.mp happlied
  rw [Reference.pass_backward hnext, hpast, List.dropLast_concat]
  refine hmirrors.put ?_ ?_
  · rw [hbefore, heffect, hobeys.backward_forward command between _ hquery hlast]
  · rw [hpast] at hmutating
    simpa using hmutating

theorem move (hmirrors : effects.Mirrors stackFor stack base (reference, world)) (hobeys : host.Obeys effects)
    (operation : Operation) (hnext : reference.next operation.direction stack = some command) :
    effects.Mirrors stackFor stack base (reference.move host operation stack command world).2 := by
  have hquery := hmirrors.mutating_of_next hnext
  unfold Reference.move
  dsimp only
  cases hrun : (host.run ⟨command, stack, operation⟩ world).1 with
  | false => exact hmirrors.same (hobeys.failed _ world hrun)
  | true =>
    rw [if_pos rfl]
    cases hdirection : operation.direction with
    | forward =>
      rw [hdirection] at hnext
      exact hmirrors.pass_forward hnext (hobeys.forward _ world hquery hdirection hrun)
    | backward =>
      rw [hdirection] at hnext
      exact hmirrors.pass_backward hobeys hnext (hobeys.backward _ world hquery hdirection hrun)

private theorem moveChosen (hmirrors : effects.Mirrors stackFor stack base (reference, world))
    (hobeys : host.Obeys effects) (operation : Operation) (filter : Option Scope) :
    effects.Mirrors stackFor stack base (reference.moveChosen host operation filter world) := by
  unfold Reference.moveChosen
  split
  · exact hmirrors
  · next name command hchoose =>
    have hnext : reference.next operation.direction name = some command := Reference.next_of_choose hchoose
    -- A filter looks at every stack, but only the one that is used has commands.
    obtain rfl := hmirrors.eq_of_next hnext
    exact hmirrors.move hobeys operation hnext

private theorem walk (hmirrors : effects.Mirrors stackFor stack base (reference, world)) (hobeys : host.Obeys effects)
    (operation : Operation) (count : Nat) :
    effects.Mirrors stackFor stack base (Reference.walk host operation stack count (reference, world)) := by
  induction count generalizing reference world with
  | zero => exact hmirrors
  | succ count ih =>
    unfold Reference.walk
    split
    · exact hmirrors
    · next command hnext =>
      have hmoved := hmirrors.move hobeys operation hnext
      dsimp only
      split_ifs
      · exact ih hmoved
      · exact hmoved

private theorem walkTo (hmirrors : effects.Mirrors stackFor stack base (reference, world))
    (hobeys : host.Obeys effects) (wanted : Nat) :
    effects.Mirrors stackFor stack base (reference.walkTo host wanted world) := by
  unfold Reference.walkTo
  dsimp only
  rw [hmirrors.active]
  split_ifs
  · exact hmirrors.walk hobeys .undo _
  · exact hmirrors.walk hobeys .redo _

private theorem jump (hmirrors : effects.Mirrors stackFor stack base (reference, world)) (hobeys : host.Obeys effects)
    (target : Option Nat) : effects.Mirrors stackFor stack base (reference.jump host target world) := by
  unfold Reference.jump
  cases target with
  | none => exact hmirrors.walkTo hobeys 0
  | some index =>
    dsimp only
    split_ifs
    · exact hmirrors
    · exact hmirrors.walkTo hobeys (index + 1)

/-! ### What evicts commands -/

private theorem record (hmirrors : effects.Mirrors stackFor stack base (reference, world))
    (hquery : command.isQuery = false)
    (heffect : effects.forward command (effects.view world) = some (effects.view after)) :
    ∃ later, effects.replay base (Stack.outworn reference.limit (reference.past stack ++ [command]) []) = some later ∧
      effects.Mirrors stackFor stack later (reference.record stack command, after) := by
  have hreplay : effects.replay base (reference.past stack ++ [command]) = some (effects.view after) := by
    rw [replay_concat, hmirrors.applied]
    exact heffect
  have hsplit := Stack.outworn_append_within reference.limit (reference.past stack ++ [command]) []
  rw [Follows.within_nil] at hsplit
  obtain ⟨later, hfront, hrest⟩ := replay_absorb hreplay hsplit
  refine ⟨later, hfront, hmirrors.put hrest ?_⟩
  intro other hmem
  rw [List.append_nil] at hmem
  rcases List.mem_append.mp ((Reference.keep_suffix ..).subset hmem) with hpast | hlast
  · exact hmirrors.mutating other (List.mem_append_left _ hpast)
  · rw [List.mem_singleton.mp hlast]
    exact hquery

private theorem execute (hmirrors : effects.Mirrors stackFor stack base (reference, world))
    (hobeys : host.Obeys effects) (hstack : command.isQuery = true ∨ stackFor command = stack) {recorded : List Command}
    (hrecorded : recorded =
      if (host.run ⟨command, reference.stackFor command, .execute⟩ world).1 && !command.isQuery then
        [command]
      else []) :
    ∃ later, effects.replay base (recorded.flatMap fun command =>
        Stack.outworn reference.limit (reference.past stack ++ [command]) []) = some later ∧
      effects.Mirrors stackFor stack later (reference.execute host command world) := by
  unfold Reference.execute
  dsimp only
  split_ifs at hrecorded ⊢ with hsucceeds
  · rw [Bool.and_eq_true, Bool.not_eq_true'] at hsucceeds
    obtain ⟨hrun, hquery⟩ := hsucceeds
    have hname : reference.stackFor command = stack := by
      rw [hmirrors.stackFor_eq]
      exact hstack.resolve_left (by simp [hquery])
    rw [hrecorded, List.flatMap_singleton, hname]
    rw [hname] at hrun
    exact hmirrors.record hquery (hobeys.forward _ world hquery rfl hrun)
  · have hview : effects.view (host.run ⟨command, reference.stackFor command, .execute⟩ world).2 =
        effects.view world := by
      cases hquery : command.isQuery with
      | true => exact hobeys.query _ world hquery
      | false =>
        refine hobeys.failed _ world ?_
        simpa [hquery] using hsucceeds
    refine ⟨base, ?_, hmirrors.same hview⟩
    rw [hrecorded, List.flatMap_nil, replay_nil]

private theorem setLimit (hmirrors : effects.Mirrors stackFor stack base (reference, world)) (limit : Nat) :
    ∃ later, effects.replay base (Stack.outworn limit (reference.past stack) (reference.future stack)) = some later ∧
      effects.Mirrors stackFor stack later (reference.setLimit limit, world) := by
  obtain ⟨later, hfront, hrest⟩ := replay_absorb hmirrors.applied
    (Stack.outworn_append_within limit (reference.past stack) (reference.future stack))
  have hleft := Stack.within_sublist limit (reference.past stack) (reference.future stack)
  refine ⟨later, hfront, hrest, ?_, ?_, hmirrors.active, hmirrors.stackFor_eq⟩
  · intro command hmem
    exact hmirrors.mutating command (hleft.subset hmem)
  · intro name hname
    obtain ⟨hpast, hfuture⟩ : reference.past name = [] ∧ reference.future name = [] := hmirrors.others name hname
    have hnone := Stack.within_sublist limit [] []
    rw [List.append_nil, List.sublist_nil, List.append_eq_nil_iff] at hnone
    show (Stack.within limit (reference.past name) (reference.future name)).1 = [] ∧
      (Stack.within limit (reference.past name) (reference.future name)).2 = []
    rw [hpast, hfuture]
    exact hnone

private theorem clear (hmirrors : effects.Mirrors stackFor stack base (reference, world)) :
    effects.Mirrors stackFor stack (effects.view world) (reference.clear, world) where
  applied := rfl
  mutating := by simp [Reference.clear]
  others _ _ := ⟨rfl, rfl⟩
  active := hmirrors.active
  stackFor_eq := hmirrors.stackFor_eq

/-! ### Directives -/

variable {engine : Engine} {state : Engine × World} {machine : Reference × World}

private theorem requested (hmirrors : effects.Mirrors stackFor stack base machine) (hobeys : host.Obeys effects)
    {request : Request} (hnew : ∀ command, request ≠ .execute command) :
    effects.Mirrors stackFor stack base (Reference.carryOut host machine (.request request)) := by
  rw [Reference.carryOut]
  split_ifs
  · cases request with
    | execute command => exact (hnew command rfl).elim
    | undo filter => exact hmirrors.moveChosen hobeys .undo filter
    | redo filter => exact hmirrors.moveChosen hobeys .redo filter
    | jump target => exact hmirrors.jump hobeys target
  · exact hmirrors

private theorem executed (hmirrors : effects.Mirrors engine.stackFor stack base machine) (hobeys : host.Obeys effects)
    (hrests : Rests state machine) {command : Command}
    (hon : command.isQuery = true ∨ engine.stackFor command = stack) :
    ∃ later, effects.rebase host stack state base (.request (.execute command)) = some later ∧
      effects.Mirrors engine.stackFor stack later
        (Reference.carryOut host machine (.request (.execute command))) := by
  show ∃ later, effects.replay base (host.evicted stack state (.request (.execute command))) = some later ∧ _
  unfold Host.evicted Host.recorded
  dsimp only
  rw [hrests.follows.past, hrests.follows.limit, hrests.world, hrests.follows.stackFor_eq, hrests.follows.isOk_goalFor,
    Reference.carryOut]
  cases machine.1.accepts (.execute command) with
  | true =>
    rw [Bool.true_and, if_pos rfl]
    exact hmirrors.execute hobeys hon rfl
  | false => exact ⟨base, rfl, hmirrors⟩

private theorem directive (hmirrors : effects.Mirrors engine.stackFor stack base machine)
    (hobeys : host.Obeys effects) (hrests : Rests state machine) {directive : Directive}
    (hon : directive.IsOn engine stack) :
    ∃ later, effects.rebase host stack state base directive = some later ∧
      effects.Mirrors engine.stackFor stack later (Reference.carryOut host machine directive) := by
  cases directive with
  | request request =>
    cases request with
    | execute command => exact hmirrors.executed hobeys hrests hon
    | undo filter => exact ⟨base, rfl, hmirrors.requested hobeys (by simp)⟩
    | redo filter => exact ⟨base, rfl, hmirrors.requested hobeys (by simp)⟩
    | jump target => exact ⟨base, rfl, hmirrors.requested hobeys (by simp)⟩
  | clear =>
    have hworld : (host.carryOut state .clear).2 = machine.2 := (hrests.directive host .clear).world
    refine ⟨effects.view machine.2, ?_, hmirrors.clear⟩
    rw [rebase, hworld]
  | setLimit limit =>
    show ∃ later, effects.replay base (host.evicted stack state (.setLimit limit)) = some later ∧ _
    unfold Host.evicted
    dsimp only
    rw [hrests.follows.past, hrests.follows.future]
    exact hmirrors.setLimit limit
  | activate name => exact hon.elim
  | route scope name => exact hon.elim

theorem directives (hmirrors : effects.Mirrors engine.stackFor stack base machine) (hobeys : host.Obeys effects)
    (hrests : Rests state machine) {directives : List Directive}
    (hon : ∀ directive ∈ directives, directive.IsOn engine stack) :
    ∃ later, effects.baseAfter host stack state base directives = some later ∧
      effects.Mirrors engine.stackFor stack later (Reference.carryOutAll host machine directives) := by
  induction directives generalizing state machine base with
  | nil => exact ⟨base, rfl, hmirrors⟩
  | cons directive directives ih =>
    obtain ⟨hfirst, hrest⟩ := List.forall_mem_cons.mp hon
    obtain ⟨between, hrebase, hnow⟩ := hmirrors.directive hobeys hrests hfirst
    obtain ⟨later, hbase, hdone⟩ := ih hnow (hrests.directive host directive) hrest
    refine ⟨later, ?_, hdone⟩
    rw [baseAfter, hrebase]
    exact hbase

variable (effects) in
theorem start (registry : Registry) (routes : List Route) (stack : StackId) (limit capacity : Nat) (world : World) :
    effects.Mirrors (Engine.start registry routes stack limit capacity).stackFor stack (effects.view world)
      (Reference.start registry routes stack limit, world) where
  applied := rfl
  mutating := by simp [Reference.start]
  others _ _ := ⟨rfl, rfl⟩
  active := rfl
  stackFor_eq command :=
    ((rests_start registry routes stack limit capacity world).follows.stackFor_eq command).symm

end Mirrors

/-- **The world mirrors the applied commands.** For all effects and every host that obeys them, and for every
sequence of directives that concern one stack, everything is settled after each, and then the world shows
the effects of the applied commands in order on the base. -/
theorem view_eq_replay_applied (effects : Effects World View) {host : Host World} (hobeys : host.Obeys effects)
    (registry : Registry) (routes : List Route) (stack : StackId) (limit capacity : Nat) (world : World)
    (directives : List Directive)
    (hon : ∀ directive ∈ directives, directive.IsOn (Engine.start registry routes stack limit capacity) stack) :
    let first := (Engine.start registry routes stack limit capacity, world)
    let last := host.carryOutAll first directives
    last.1.isSettled = true ∧
      ∃ base, effects.baseAfter host stack first (effects.view world) directives = some base ∧
        effects.replay base (last.1.history.past stack) = some (effects.view last.2) := by
  intro first last
  have hstart := rests_start registry routes stack limit capacity world
  have hrests : Rests last _ := hstart.directives directives
  obtain ⟨base, hbase, hmirrors⟩ :=
    (Mirrors.start effects registry routes stack limit capacity world).directives hobeys hstart hon
  refine ⟨hrests.settled, base, hbase, ?_⟩
  rw [hrests.follows.past, hrests.world]
  exact hmirrors.applied

/-! ### A sample host -/

/-- The world is a list of numbers. An action puts the number of its command in front unless it is there
already, and the way back takes it out. -/
def sampleEffects : Effects (List CommandId) (List CommandId) where
  view := id
  forward command shown := if command.id ∈ shown then none else some (command.id :: shown)
  backward command shown := shown.erase command.id

def sampleHost : Host (List CommandId) where
  perform step world :=
    if step.command.isQuery then ⟨world, [], .returned (.ok .null)⟩
    else
      match step.operation.direction with
      | .forward =>
        if step.command.id ∈ world then ⟨world, [], .brokeOff none⟩
        else ⟨step.command.id :: world, [], .returned (.ok .null)⟩
      | .backward => ⟨world.erase step.command.id, [], .returned (.ok .null)⟩

section Run

variable {step : Step}

private theorem run_sampleHost_query (hquery : step.command.isQuery = true) (world : List CommandId) :
    sampleHost.run step world = (true, world) := by
  simp [Host.run, sampleHost, hquery, Outcome.settle, Outcome.succeeded]

private theorem run_sampleHost_forward (hquery : step.command.isQuery = false)
    (hdirection : step.operation.direction = .forward) (world : List CommandId) :
    sampleHost.run step world =
      if step.command.id ∈ world then (false, world) else (true, step.command.id :: world) := by
  unfold Host.run sampleHost
  by_cases hthere : step.command.id ∈ world <;>
    simp [hquery, hdirection, hthere, Outcome.settle, Outcome.succeeded]

private theorem run_sampleHost_backward (hquery : step.command.isQuery = false)
    (hdirection : step.operation.direction = .backward) (world : List CommandId) :
    sampleHost.run step world = (true, world.erase step.command.id) := by
  simp [Host.run, sampleHost, hquery, hdirection, Outcome.settle, Outcome.succeeded]

end Run

private theorem sampleHost_obeys : sampleHost.Obeys sampleEffects where
  backward_forward command before after _ hforward := by
    obtain ⟨-, rfl⟩ : command.id ∉ before ∧ command.id :: before = after := by
      simpa [sampleEffects] using hforward
    exact List.erase_cons_head ..
  forward step world hquery hdirection hrun := by
    rw [run_sampleHost_forward hquery hdirection] at hrun ⊢
    split_ifs at hrun ⊢ with hthere
    exact if_neg hthere
  backward step world hquery hdirection _ := by
    rw [run_sampleHost_backward hquery hdirection]
    rfl
  failed step world hrun := by
    cases hquery : step.command.isQuery with
    | true => simp [run_sampleHost_query hquery] at hrun
    | false =>
      cases hdirection : step.operation.direction with
      | forward =>
        rw [run_sampleHost_forward hquery hdirection] at hrun ⊢
        split_ifs at hrun ⊢
        rfl
      | backward => simp [run_sampleHost_backward hquery hdirection] at hrun
  query step world hquery := by rw [run_sampleHost_query hquery]

/-- Three commands under a limit of two, of which the last is undone; the second is then tried again. -/
def sampleDirectives : List Directive :=
  [.setLimit 2, .request (.execute (Engine.sampleCommand 0)), .request (.execute (Engine.sampleCommand 1)),
    .request (.execute (Engine.sampleCommand 2)), .request (.undo none),
    .request (.execute (Engine.sampleCommand 1))]

/-- The first command is evicted and the attempt fails. -/
theorem view_eq_replay_applied_sample :
    ∃ base, sampleEffects.baseAfter sampleHost Engine.sampleStack (Engine.sampleEngine, []) [] sampleDirectives =
        some base ∧
      sampleEffects.replay base
          ((sampleHost.carryOutAll (Engine.sampleEngine, []) sampleDirectives).1.history.past Engine.sampleStack) =
        some (sampleHost.carryOutAll (Engine.sampleEngine, []) sampleDirectives).2 := by
  have hon : ∀ directive ∈ sampleDirectives, directive.IsOn Engine.sampleEngine Engine.sampleStack := by
    simp [sampleDirectives, Directive.IsOn, Engine.stackFor, Engine.routed?, Engine.sampleCommand,
      Engine.sampleEngine, Engine.start, History.start]
  exact (view_eq_replay_applied sampleEffects sampleHost_obeys Registry.empty [] Engine.sampleStack 0 16 []
    sampleDirectives hon).2

end Effects

end Retrace
