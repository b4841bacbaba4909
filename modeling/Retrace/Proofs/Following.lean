import Retrace.Proofs.Recency
import Retrace.Proofs.Reference
import Retrace.Proofs.Settling

/-!
# Engines that follow the reference machine

An engine follows the reference machine when its stacks and settings are those of the machine. Each job
that the worker takes then leads both to the same lists and the same world.
-/

namespace Retrace

variable {World : Type} {host : Host World} {engine after : Engine} {reference : Reference} {world : World}
  {id : StackId} {command : Command}

/-- The stacks and the settings of an engine are those of the machine, and nothing waits. -/
structure Follows (engine : Engine) (reference : Reference) : Prop where
  steady : engine.Steady
  accepting : engine.isAccepting = true
  listening : engine.isListening = true
  queue : engine.queue = []
  registry : engine.registry = reference.registry
  routes : engine.routes = reference.routes
  active : engine.history.active = reference.active
  defaultStack : engine.history.defaultStack = reference.defaultStack
  limit : engine.history.limit = reference.limit
  past : ∀ id, engine.history.past id = reference.past id
  future : ∀ id, engine.history.future id = reference.future id
  recency : engine.history.Recency reference.recent

namespace Follows

theorem next_eq (hfollows : Follows engine reference) (direction : Direction) (id : StackId) :
    engine.history.next direction id = reference.next direction id := by
  cases direction with
  | forward => rw [History.next, Reference.next, hfollows.future]
  | backward => rw [History.next, Reference.next, hfollows.past]

private theorem choose_eq (hfollows : Follows engine reference) (direction : Direction) (filter : Option Scope) :
    (engine.history.target direction filter).map (fun candidate => (candidate.stack, candidate.command)) =
      reference.choose direction filter := by
  cases filter with
  | none =>
    rw [hfollows.steady.sound.target_none, hfollows.next_eq, hfollows.active]
    rfl
  | some filter =>
    rw [hfollows.steady.sound.target_filter hfollows.recency, Reference.choose]
    congr 1
    funext id
    rw [History.offer, hfollows.next_eq]

/-! ### What keeps the two together -/

theorem same (hfollows : Follows engine reference) (hhistory : after.history = engine.history)
    (hframed : engine.Framed after) : Follows after reference where
  steady := ⟨by rw [hhistory]; exact hfollows.steady.sound,
    by unfold Engine.OnlyMutating; rw [hhistory]; exact hfollows.steady.mutating⟩
  accepting := hframed.accepting.trans hfollows.accepting
  listening := hframed.listening.trans hfollows.listening
  queue := hframed.queue.trans hfollows.queue
  registry := hframed.registry.trans hfollows.registry
  routes := hframed.routes.trans hfollows.routes
  active := by rw [hhistory]; exact hfollows.active
  defaultStack := by rw [hhistory]; exact hfollows.defaultStack
  limit := by rw [hhistory]; exact hfollows.limit
  past := by rw [hhistory]; exact hfollows.past
  future := by rw [hhistory]; exact hfollows.future
  recency := by rw [hhistory]; exact hfollows.recency

theorem put (hfollows : Follows engine reference) (hsteady : after.Steady) (hframed : engine.Framed after)
    (hsettings : after.history.active = engine.history.active ∧
      after.history.defaultStack = engine.history.defaultStack ∧
      after.history.limit = engine.history.limit ∧ after.history.sequence = engine.history.sequence + 1)
    (htouched : ∀ name, after.history.touched name =
      if name = id then engine.history.sequence + 1 else engine.history.touched name)
    {past future : List Command}
    (hlists : ∀ name, (after.history.past name, after.history.future name) =
      if name = id then (past, future) else (engine.history.past name, engine.history.future name)) :
    Follows after (reference.put id past future) := by
  have hlists_of_ne : ∀ name, name ≠ id → after.history.past name = engine.history.past name ∧
      after.history.future name = engine.history.future name := by
    intro name hname
    have hlist := hlists name
    rw [if_neg hname] at hlist
    exact ⟨History.past_of_lists hlist, History.future_of_lists hlist⟩
  have hlist := hlists id
  rw [if_pos rfl] at hlist
  obtain ⟨hactive, hdefault, hlimit, hsequence⟩ := hsettings
  constructor
  case steady => exact hsteady
  case accepting => exact hframed.accepting.trans hfollows.accepting
  case listening => exact hframed.listening.trans hfollows.listening
  case queue => exact hframed.queue.trans hfollows.queue
  case registry => exact hframed.registry.trans hfollows.registry
  case routes => exact hframed.routes.trans hfollows.routes
  case active => exact hactive.trans hfollows.active
  case defaultStack => exact hdefault.trans hfollows.defaultStack
  case limit => exact hlimit.trans hfollows.limit
  case past =>
    intro name
    by_cases hname : name = id
    · rw [hname, History.past_of_lists hlist, Reference.past_put_self]
    · rw [(hlists_of_ne name hname).1, hfollows.past, Reference.past_put_of_ne _ _ _ hname]
  case future =>
    intro name
    by_cases hname : name = id
    · rw [hname, History.future_of_lists hlist, Reference.future_put_self]
    · rw [(hlists_of_ne name hname).2, hfollows.future, Reference.future_put_of_ne _ _ _ hname]
  case recency =>
    refine hfollows.recency.touch id htouched hsequence fun name hname => ?_
    rw [History.line, History.line, (hlists_of_ne name hname).1, (hlists_of_ne name hname).2]

theorem within_nil (limit : Nat) (commands : List Command) :
    Stack.within limit commands [] = (Reference.keep limit commands, []) := by
  unfold Stack.within Reference.keep
  simp only [List.length_nil, Nat.add_zero, Nat.zero_le, if_true, Nat.sub_zero]
  by_cases hnone : limit = 0
  · simp [hnone]
  · rw [if_neg hnone]
    split_ifs with hfits
    · have hroom : commands.length ≤ limit := by simpa [hnone] using hfits
      rw [Stack.newest, Nat.sub_eq_zero_of_le hroom, List.drop_zero]
    · rfl

private theorem recorded (hfollows : Follows engine reference) (hsteady : after.Steady)
    (hframed : engine.Framed after) (hhistory : after.history = engine.history.record id command) :
    Follows after (reference.record id command) := by
  have hlists := hfollows.steady.sound.lists_record id command
  simp only [within_nil] at hlists
  rw [Reference.record, ← hfollows.past, ← hfollows.limit]
  refine hfollows.put hsteady hframed ?_ ?_ ?_
  · rw [hhistory]
    exact History.settings_record engine.history id command
  · rw [hhistory]
    exact History.touched_record engine.history id command
  · rw [hhistory]
    exact hlists

private theorem passed (hfollows : Follows engine reference) (hsteady : after.Steady) (hframed : engine.Framed after)
    {direction : Direction} (hnext : engine.history.next direction id = some command)
    (hhistory : after.history = (engine.history.moveCursor id command.id direction).1) :
    Follows after (reference.pass direction id) := by
  have hsound := hfollows.steady.sound
  have hfound := (hsound.isNextTo_iff id command.id direction).mpr ⟨command, hnext, rfl⟩
  have hsettings := History.settings_moveCursor engine.history id command.id direction
  have htouched := History.touched_moveCursor hfound
  rw [← hhistory] at hsettings htouched
  rw [hfollows.next_eq] at hnext
  cases direction with
  | forward =>
    obtain ⟨rest, hfuture⟩ := List.head?_eq_some_iff.mp hnext
    have hlists := (hsound.lists_moveCursor_forward ((hfollows.future id).trans hfuture)).2
    rw [← hhistory] at hlists
    rw [Reference.pass_forward hnext, hfuture, List.tail_cons, ← hfollows.past]
    exact hfollows.put hsteady hframed hsettings htouched hlists
  | backward =>
    obtain ⟨before, hpast⟩ := List.getLast?_eq_some_iff.mp hnext
    have hlists := (hsound.lists_moveCursor_backward ((hfollows.past id).trans hpast)).2
    rw [← hhistory] at hlists
    rw [Reference.pass_backward hnext, hpast, List.dropLast_concat, ← hfollows.future]
    exact hfollows.put hsteady hframed hsettings htouched hlists

end Follows

/-! ### The turn in which an action is run -/

variable {job : Job} {run : Run} {walk : Walk}

variable (host) in
theorem Follows.executed (hfollows : Follows engine reference) (hphase : engine.phase = .acting run)
    (hcurrent : engine.generation = run.job.generation) (hwalk : run.walk = none)
    (hstep : run.step = ⟨command, reference.stackFor command, .execute⟩) (world : World) :
    Follows (host.turn engine world).1 (reference.execute host command world).1 ∧
      (host.turn engine world).2 = (reference.execute host command world).2 ∧
      (host.turn engine world).1.phase = .idle := by
  obtain ⟨houtside, hframed, hhistory, hending⟩ := Host.performed host hphase world
  have hsteady := Host.steady_turn host hfollows.steady world
  rw [hwalk] at hending
  rw [hstep] at houtside hhistory hending
  unfold Reference.execute Host.run
  dsimp only at hhistory hending ⊢
  refine ⟨?_, houtside, by simpa using hending⟩
  split_ifs at hhistory with hsucceeded
  · rw [Engine.takeEffect_of_execute hcurrent (by rw [hstep]), hstep] at hhistory
    cases hquery : command.isQuery with
    | true =>
      rw [hquery, if_pos rfl] at hhistory
      rw [if_neg (by simp)]
      exact hfollows.same hhistory hframed
    | false =>
      rw [hquery, if_neg (by simp)] at hhistory
      rw [hsucceeded, if_pos (by decide)]
      exact hfollows.recorded hsteady hframed hhistory
  · rw [if_neg (by simp [hsucceeded])]
    exact hfollows.same hhistory hframed

variable (host) in
theorem Follows.moved (hfollows : Follows engine reference) (hphase : engine.phase = .acting run)
    (hcurrent : engine.generation = run.job.generation) {operation : Operation} (hmove : operation ≠ .execute)
    (hstep : run.step = ⟨command, id, operation⟩)
    (hnext : engine.history.next operation.direction id = some command) (world : World) :
    Follows (host.turn engine world).1 (reference.move host operation id command world).2.1 ∧
      (host.turn engine world).2 = (reference.move host operation id command world).2.2 ∧
      (host.turn engine world).1.phase =
        if (reference.move host operation id command world).1 then
          (match run.walk with
            | some walk => .resting run.job walk
            | none => .idle)
        else .idle := by
  obtain ⟨houtside, hframed, hhistory, hending⟩ := Host.performed host hphase world
  have hsteady := Host.steady_turn host hfollows.steady world
  rw [hstep] at houtside hhistory hending
  unfold Reference.move Host.run
  dsimp only at hhistory hending ⊢
  refine ⟨?_, houtside, hending⟩
  split_ifs at hhistory with hsucceeded
  · rw [Engine.takeEffect_of_move hcurrent (by rw [hstep]; exact hmove), hstep] at hhistory
    rw [hsucceeded, if_pos rfl]
    exact hfollows.passed hsteady hframed hnext hhistory
  · rw [if_neg hsucceeded]
    exact hfollows.same hhistory hframed

/-! ### Jobs -/

/-- Within so many turns everything is settled, and the engine and its world are as the machine has it. -/
def Arrives (host : Host World) (bound : Nat) (state : Engine × World) (result : Reference × World) : Prop :=
  ∃ number last, number ≤ bound ∧ host.Settles number state last ∧ last.1.phase = .idle ∧
    Follows last.1 result.1 ∧ last.2 = result.2

theorem arrives_now {state : Engine × World} {result : Reference × World} (hidle : state.1.phase = .idle)
    (hfollows : Follows state.1 result.1) (hworld : state.2 = result.2) : Arrives host 0 state result :=
  ⟨0, state, Nat.le_refl 0, .done (Host.isSettled_of_idle hidle hfollows.queue), hidle, hfollows, hworld⟩

theorem Arrives.after_turn {bound : Nat} {result : Reference × World} (hbusy : engine.isSettled = false)
    (harrives : Arrives host bound (host.turn engine world) result) :
    Arrives host (bound + 1) (engine, world) result := by
  obtain ⟨number, last, hnumber, hsettles, hrest⟩ := harrives
  exact ⟨number + 1, last, Nat.succ_le_succ hnumber, .turn hbusy hsettles, hrest⟩

theorem Arrives.mono {bound more : Nat} {state : Engine × World} {result : Reference × World}
    (harrives : Arrives host bound state result) (hle : bound ≤ more) : Arrives host more state result := by
  obtain ⟨number, last, hnumber, hrest⟩ := harrives
  exact ⟨number, last, hnumber.trans hle, hrest⟩

theorem Arrives.after_step {bound : Nat} {result : Reference × World} (hbusy : engine.phase ≠ .idle)
    (hrun : engine.phase.run? = none) (harrives : Arrives host bound (engine.advance, world) result) :
    Arrives host (bound + 1) (engine, world) result := by
  refine Arrives.after_turn (Host.isSettled_of_not_idle hbusy) ?_
  rw [Host.turn_of_no_run hrun]
  exact harrives

theorem Arrives.after_choice {bound : Nat} {result : Reference × World} {walk : Option Walk}
    (hphase : engine.phase = .choosing job walk) (harrives : Arrives host bound (engine.advance, world) result) :
    Arrives host (bound + 1) (engine, world) result :=
  harrives.after_step (by simp [hphase]) (by rw [hphase]; rfl)

theorem Arrives.after_action {bound : Nat} {result : Reference × World} (hphase : engine.phase = .acting run)
    (harrives : Arrives host bound (host.turn engine world) result) :
    Arrives host (bound + 1) (engine, world) result :=
  harrives.after_turn (Host.isSettled_of_not_idle (by simp [hphase]))

theorem Follows.stepped {phase : Phase} (hfollows : Follows engine reference) (hstepped : engine.Stepped phase) :
    Follows engine.advance reference :=
  hfollows.same hstepped.history hstepped.framed

private theorem arrives_execute (hfollows : Follows engine reference) (hphase : engine.phase = .choosing job none)
    (hcurrent : engine.generation = job.generation)
    (hgoal : job.goal = .execute command (reference.stackFor command)) (world : World) :
    Arrives host 2 (engine, world) (reference.execute host command world) := by
  obtain ⟨run, hjob, hwalk, hstep, hstepped⟩ := Engine.stepped_execute hphase hgoal
  have hnow := hfollows.stepped hstepped
  have hsame : engine.advance.generation = run.job.generation := by
    rw [hstepped.framed.generation, hcurrent, hjob]
  obtain ⟨hdone, houtside, hidle⟩ := hnow.executed host hstepped.phase hsame hwalk hstep world
  refine Arrives.after_choice hphase ?_
  refine Arrives.after_action hstepped.phase ?_
  exact arrives_now hidle hdone houtside

private theorem arrives_moveChosen (hfollows : Follows engine reference) (hphase : engine.phase = .choosing job none)
    (hcurrent : engine.generation = job.generation) {operation : Operation} (hmove : operation ≠ .execute)
    {filter : Option Scope} (hgoal : job.goal = Engine.goalOf operation filter) (world : World) :
    Arrives host 2 (engine, world) (reference.moveChosen host operation filter world) := by
  have hchoice := hfollows.choose_eq operation.direction filter
  unfold Reference.moveChosen
  rcases Engine.stepped_moveChosen hfollows.steady hphase hmove hgoal with
    ⟨hnone, hstepped⟩ | ⟨candidate, run, htarget, hjob, hwalk, hstep, hstepped⟩
  · rw [← hchoice, hnone]
    refine Arrives.after_choice hphase ?_
    exact (arrives_now hstepped.phase (hfollows.stepped hstepped) rfl).mono (Nat.zero_le _)
  · rw [← hchoice, htarget]
    have hnow := hfollows.stepped hstepped
    have hsame : engine.advance.generation = run.job.generation := by
      rw [hstepped.framed.generation, hcurrent, hjob]
    have hnext : engine.advance.history.next operation.direction candidate.stack = some candidate.command := by
      rw [hstepped.history]
      exact hfollows.steady.sound.next_of_target htarget
    obtain ⟨hdone, houtside, hending⟩ :=
      hnow.moved host hstepped.phase hsame hmove hstep hnext world
    refine Arrives.after_choice hphase ?_
    refine Arrives.after_action hstepped.phase ?_
    refine arrives_now ?_ hdone houtside
    rw [hending, hwalk]
    simp

/-! ### Jumps -/

namespace Reference

/-- Whether so many undos or redos of a stack lead to a wanted number of applied commands. -/
def Apart (reference : Reference) (operation : Operation) (id : StackId) (wanted count : Nat) : Prop :=
  match operation with
  | .execute => False
  | .undo => (reference.past id).length = wanted + count
  | .redo => (reference.past id).length + count = wanted ∧ count ≤ (reference.future id).length

private theorem Apart.arrived {operation : Operation} {wanted : Nat}
    (hapart : reference.Apart operation id wanted 0) : (reference.past id).length = wanted := by
  cases operation with
  | execute => exact hapart.elim
  | undo => exact hapart
  | redo => exact hapart.1

theorem Apart.next {operation : Operation} {wanted count : Nat}
    (hapart : reference.Apart operation id wanted (count + 1)) :
    ∃ command, reference.next operation.direction id = some command := by
  rw [← Option.isSome_iff_exists]
  cases operation with
  | execute => exact hapart.elim
  | undo =>
    show (reference.past id).getLast?.isSome = true
    have hlength : (reference.past id).length = wanted + (count + 1) := hapart
    rw [List.getLast?_isSome]
    exact List.ne_nil_of_length_pos (by omega)
  | redo =>
    show (reference.future id).head?.isSome = true
    have hlength : count + 1 ≤ (reference.future id).length := hapart.2
    rw [List.isSome_head?]
    exact List.ne_nil_of_length_pos (by omega)

private theorem Apart.pass {operation : Operation} {wanted count : Nat}
    (hapart : reference.Apart operation id wanted (count + 1)) :
    (reference.pass operation.direction id).Apart operation id wanted count := by
  obtain ⟨command, hnext⟩ := hapart.next
  cases operation with
  | execute => exact hapart.elim
  | undo =>
    have hlength : (reference.past id).length = wanted + (count + 1) := hapart
    have hpast : ((reference.pass .backward id).past id).length = (reference.past id).length - 1 := by
      rw [pass_backward hnext]
      simp
    show ((reference.pass .backward id).past id).length = wanted + count
    omega
  | redo =>
    have hlength : (reference.past id).length + (count + 1) = wanted ∧
        count + 1 ≤ (reference.future id).length := hapart
    have hlists : ((reference.pass .forward id).past id).length = (reference.past id).length + 1 ∧
        ((reference.pass .forward id).future id).length = (reference.future id).length - 1 := by
      rw [pass_forward hnext]
      simp
    show ((reference.pass .forward id).past id).length + count = wanted ∧
      count ≤ ((reference.pass .forward id).future id).length
    omega

end Reference

theorem Follows.stepped_toward (hfollows : Follows engine reference) {target : Option Nat}
    (hphase : engine.phase = .choosing job (some walk)) (hgoal : job.goal = .jump target) {operation : Operation}
    {count : Nat} (hapart : reference.Apart operation walk.stack walk.wanted (count + 1))
    (hnext : reference.next operation.direction walk.stack = some command) :
    ∃ run, run.job = job ∧ run.walk = some walk ∧ run.step = ⟨command, walk.stack, operation⟩ ∧
      engine.Stepped (.acting run) := by
  have hpast := congrArg List.length (hfollows.past walk.stack)
  rw [← hfollows.next_eq] at hnext
  cases operation with
  | execute => exact hapart.elim
  | undo =>
    have hlength : (reference.past walk.stack).length = walk.wanted + (count + 1) := hapart
    exact Engine.stepped_back hfollows.steady hphase hgoal (by omega) hnext
  | redo =>
    have hlength : (reference.past walk.stack).length + (count + 1) = walk.wanted := hapart.1
    exact Engine.stepped_forth hfollows.steady hphase hgoal (by omega) hnext

private theorem arrives_walk {target : Option Nat} (hgoal : job.goal = .jump target) {operation : Operation}
    {count : Nat} (hfollows : Follows engine reference) (hphase : engine.phase = .choosing job (some walk))
    (hcurrent : engine.generation = job.generation)
    (hapart : reference.Apart operation walk.stack walk.wanted count) (world : World) :
    Arrives host (3 * count + 1) (engine, world)
      (Reference.walk host operation walk.stack count (reference, world)) := by
  induction count generalizing engine reference world with
  | zero =>
    have harrived : (engine.history.past walk.stack).length = walk.wanted := by
      rw [hfollows.past]
      exact hapart.arrived
    have hstepped := Engine.stepped_arrived hfollows.steady hphase hgoal harrived
    refine Arrives.after_choice hphase ?_
    exact arrives_now hstepped.phase (hfollows.stepped hstepped) rfl
  | succ count ih =>
    have hmove : operation ≠ .execute := by
      rintro rfl
      exact hapart
    obtain ⟨command, hnext⟩ := hapart.next
    obtain ⟨run, hjob, hwalk, hstep, hstepped⟩ := hfollows.stepped_toward hphase hgoal hapart hnext
    have hnow := hfollows.stepped hstepped
    have hsame : engine.advance.generation = run.job.generation := by
      rw [hstepped.framed.generation, hcurrent, hjob]
    obtain ⟨hdone, houtside, hending⟩ := hnow.moved host hstepped.phase hsame hmove hstep
      ((hnow.next_eq _ _).trans hnext) world
    have hframed := (Host.performed host hstepped.phase world).framed
    rw [hwalk, hjob] at hending
    unfold Reference.walk
    rw [hnext]
    dsimp only
    -- A move takes three turns: the choice, the action, and the look at what the job is to do next.
    show Arrives host (3 * count + 2 + 1 + 1) _ _
    refine Arrives.after_choice hphase ?_
    refine Arrives.after_action hstepped.phase ?_
    split_ifs at hending ⊢ with hsucceeded
    · have hpassed := Reference.move_of_succeeded hsucceeded
      have hstill : job.generation = (host.turn engine.advance world).1.generation := by
        rw [hframed.generation, hstepped.framed.generation, hcurrent]
      have hresumed := Engine.stepped_resume hending hstill
      show Arrives host (3 * count + 1 + 1) ((host.turn engine.advance world).1, (host.turn engine.advance world).2) _
      refine Arrives.after_step (by simp [hending]) (by rw [hending]; rfl) ?_
      rw [houtside]
      refine ih (hdone.stepped hresumed) hresumed.phase ?_ ?_ _
      · rw [hresumed.framed.generation]
        exact hstill.symm
      · rw [hpassed]
        exact hapart.pass
    · exact (arrives_now hending hdone houtside).mono (Nat.zero_le _)

variable (host) in
private theorem arrives_walkTo {target : Option Nat} (hgoal : job.goal = .jump target) {wanted : Nat}
    (hfollows : Follows engine reference) (hphase : engine.phase = .choosing job (some ⟨reference.active, wanted⟩))
    (hcurrent : engine.generation = job.generation)
    (hwanted : wanted ≤ (engine.history.line reference.active).length) (world : World) :
    Arrives host (3 * (engine.history.line reference.active).length + 1) (engine, world)
      (reference.walkTo host wanted world) := by
  rw [History.line, hfollows.past, hfollows.future, List.length_append] at hwanted ⊢
  unfold Reference.walkTo
  dsimp only
  split_ifs with hback
  · have hapart : reference.Apart .undo reference.active wanted
        ((reference.past reference.active).length - wanted) := by
      show (reference.past reference.active).length = _
      omega
    exact (arrives_walk hgoal hfollows hphase hcurrent hapart world).mono (by omega)
  · have hapart : reference.Apart .redo reference.active wanted
        (wanted - (reference.past reference.active).length) := by
      show (reference.past reference.active).length + _ = _ ∧ _
      omega
    exact (arrives_walk hgoal hfollows hphase hcurrent hapart world).mono (by omega)

private theorem arrives_jump {target : Option Nat} (hgoal : job.goal = .jump target)
    (hfollows : Follows engine reference) (hphase : engine.phase = .choosing job none)
    (hcurrent : engine.generation = job.generation) (world : World) :
    Arrives host (3 * (engine.history.line reference.active).length + 2) (engine, world)
      (reference.jump host target world) := by
  have hstepped := Engine.stepped_beginJump hfollows.steady.sound hphase hgoal
  have hnow := hfollows.stepped hstepped
  have hsame : engine.advance.generation = job.generation := by rw [hstepped.framed.generation, hcurrent]
  have hlength : (engine.history.line reference.active).length =
      (reference.past reference.active).length + (reference.future reference.active).length := by
    rw [History.line, hfollows.past, hfollows.future, List.length_append]
  refine Arrives.after_choice hphase ?_
  rw [hfollows.active] at hstepped
  unfold Reference.jump
  cases target with
  | none =>
    have harrives := arrives_walkTo host hgoal hnow hstepped.phase hsame (Nat.zero_le _) world
    rwa [hstepped.history] at harrives
  | some index =>
    dsimp only at hstepped ⊢
    rw [← hlength]
    split_ifs at hstepped ⊢ with hout
    · exact (arrives_now hstepped.phase hnow rfl).mono (Nat.zero_le _)
    · have harrives := arrives_walkTo host hgoal hnow hstepped.phase hsame
        (by rw [hstepped.history]; omega) world
      rwa [hstepped.history] at harrives

/-! ### Requests -/

theorem Follows.stackFor_eq (hfollows : Follows engine reference) (command : Command) :
    engine.stackFor command = reference.stackFor command := by
  unfold Engine.stackFor Reference.stackFor Engine.routed?
  cases command.stack with
  | some stack => rfl
  | none =>
    cases command.scope with
    | all => exact hfollows.active
    | areas bits => rw [hfollows.routes, hfollows.active]

theorem Follows.goalFor_ok (hfollows : Follows engine reference) {request : Request}
    (haccepts : reference.accepts request = true) : ∃ goal, engine.goalFor request = .ok goal := by
  have hchecked : ∀ {scope : Scope} {goal : Goal}, (reference.registry.validate scope).isOk = true →
      ∃ made, (engine.registry.validate scope).map (fun _ => goal) = .ok made := by
    intro scope goal hok
    rw [hfollows.registry]
    cases hvalid : reference.registry.validate scope with
    | error error =>
      rw [hvalid] at hok
      cases hok
    | ok => exact ⟨goal, rfl⟩
  cases request with
  | execute command => exact hchecked haccepts
  | undo filter =>
    cases filter with
    | none => exact ⟨_, rfl⟩
    | some filter => exact hchecked haccepts
  | redo filter =>
    cases filter with
    | none => exact ⟨_, rfl⟩
    | some filter => exact hchecked haccepts
  | jump target => exact ⟨_, rfl⟩

theorem Follows.goalFor_error (hfollows : Follows engine reference) {request : Request}
    (hrefuses : reference.accepts request = false) : ∃ error, engine.goalFor request = .error error := by
  have hchecked : ∀ {scope : Scope} {goal : Goal}, (reference.registry.validate scope).isOk = false →
      ∃ error, (engine.registry.validate scope).map (fun _ => goal) = .error error := by
    intro scope goal hok
    rw [hfollows.registry]
    cases hvalid : reference.registry.validate scope with
    | error error => exact ⟨error, rfl⟩
    | ok =>
      rw [hvalid] at hok
      cases hok
  cases request with
  | execute command => exact hchecked hrefuses
  | undo filter =>
    cases filter with
    | none => cases hrefuses
    | some filter => exact hchecked hrefuses
  | redo filter =>
    cases filter with
    | none => cases hrefuses
    | some filter => exact hchecked hrefuses
  | jump target => cases hrefuses

theorem Follows.isOk_goalFor (hfollows : Follows engine reference) (request : Request) :
    (engine.goalFor request).isOk = reference.accepts request := by
  cases haccepts : reference.accepts request with
  | true =>
    obtain ⟨goal, hgoal⟩ := hfollows.goalFor_ok haccepts
    rw [hgoal]
    rfl
  | false =>
    obtain ⟨error, herror⟩ := hfollows.goalFor_error haccepts
    rw [herror]
    rfl

variable (host) in
theorem arrives_serve {request : Request} (hgoal : engine.goalFor request = .ok job.goal)
    (hfollows : Follows engine reference) (hphase : engine.phase = .choosing job none)
    (hcurrent : engine.generation = job.generation) (world : World) :
    Arrives host (3 * (engine.history.line reference.active).length + 2) (engine, world)
      (reference.serve host request world) := by
  cases request with
  | execute command =>
    have hmade := Engine.eq_of_checked hgoal
    rw [hfollows.stackFor_eq] at hmade
    exact (arrives_execute hfollows hphase hcurrent hmade world).mono (by omega)
  | undo filter =>
    have hmade : job.goal = Engine.goalOf .undo filter := Engine.eq_of_checked hgoal
    exact (arrives_moveChosen hfollows hphase hcurrent (by simp) hmade world).mono (by omega)
  | redo filter =>
    have hmade : job.goal = Engine.goalOf .redo filter := Engine.eq_of_checked hgoal
    exact (arrives_moveChosen hfollows hphase hcurrent (by simp) hmade world).mono (by omega)
  | jump target => exact arrives_jump (Except.ok.inj hgoal).symm hfollows hphase hcurrent world

end Retrace
