import Retrace.Proofs.Placement
import Retrace.Proofs.Settling
import Retrace.Proofs.Tickets

/-!
# The worker comes to rest

`turnsLeft` bounds the turns that the jobs at hand still take. Every turn of an engine that is not settled
makes it smaller, so that the turns which `settle` and `await` allow for are always enough.
-/

namespace Retrace

namespace History

def gap (history : History) (walk : Walk) : Nat :=
  if walk.wanted ≤ (history.past walk.stack).length then (history.past walk.stack).length - walk.wanted
  else (history.future walk.stack).length

variable {history after : History} {walk : Walk}

theorem gap_le (history : History) (walk : Walk) : history.gap walk ≤ (history.line walk.stack).length := by
  rw [line, List.length_append]
  unfold gap
  split_ifs <;> omega

theorem gap_back {front : List Command} {passed : Command} {future : List Command}
    (hback : walk.wanted < (history.past walk.stack).length) (hpast : history.past walk.stack = front ++ [passed])
    (hlists : (after.past walk.stack, after.future walk.stack) = (front, future)) :
    after.gap walk + 1 = history.gap walk := by
  have hafter : after.past walk.stack = front := past_of_lists hlists
  have hlength : (history.past walk.stack).length = front.length + 1 := by simp [hpast]
  unfold gap
  rw [hafter, if_pos (by omega), if_pos hback.le]
  omega

theorem gap_forth {passed : Command} {rest : List Command}
    (hforth : (history.past walk.stack).length < walk.wanted) (hfuture : history.future walk.stack = passed :: rest)
    (hlists : (after.past walk.stack, after.future walk.stack) = (history.past walk.stack ++ [passed], rest)) :
    after.gap walk + 1 ≤ history.gap walk := by
  have hpast : (after.past walk.stack).length = (history.past walk.stack).length + 1 := by
    rw [past_of_lists hlists, List.length_append, List.length_singleton]
  have hrest : (after.future walk.stack).length + 1 = (history.future walk.stack).length := by
    rw [future_of_lists hlists, hfuture, List.length_cons]
  unfold gap
  rw [if_neg (not_le.mpr hforth)]
  split_ifs <;> omega

end History

namespace Engine

variable {engine after : Engine} {move : Move} {job : Job} {run : Run} {walk : Walk} {room : Nat}

/-! ### What runs while no call is made -/

/-- What holds in every state of every run: only undos, redos and jumps have an action after another. -/
structure Working (engine : Engine) : Prop extends engine.Steady where
  single : ∀ run, engine.phase.run? = some run → run.step.operation = .execute → run.walk = none

theorem Working.change (hworking : engine.Working) (hchange : engine.Change move after) : after.Working where
  toSteady := hworking.toSteady.change hchange
  single := by
    intro run hrun hoperation
    rcases hchange.started hrun with hsame | ⟨-, horigin⟩
    · exact hworking.single run hsame hoperation
    · cases horigin with
      | submitted _ hwalk => exact hwalk
      | recorded hmove => exact absurd hoperation hmove

theorem Working.apply (hworking : engine.Working) (move : Move) : (engine.apply move).Working :=
  hworking.change (hworking.toSteady.change_apply move)

theorem Working.applyAll (hworking : engine.Working) (moves : List Move) : (engine.applyAll moves).Working := by
  induction moves generalizing engine with
  | nil => exact hworking
  | cons move moves ih => exact ih (hworking.apply move)

theorem Fresh.working (hfresh : engine.Fresh) : engine.Working where
  toSteady := hfresh.steady
  single := by
    obtain ⟨registry, routes, defaultStack, limit, capacity, rfl⟩ := hfresh
    intro run hrun
    cases hrun

/-! ### The measure -/

/-- How many turns a phase is at most away from the end of its job, if no stack gets longer than `room`. An
undo, a redo and an execution take one turn for their action, a jump three for each command that it passes. -/
def turnsIn (room : Nat) (engine : Engine) : Phase → Nat
  | .idle => 0
  | .choosing _ none => 3 * room + 3
  | .choosing _ (some walk) => 3 * engine.history.gap walk + 2
  | .acting run =>
    match run.walk with
    | none => 1
    | some walk =>
      if run.job.generation = engine.generation then 3 * (engine.takeEffect run).1.gap walk + 4 else 2
  | .resting job walk => if job.generation = engine.generation then 3 * engine.history.gap walk + 3 else 1

/-- How many turns an engine is at most away from a settled state. -/
def turnsLeft (room : Nat) (engine : Engine) : Nat :=
  engine.turnsIn room engine.phase + engine.queue.length * (3 * room + 4)

def Roomy (room : Nat) (engine : Engine) : Prop :=
  ∀ id, (engine.history.line id).length + engine.unanswered.length ≤ room

theorem turnsIn_congr (hhistory : after.history = engine.history) (hgeneration : after.generation = engine.generation)
    (room : Nat) (phase : Phase) : after.turnsIn room phase = engine.turnsIn room phase := by
  cases phase with
  | idle => rfl
  | choosing job walk => cases walk <;> simp [turnsIn, hhistory]
  | acting run => simp only [turnsIn, hgeneration, takeEffect_congr hhistory hgeneration]
  | resting job walk => simp only [turnsIn, hgeneration, hhistory]

theorem Roomy.mono (hroomy : engine.Roomy room)
    (hline : ∀ id, (after.history.line id).length ≤ (engine.history.line id).length)
    (hunanswered : after.unanswered.length ≤ engine.unanswered.length) : after.Roomy room := by
  intro id
  have hbound := hroomy id
  have hless := hline id
  omega

theorem length_unanswered_le (engine : Engine) : engine.unanswered.length ≤ engine.queue.length + 1 := by
  rw [unanswered, List.length_append]
  cases engine.phase.job? <;> simp
  omega

/-! ### One turn makes it smaller -/

structure Descends (room : Nat) (engine after : Engine) : Prop where
  roomy : after.Roomy room
  less : after.turnsLeft room < engine.turnsLeft room

theorem descends_stepped {phase : Phase} (hroomy : engine.Roomy room) (hjob : engine.phase.job? = some job)
    (hstepped : engine.Stepped phase) (hless : engine.turnsIn room phase < engine.turnsIn room engine.phase) :
    Descends room engine engine.advance where
  roomy := by
    refine hroomy.mono (fun id => by rw [hstepped.history]) ?_
    have hlength := length_unanswered_le engine.advance
    rw [hstepped.framed.queue] at hlength
    rw [unanswered_of_job hjob]
    exact hlength
  less := by
    unfold turnsLeft
    rw [hstepped.phase, hstepped.framed.queue, turnsIn_congr hstepped.history hstepped.framed.generation]
    omega

theorem turnsIn_idle (room : Nat) (engine : Engine) : engine.turnsIn room .idle = 0 := rfl

private theorem turnsIn_single (hwalk : run.walk = none) (room : Nat) (engine : Engine) :
    engine.turnsIn room (.acting run) = 1 := by
  simp [turnsIn, hwalk]

theorem turnsIn_choosing_pos (room : Nat) (engine : Engine) (job : Job) (walk : Option Walk) :
    1 < engine.turnsIn room (.choosing job walk) := by
  cases walk <;> simp [turnsIn]

/-- An action of a jump brings it nearer to its end. -/
theorem turnsIn_acting_lt {command : Command} {operation : Operation} (hwalk : run.walk = some walk)
    (hstep : run.step = ⟨command, walk.stack, operation⟩) (hmove : operation ≠ .execute)
    (hgap : (engine.history.moveCursor walk.stack command.id operation.direction).1.gap walk + 1 ≤
      engine.history.gap walk) :
    engine.turnsIn room (.acting run) < engine.turnsIn room (.choosing job (some walk)) := by
  simp only [turnsIn, hwalk]
  split_ifs with hcurrent
  · rw [takeEffect_of_move hcurrent.symm (by rw [hstep]; exact hmove), hstep]
    dsimp only
    omega
  · omega

private theorem descends_walking (hsteady : engine.Steady) (hroomy : engine.Roomy room) {target : Option Nat}
    (hphase : engine.phase = .choosing job (some walk)) (hgoal : job.goal = .jump target) :
    Descends room engine engine.advance := by
  have hjob : engine.phase.job? = some job := by rw [hphase]; rfl
  have hidle : engine.turnsIn room .idle < engine.turnsIn room engine.phase := by
    rw [turnsIn_idle, hphase]
    exact (turnsIn_choosing_pos ..).le.trans_lt' Nat.zero_lt_one
  rcases Nat.lt_trichotomy (engine.history.past walk.stack).length walk.wanted with hforth | harrived | hback
  · cases hfuture : engine.history.future walk.stack with
    | nil => exact descends_stepped hroomy hjob (stepped_end hsteady hphase hgoal hforth hfuture) hidle
    | cons command rest =>
      have hhead : (engine.history.future walk.stack).head? = some command := by rw [hfuture]; rfl
      obtain ⟨run, -, hwalk, hstep, hstepped⟩ := stepped_forth hsteady hphase hgoal hforth hhead
      refine descends_stepped hroomy hjob hstepped ?_
      rw [hphase]
      exact turnsIn_acting_lt hwalk hstep (by simp) (History.gap_forth hforth hfuture (hsteady.sound.lists_passed_forth hfuture))
  · exact descends_stepped hroomy hjob (stepped_arrived hsteady hphase hgoal harrived) hidle
  · obtain ⟨command, hlast⟩ := exists_last hback
    obtain ⟨run, -, hwalk, hstep, hstepped⟩ := stepped_back hsteady hphase hgoal hback hlast
    obtain ⟨front, hpast⟩ := List.getLast?_eq_some_iff.mp hlast
    refine descends_stepped hroomy hjob hstepped ?_
    rw [hphase]
    have hgap := History.gap_back hback hpast (hsteady.sound.lists_passed_back hpast)
    exact turnsIn_acting_lt hwalk hstep (by simp) hgap.le

private theorem descends_beginJump (hsteady : engine.Steady) (hroomy : engine.Roomy room) {target : Option Nat}
    (hphase : engine.phase = .choosing job none) (hgoal : job.goal = .jump target) :
    Descends room engine engine.advance := by
  have hjob : engine.phase.job? = some job := by rw [hphase]; rfl
  have hway : ∀ walk, engine.turnsIn room (.choosing job (some walk)) < engine.turnsIn room engine.phase := by
    intro walk
    have hgap := engine.history.gap_le walk
    have hbound := hroomy walk.stack
    rw [hphase]
    simp only [turnsIn]
    omega
  refine descends_stepped hroomy hjob (stepped_beginJump hsteady.sound hphase hgoal) ?_
  cases target with
  | none => exact hway _
  | some index =>
    dsimp only
    split_ifs
    · rw [turnsIn_idle, hphase]
      exact Nat.succ_pos _
    · exact hway _

private theorem descends_choosing (hsteady : engine.Steady) (hroomy : engine.Roomy room) {way : Option Walk}
    (hphase : engine.phase = .choosing job way) : Descends room engine engine.advance := by
  have hjob : engine.phase.job? = some job := by rw [hphase]; rfl
  have hmany : 1 < engine.turnsIn room engine.phase := by
    rw [hphase]
    exact turnsIn_choosing_pos ..
  have hmove : ∀ operation filter, operation ≠ .execute → job.goal = goalOf operation filter →
      Descends room engine engine.advance := by
    intro operation filter hoperation hgoal
    rcases stepped_moveChosen hsteady hphase hoperation hgoal with
      ⟨-, hstepped⟩ | ⟨candidate, run, -, -, hwalk, -, hstepped⟩
    · refine descends_stepped hroomy hjob hstepped ?_
      rw [turnsIn_idle]
      exact Nat.zero_lt_of_lt hmany
    · refine descends_stepped hroomy hjob hstepped ?_
      rw [turnsIn_single hwalk]
      exact hmany
  cases hgoal : job.goal with
  | execute command stack =>
    obtain ⟨run, -, hwalk, -, hstepped⟩ := stepped_execute hphase hgoal
    refine descends_stepped hroomy hjob hstepped ?_
    rw [turnsIn_single hwalk]
    exact hmany
  | undo filter => exact hmove .undo filter (by simp) hgoal
  | redo filter => exact hmove .redo filter (by simp) hgoal
  | jump target =>
    cases way with
    | none => exact descends_beginJump hsteady hroomy hphase hgoal
    | some walk => exact descends_walking hsteady hroomy hphase hgoal

private theorem descends_resting (hroomy : engine.Roomy room) (hphase : engine.phase = .resting job walk) :
    Descends room engine engine.advance := by
  have hjob : engine.phase.job? = some job := by rw [hphase]; rfl
  by_cases hcurrent : job.generation = engine.generation
  · refine descends_stepped hroomy hjob (stepped_resume hphase hcurrent) ?_
    rw [hphase]
    simp only [turnsIn, if_pos hcurrent]
    omega
  · have hresume : engine.advance = engine.answer job (.error .cancelled) := by
      simp only [advance, hphase, resume, if_neg hcurrent]
    have hstepped : engine.Stepped .idle := stepped_of_eq hresume rfl rfl (framed_answer ..)
    refine descends_stepped hroomy hjob hstepped ?_
    rw [turnsIn_idle, hphase]
    simp [turnsIn, hcurrent]

private theorem descends_take (hroomy : engine.Roomy room) {rest : List Job} (hphase : engine.phase = .idle)
    (hqueue : engine.queue = job :: rest) : Descends room engine engine.advance := by
  have hadvance : engine.advance =
      if job.generation = engine.generation then { engine with queue := rest, phase := .choosing job none }
      else { engine with queue := rest }.answer job (.error .cancelled) := by
    simp only [advance, hphase, take, hqueue]
  rw [hadvance]
  split_ifs with hcurrent
  · constructor
    · refine hroomy.mono (fun id => Nat.le_refl _) ?_
      rw [unanswered_of_idle hphase, hqueue, unanswered_of_job (show _ = some job from rfl)]
    · unfold turnsLeft
      rw [hphase, hqueue]
      simp only [turnsIn, List.length_cons, Nat.add_mul, Nat.one_mul]
      omega
  · constructor
    · refine hroomy.mono (fun id => Nat.le_refl _) ?_
      rw [unanswered_of_idle hphase, hqueue, unanswered_of_idle rfl]
      exact Nat.le_succ _
    · unfold turnsLeft
      rw [hphase, hqueue]
      simp only [answer, turnsIn, List.length_cons, Nat.add_mul, Nat.one_mul]
      omega

theorem length_line_takeEffect_le (hsound : engine.history.Sound) (run : Run) (id : StackId) :
    ((engine.takeEffect run).1.line id).length ≤
      (engine.history.line id).length + if run.step.operation = .execute then 1 else 0 := by
  by_cases hcurrent : engine.generation = run.job.generation
  · by_cases hexecute : run.step.operation = .execute
    · rw [takeEffect_of_execute hcurrent hexecute, if_pos hexecute]
      split_ifs
      · omega
      · have hlists := hsound.lists_record run.step.stack run.step.command id
        split_ifs at hlists with hid
        · have hlength := (Stack.within_sublist engine.history.limit
            (engine.history.past run.step.stack ++ [run.step.command]) []).length_le
          rw [History.line_of_lists hlists, hid, History.line, List.length_append]
          simp only [List.append_nil, List.length_append, List.length_singleton] at hlength ⊢
          omega
        · rw [History.line_of_lists hlists]
          exact Nat.le_succ _
    · have heffect : engine.Effect run (.returned (.ok .null)) (engine.takeEffect run).1 :=
        effect_of_ended hsound run (.returned (.ok .null))
      rw [heffect.line_eq hexecute]
      exact Nat.le_add_right ..
  · rw [takeEffect_of_stale hcurrent]
    exact Nat.le_add_right ..

end Engine

namespace Host

variable {World : Type} {host : Host World} {engine : Engine} {world : World} {run : Run} {room : Nat}

open Engine

variable (host) in
private theorem descends_performed (hworking : engine.Working) (hroomy : engine.Roomy room)
    (hphase : engine.phase = .acting run) (world : World) : Descends room engine (host.turn engine world).1 := by
  have hperformed := host.performed hphase world
  have hgeneration := hperformed.framed.generation
  have hqueue := hperformed.framed.queue
  have hhistory := hperformed.history
  have hafter := hperformed.phase
  have hjob : engine.phase.job? = some run.job := by rw [hphase]; rfl
  generalize (host.turn engine world).1 = after at hgeneration hqueue hhistory hafter ⊢
  -- Either the job is over, or a jump goes on; only an execution makes a line longer, and its job is over.
  have hover : after.phase = .idle →
      (∀ id, (after.history.line id).length ≤ (engine.history.line id).length + 1) → Descends room engine after := by
    intro hidle hline
    constructor
    · intro id
      have hbound := hroomy id
      have hless := hline id
      rw [unanswered_of_job hjob, List.length_cons] at hbound
      rw [unanswered_of_idle hidle, hqueue]
      omega
    · unfold turnsLeft
      rw [hidle, hqueue, hphase, turnsIn_idle]
      refine Nat.add_lt_add_right ?_ _
      simp only [turnsIn]
      split
      · exact Nat.zero_lt_one
      · split_ifs <;> omega
  have hlength := length_line_takeEffect_le hworking.sound run
  by_cases hsucceeded : Outcome.succeeded
      ((host.perform run.step world).outcome.settle run.step.command.text) = true
  · rw [if_pos hsucceeded] at hhistory hafter
    cases hwalk : run.walk with
    | none =>
      rw [hwalk] at hafter
      refine hover hafter fun id => ?_
      rw [hhistory]
      refine (hlength id).trans ?_
      split_ifs <;> omega
    | some walk =>
      rw [hwalk] at hafter
      have hmove : run.step.operation ≠ .execute := by
        intro hexecute
        have hnone := hworking.single run (by rw [hphase]; rfl) hexecute
        rw [hwalk] at hnone
        cases hnone
      constructor
      · refine hroomy.mono (fun id => ?_) ?_
        · have hline := hlength id
          rw [if_neg hmove] at hline
          rw [hhistory]
          exact hline
        · have hstill : after.phase.job? = some run.job := by rw [hafter]; rfl
          rw [unanswered_of_job hjob, unanswered_of_job hstill, hqueue]
      · unfold turnsLeft
        rw [hafter, hqueue, hphase]
        refine Nat.add_lt_add_right ?_ _
        simp only [turnsIn, hwalk, hgeneration, hhistory]
        split_ifs <;> omega
  · rw [if_neg hsucceeded] at hhistory hafter
    refine hover hafter fun id => ?_
    rw [hhistory]
    exact Nat.le_succ _

variable (host) in
theorem descends_turn (hworking : engine.Working) (hroomy : engine.Roomy room) (hbusy : engine.isSettled = false)
    (world : World) : Descends room engine (host.turn engine world).1 := by
  cases hphase : engine.phase with
  | idle =>
    rw [turn_of_no_run (by rw [hphase]; rfl)]
    cases hqueue : engine.queue with
    | nil =>
      rw [isSettled_of_idle hphase hqueue] at hbusy
      cases hbusy
    | cons job rest => exact descends_take hroomy hphase hqueue
  | choosing job way =>
    rw [turn_of_no_run (by rw [hphase]; rfl)]
    exact descends_choosing hworking.toSteady hroomy hphase
  | acting run => exact descends_performed host hworking hroomy hphase world
  | resting job walk =>
    rw [turn_of_no_run (by rw [hphase]; rfl)]
    exact descends_resting hroomy hphase

/-! ### Turns as moves -/

variable (host) in
def movesOf (engine : Engine) (world : World) : List Move :=
  match engine.phase with
  | .acting run =>
    (host.perform run.step world).reports.map (Move.report run.number) ++ [.finish (host.perform run.step world).outcome]
  | _ => [.advance]

theorem foldl_report_eq_applyAll (number : Nat) (events : List ProgressEvent) (engine : Engine) :
    events.foldl (fun engine event => engine.report number event) engine =
      engine.applyAll (events.map (Move.report number)) := by
  rw [Engine.applyAll, List.foldl_map]
  rfl

variable (host) in
theorem turn_eq_applyAll (engine : Engine) (world : World) :
    (host.turn engine world).1 = engine.applyAll (host.movesOf engine world) := by
  unfold turn movesOf
  cases engine.phase with
  | acting run =>
    dsimp only
    rw [applyAll_append, foldl_report_eq_applyAll]
    rfl
  | _ => rfl

theorem turn_of_settled (hsettled : engine.isSettled = true) (world : World) :
    host.turn engine world = (engine, world) := by
  obtain ⟨hphase, hqueue⟩ : engine.phase = .idle ∧ engine.queue = [] := by
    simpa [Engine.isSettled] using hsettled
  rw [turn_of_no_run (by rw [hphase]; rfl)]
  simp [advance, hphase, take, hqueue]

variable (host) in
theorem working_turn (hworking : engine.Working) (world : World) : (host.turn engine world).1.Working := by
  rw [turn_eq_applyAll]
  exact hworking.applyAll _

variable (host) in
theorem turnUntil_eq_applyAll (stop : Engine → Bool) (bound : Nat) (engine : Engine) (world : World) :
    ∃ moves, (host.turnUntil stop bound (engine, world)).1 = engine.applyAll moves := by
  induction bound generalizing engine world with
  | zero => exact ⟨[], rfl⟩
  | succ bound ih =>
    rw [turnUntil]
    split_ifs
    · exact ⟨[], rfl⟩
    · obtain ⟨moves, hmoves⟩ := ih (host.turn engine world).1 (host.turn engine world).2
      refine ⟨host.movesOf engine world ++ moves, ?_⟩
      rw [applyAll_append, ← turn_eq_applyAll]
      exact hmoves

/-! ### Enough turns for everything -/

variable (host) in
/-- Turns go on up to the state that they are taken for, unless everything is done before. -/
theorem turnUntil_stops (stop : Engine → Bool) {bound : Nat} (hworking : engine.Working) (hroomy : engine.Roomy room)
    (hbound : engine.turnsLeft room ≤ bound) (world : World) :
    stop (host.turnUntil stop bound (engine, world)).1 = true ∨
      (host.turnUntil stop bound (engine, world)).1.isSettled = true := by
  induction bound generalizing engine world with
  | zero =>
    right
    by_contra hbusy
    have hless := (descends_turn host hworking hroomy (by simpa [turnUntil] using hbusy) world).less
    omega
  | succ bound ih =>
    rw [turnUntil]
    split_ifs with hstop
    · exact .inl hstop
    · cases hsettled : engine.isSettled with
      | true =>
        rw [turn_of_settled hsettled]
        have hnothing : engine.turnsLeft room ≤ bound := by
          obtain ⟨hphase, hqueue⟩ : engine.phase = .idle ∧ engine.queue = [] := by
            simpa [Engine.isSettled] using hsettled
          unfold turnsLeft
          rw [hphase, hqueue, turnsIn_idle]
          simp
        exact ih hworking hroomy hnothing world
      | false =>
        have hdescends := descends_turn host hworking hroomy hsettled world
        have hless := hdescends.less
        exact ih (working_turn host hworking world) hdescends.roomy (by omega) _

theorem turnsLeft_le_turnBound (hworking : engine.Working) :
    ∃ room, engine.Roomy room ∧ engine.turnsLeft room ≤ turnBound engine := by
  have hline := length_line_le_longest hworking.sound
  unfold turnBound
  generalize (engine.history.stackList.map Stack.count).foldl Nat.max 0 = longest at hline ⊢
  have hunanswered := length_unanswered_le engine
  refine ⟨longest + (engine.queue.length + 1), fun id => ?_, ?_⟩
  · have hless := hline id
    omega
  unfold turnsLeft
  dsimp only
  rw [Nat.add_mul, Nat.one_mul, Nat.add_comm]
  refine Nat.add_le_add_left ?_ _
  cases hphase : engine.phase with
  | idle => exact Nat.zero_le _
  | choosing job way =>
    cases way with
    | none => simp [turnsIn]
    | some walk =>
      have hgap := engine.history.gap_le walk
      have hless := hline walk.stack
      simp only [turnsIn]
      omega
  | acting run =>
    simp only [turnsIn]
    split
    · omega
    · next walk hwalk =>
      have hgap := (engine.takeEffect run).1.gap_le walk
      have hlength := length_line_takeEffect_le hworking.sound run walk.stack
      have hless := hline walk.stack
      split_ifs at hlength ⊢ <;> omega
  | resting job walk =>
    have hgap := engine.history.gap_le walk
    have hless := hline walk.stack
    simp only [turnsIn]
    split_ifs <;> omega

variable (host) in
/-- **Everything gets done**: an engine that settles is settled. -/
theorem isSettled_settle (hworking : engine.Working) (world : World) :
    (host.settle engine world).1.isSettled = true := by
  obtain ⟨room, hroomy, hbound⟩ := turnsLeft_le_turnBound hworking
  rcases turnUntil_stops host Engine.isSettled hworking hroomy hbound world with hsettled | hsettled <;> exact hsettled

variable (host) in
/-- **A job that is waited for is answered**, unless there is no such job. -/
theorem answered_await (hworking : engine.Working) (ticket : Ticket) (world : World) :
    ((host.await ticket engine world).1.answer? ticket).isSome = true ∨
      (host.await ticket engine world).1.isSettled = true := by
  obtain ⟨room, hroomy, hbound⟩ := turnsLeft_le_turnBound hworking
  exact turnUntil_stops host (fun engine => (engine.answer? ticket).isSome) hworking hroomy hbound world

end Host

end Retrace
