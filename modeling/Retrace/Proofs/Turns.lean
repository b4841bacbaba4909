import Retrace.Proofs.Flow

/-!
# The steps of the worker

Each step of the worker as it is when the state decides which one comes next: the phase it leads to, what
it leaves alone, and the command of the action that it starts.
-/

namespace Retrace

namespace Engine

variable {engine after : Engine} {job : Job} {run : Run} {walk : Walk} {target : Option Nat}

/-- What no step of the worker changes after it has taken a job. -/
structure Framed (engine after : Engine) : Prop where
  registry : after.registry = engine.registry
  routes : after.routes = engine.routes
  generation : after.generation = engine.generation
  queue : after.queue = engine.queue
  accepting : after.isAccepting = engine.isAccepting
  listening : after.isListening = engine.isListening

theorem Framed.refl (engine : Engine) : engine.Framed engine := ⟨rfl, rfl, rfl, rfl, rfl, rfl⟩

theorem Framed.trans {last : Engine} (hfirst : engine.Framed after) (hsecond : after.Framed last) :
    engine.Framed last where
  registry := hsecond.registry.trans hfirst.registry
  routes := hsecond.routes.trans hfirst.routes
  generation := hsecond.generation.trans hfirst.generation
  queue := hsecond.queue.trans hfirst.queue
  accepting := hsecond.accepting.trans hfirst.accepting
  listening := hsecond.listening.trans hfirst.listening

theorem framed_answer (engine : Engine) (job : Job) (result : ActionResult) :
    engine.Framed (engine.answer job result) := ⟨rfl, rfl, rfl, rfl, rfl, rfl⟩

private theorem framed_conclude (engine : Engine) (run : Run) (result : ActionResult) :
    engine.Framed (engine.conclude run result) := by
  cases result <;> cases hwalk : run.walk <;> constructor <;> simp [conclude, hwalk, answer]

theorem framed_finish (hphase : engine.phase = .acting run) (outcome : Outcome) :
    engine.Framed (engine.finish outcome) := by
  rw [finish_eq hphase]
  have hconclude := framed_conclude { engine with
    statuses := engine.statuses.set run.step.command.id
      (run.step.command.verdict run.step.operation.direction run.previous outcome).2 } run
    (outcome.settle run.step.command.text)
  exact ⟨hconclude.registry, hconclude.routes, hconclude.generation, hconclude.queue, hconclude.accepting,
    hconclude.listening⟩

theorem framed_report (engine : Engine) (number : Nat) (event : ProgressEvent) :
    engine.Framed (engine.report number event) := by
  unfold report
  split
  · split_ifs
    · exact ⟨rfl, rfl, rfl, rfl, rfl, rfl⟩
    · exact Framed.refl engine
  · exact Framed.refl engine

theorem exists_submit_eq (engine : Engine) (request : Request) : ∃ waiting queue nextTicket running,
    (engine.submit request).2 = { engine with waiting, queue, nextTicket, running } := by
  unfold submit
  split_ifs
  · dsimp only
    split
    · exact ⟨_, _, _, _, rfl⟩
    · unfold schedule
      dsimp only
      split_ifs <;> exact ⟨_, _, _, _, rfl⟩
  · exact ⟨_, _, _, _, rfl⟩

theorem exists_route_eq (engine : Engine) (scope : Scope) (stack : StackId) :
    ∃ routes, (engine.route scope stack).2 = { engine with routes } := by
  unfold route
  split
  · exact ⟨_, rfl⟩
  · split_ifs <;> exact ⟨_, rfl⟩

theorem submit_frame (engine : Engine) (request : Request) :
    (engine.submit request).2.history = engine.history ∧ (engine.submit request).2.phase = engine.phase := by
  obtain ⟨waiting, queue, nextTicket, running, hsubmit⟩ := exists_submit_eq engine request
  rw [hsubmit]
  exact ⟨rfl, rfl⟩

theorem route_frame (engine : Engine) (scope : Scope) (stack : StackId) :
    (engine.route scope stack).2.history = engine.history ∧ (engine.route scope stack).2.phase = engine.phase := by
  obtain ⟨routes, hroute⟩ := exists_route_eq engine scope stack
  rw [hroute]
  exact ⟨rfl, rfl⟩

theorem report_frame (engine : Engine) (number : Nat) (event : ProgressEvent) :
    (engine.report number event).history = engine.history ∧
      (engine.report number event).phase = engine.phase := by
  unfold report
  split
  · split_ifs <;> exact ⟨rfl, by simp [*]⟩
  · exact ⟨rfl, rfl⟩

/-! ### One step at a time -/

/-- A step of the worker to a phase that leaves the history alone. -/
structure Stepped (engine : Engine) (phase : Phase) : Prop where
  phase : engine.advance.phase = phase
  history : engine.advance.history = engine.history
  framed : engine.Framed engine.advance

theorem stepped_of_eq {ready : Engine} {phase : Phase} (hadvance : engine.advance = ready)
    (hphase : ready.phase = phase) (hhistory : ready.history = engine.history) (hframed : engine.Framed ready) :
    engine.Stepped phase := by
  subst hadvance
  exact ⟨hphase, hhistory, hframed⟩

theorem stepped_begin {ready : Engine} {step : Step} {walk : Option Walk}
    (hadvance : engine.advance = ready.begin job walk step) (hhistory : ready.history = engine.history)
    (hframed : engine.Framed ready) (hruns : step.command.runsAction step.operation.direction = true) :
    ∃ run, run.job = job ∧ run.walk = walk ∧ run.step = step ∧ engine.Stepped (.acting run) := by
  obtain ⟨hacting, hsame⟩ := begin_of_runs step hruns ready job walk
  refine ⟨_, rfl, rfl, rfl, stepped_of_eq hadvance hacting (hsame.trans hhistory) (hframed.trans ?_)⟩
  unfold begin
  simp only [hruns]
  exact ⟨rfl, rfl, rfl, rfl, rfl, rfl⟩

theorem stepped_execute {walk : Option Walk} {command : Command} {stack : StackId}
    (hphase : engine.phase = .choosing job walk) (hgoal : job.goal = .execute command stack) :
    ∃ run, run.job = job ∧ run.walk = none ∧ run.step = ⟨command, stack, .execute⟩ ∧
      engine.Stepped (.acting run) := by
  have hchoose : engine.advance =
      { engine with waiting := withoutTicket job.ticket engine.waiting }.begin job none
        ⟨command, stack, .execute⟩ := by
    simp only [advance, hphase, choose, hgoal]
  exact stepped_begin hchoose rfl ⟨rfl, rfl, rfl, rfl, rfl, rfl⟩ rfl

def goalOf (operation : Operation) (filter : Option Scope) : Goal :=
  match operation with
  | .redo => .redo filter
  | _ => .undo filter

def missingOf (operation : Operation) : EngineError :=
  match operation with
  | .redo => .noMoreRedos
  | _ => .noMoreUndos

theorem advance_moveChosen {walk : Option Walk} {operation : Operation} {filter : Option Scope}
    (hphase : engine.phase = .choosing job walk) (hmove : operation ≠ .execute)
    (hgoal : job.goal = goalOf operation filter) :
    engine.advance = engine.beginMove job operation filter (missingOf operation) := by
  cases operation with
  | execute => contradiction
  | undo => simp only [advance, hphase, choose, hgoal, goalOf, missingOf]
  | redo => simp only [advance, hphase, choose, hgoal, goalOf, missingOf]

theorem stepped_moveChosen {walk : Option Walk} {operation : Operation} {filter : Option Scope}
    (hsteady : engine.Steady) (hphase : engine.phase = .choosing job walk) (hmove : operation ≠ .execute)
    (hgoal : job.goal = goalOf operation filter) :
    (engine.history.target operation.direction filter = none ∧ engine.Stepped .idle) ∨
      ∃ candidate run, engine.history.target operation.direction filter = some candidate ∧ run.job = job ∧
        run.walk = none ∧ run.step = ⟨candidate.command, candidate.stack, operation⟩ ∧
        engine.Stepped (.acting run) := by
  have hchoose := advance_moveChosen hphase hmove hgoal
  unfold beginMove at hchoose
  cases htarget : engine.history.target operation.direction filter with
  | none =>
    rw [htarget] at hchoose
    exact .inl ⟨rfl, stepped_of_eq hchoose rfl rfl (framed_answer ..)⟩
  | some candidate =>
    rw [htarget] at hchoose
    have hmutating := hsteady.mutating candidate.stack candidate.command
      (History.mem_line_of_next (hsteady.sound.next_of_target htarget))
    obtain ⟨run, hjob, hwalk, hstep, hstepped⟩ :=
      stepped_begin hchoose rfl (Framed.refl engine) (by simp [Command.runsAction, hmutating])
    exact .inr ⟨candidate, run, rfl, hjob, hwalk, hstep, hstepped⟩

theorem count_eq (hsound : engine.history.Sound) :
    engine.count = (engine.history.line engine.history.active).length := by
  unfold count withActive History.activeStack
  cases hstack : engine.history.stack? engine.history.active with
  | none => rw [History.line, History.past_of_none hstack, History.future_of_none hstack]; rfl
  | some stack =>
    rw [History.line, List.length_append]
    exact (hsound.holds hstack).count_eq

theorem advance_beginJump (hphase : engine.phase = .choosing job none) (hgoal : job.goal = .jump target) :
    engine.advance = engine.beginJump job target := by
  simp only [advance, hphase, choose, hgoal]

theorem advance_outOfRange {index : Nat} (hsound : engine.history.Sound) (hphase : engine.phase = .choosing job none)
    (hgoal : job.goal = .jump (some index))
    (hrange : (engine.history.line engine.history.active).length ≤ index) :
    engine.advance = engine.answer job
      (.error (.indexOutOfRange index (engine.history.line engine.history.active).length)) := by
  rw [advance_beginJump hphase hgoal, beginJump, count_eq hsound, if_pos hrange]

/-- A jump to a position that is there fixes its way; one to any other is answered. -/
theorem stepped_beginJump (hsound : engine.history.Sound) (hphase : engine.phase = .choosing job none)
    (hgoal : job.goal = .jump target) :
    engine.Stepped
      (match target with
        | none => .choosing job (some ⟨engine.history.active, 0⟩)
        | some index =>
          if (engine.history.line engine.history.active).length ≤ index then .idle
          else .choosing job (some ⟨engine.history.active, index + 1⟩)) := by
  have hchoose := advance_beginJump hphase hgoal
  unfold beginJump at hchoose
  cases target with
  | none => exact stepped_of_eq hchoose rfl rfl ⟨rfl, rfl, rfl, rfl, rfl, rfl⟩
  | some index =>
    dsimp only at hchoose ⊢
    rw [← count_eq hsound]
    split_ifs at hchoose ⊢
    · exact stepped_of_eq hchoose rfl rfl (framed_answer ..)
    · exact stepped_of_eq hchoose rfl rfl ⟨rfl, rfl, rfl, rfl, rfl, rfl⟩

section Walking

variable (hsteady : engine.Steady) (hphase : engine.phase = .choosing job (some walk))
  (hgoal : job.goal = .jump target)

include hphase hgoal

theorem advance_walking : engine.advance = engine.continueJump job walk target := by
  simp only [advance, hphase, choose, hgoal]

include hsteady

theorem advance_arrived (harrived : (engine.history.past walk.stack).length = walk.wanted) :
    engine.advance = engine.answer job (.ok (arrival target)) := by
  rw [advance_walking hphase hgoal]
  unfold continueJump
  cases hstack : engine.history.stack? walk.stack with
  | none => rfl
  | some stack =>
    have happlied := (hsteady.sound.holds hstack).applied_eq
    dsimp only
    rw [if_neg (by omega), if_neg (by omega)]

theorem stepped_arrived (harrived : (engine.history.past walk.stack).length = walk.wanted) :
    engine.Stepped .idle :=
  stepped_of_eq (advance_arrived hsteady hphase hgoal harrived) rfl rfl (framed_answer ..)

theorem stepped_back {command : Command} (hback : walk.wanted < (engine.history.past walk.stack).length)
    (hlast : (engine.history.past walk.stack).getLast? = some command) :
    ∃ run, run.job = job ∧ run.walk = some walk ∧ run.step = ⟨command, walk.stack, .undo⟩ ∧
      engine.Stepped (.acting run) := by
  have hchoose := advance_walking hphase hgoal
  unfold continueJump at hchoose
  cases hstack : engine.history.stack? walk.stack with
  | none =>
    rw [History.past_of_none hstack] at hlast
    cases hlast
  | some stack =>
    have hholds := hsteady.sound.holds hstack
    have hmutating := hsteady.mutating walk.stack command
      (List.mem_append_left _ (List.mem_of_mem_getLast? hlast))
    rw [hstack] at hchoose
    dsimp only at hchoose
    rw [if_pos (by rw [hholds.applied_eq]; exact hback), hholds.undoCommand_eq, hlast] at hchoose
    exact stepped_begin hchoose rfl (Framed.refl engine) (by simp [Command.runsAction, hmutating])

theorem stepped_forth {command : Command} (hforth : (engine.history.past walk.stack).length < walk.wanted)
    (hhead : (engine.history.future walk.stack).head? = some command) :
    ∃ run, run.job = job ∧ run.walk = some walk ∧ run.step = ⟨command, walk.stack, .redo⟩ ∧
      engine.Stepped (.acting run) := by
  have hchoose := advance_walking hphase hgoal
  unfold continueJump at hchoose
  cases hstack : engine.history.stack? walk.stack with
  | none =>
    rw [History.future_of_none hstack] at hhead
    cases hhead
  | some stack =>
    have hholds := hsteady.sound.holds hstack
    have happlied := hholds.applied_eq
    rw [hstack] at hchoose
    dsimp only at hchoose
    rw [if_neg (by omega), if_pos (by omega), hholds.redoCommand_eq, hhead] at hchoose
    exact stepped_begin hchoose rfl (Framed.refl engine) rfl

theorem stepped_end (hforth : (engine.history.past walk.stack).length < walk.wanted)
    (hnone : engine.history.future walk.stack = []) : engine.Stepped .idle := by
  have hchoose := advance_walking hphase hgoal
  unfold continueJump at hchoose
  cases hstack : engine.history.stack? walk.stack with
  | none =>
    rw [hstack] at hchoose
    exact stepped_of_eq hchoose rfl rfl (framed_answer ..)
  | some stack =>
    have hholds := hsteady.sound.holds hstack
    have happlied := hholds.applied_eq
    rw [hstack] at hchoose
    dsimp only at hchoose
    rw [if_neg (by omega), if_pos (by omega), hholds.redoCommand_eq, hnone] at hchoose
    exact stepped_of_eq hchoose rfl rfl (framed_answer ..)

end Walking

theorem stepped_resume (hphase : engine.phase = .resting job walk) (hcurrent : job.generation = engine.generation) :
    engine.Stepped (.choosing job (some walk)) := by
  have hresume : engine.advance = engine.resume job walk := by simp only [advance, hphase]
  rw [resume, if_pos hcurrent] at hresume
  exact stepped_of_eq hresume rfl rfl ⟨rfl, rfl, rfl, rfl, rfl, rfl⟩

/-! ### From phase to phase -/

theorem exists_last {commands : List Command} {number : Nat} (hmore : number < commands.length) :
    ∃ command, commands.getLast? = some command := by
  refine Option.isSome_iff_exists.mp ?_
  rw [List.getLast?_isSome]
  exact List.ne_nil_of_length_pos (Nat.zero_lt_of_lt hmore)

/-- Where the choice of the next action leads: to the answer, to the way of a jump, or to an action. -/
inductive Chosen (job : Job) : Option Walk → Phase → Prop where
  | answered {way : Option Walk} : Chosen job way .idle
  | bound (walk : Walk) : Chosen job none (.choosing job (some walk))
  | started {way : Option Walk} (run : Run) (hjob : run.job = job) : Chosen job way (.acting run)

theorem stepped_choosing (hsteady : engine.Steady) {way : Option Walk} (hphase : engine.phase = .choosing job way) :
    ∃ phase, Chosen job way phase ∧ engine.Stepped phase := by
  have hmove : ∀ operation filter, operation ≠ .execute → job.goal = goalOf operation filter →
      ∃ phase, Chosen job way phase ∧ engine.Stepped phase := by
    intro operation filter hoperation hgoal
    rcases stepped_moveChosen hsteady hphase hoperation hgoal with
      ⟨-, hstepped⟩ | ⟨candidate, run, -, hjob, -, -, hstepped⟩
    · exact ⟨_, .answered, hstepped⟩
    · exact ⟨_, .started run hjob, hstepped⟩
  cases hgoal : job.goal with
  | execute command stack =>
    obtain ⟨run, hjob, -, -, hstepped⟩ := stepped_execute hphase hgoal
    exact ⟨_, .started run hjob, hstepped⟩
  | undo filter => exact hmove .undo filter (by simp) hgoal
  | redo filter => exact hmove .redo filter (by simp) hgoal
  | jump target =>
    cases way with
    | none =>
      refine ⟨_, ?_, stepped_beginJump hsteady.sound hphase hgoal⟩
      cases target with
      | none => exact .bound _
      | some index =>
        dsimp only
        split_ifs
        · exact .answered
        · exact .bound _
    | some walk =>
      rcases Nat.lt_trichotomy (engine.history.past walk.stack).length walk.wanted with hforth | harrived | hback
      · cases hfuture : engine.history.future walk.stack with
        | nil => exact ⟨_, .answered, stepped_end hsteady hphase hgoal hforth hfuture⟩
        | cons command rest =>
          have hhead : (engine.history.future walk.stack).head? = some command := by rw [hfuture]; rfl
          obtain ⟨run, hjob, -, -, hstepped⟩ := stepped_forth hsteady hphase hgoal hforth hhead
          exact ⟨_, .started run hjob, hstepped⟩
      · exact ⟨_, .answered, stepped_arrived hsteady hphase hgoal harrived⟩
      · obtain ⟨command, hlast⟩ := exists_last hback
        obtain ⟨run, hjob, -, -, hstepped⟩ := stepped_back hsteady hphase hgoal hback hlast
        exact ⟨_, .started run hjob, hstepped⟩

/-- The worker's steps change no stack: what an action does to one is done at its end. -/
theorem history_advance (hsteady : engine.Steady) : engine.advance.history = engine.history := by
  cases hphase : engine.phase with
  | idle =>
    simp only [advance, hphase, take]
    split
    · rfl
    · split_ifs <;> rfl
  | choosing job way =>
    obtain ⟨phase, -, hstepped⟩ := stepped_choosing hsteady hphase
    exact hstepped.history
  | acting run => simp only [advance, hphase]
  | resting job walk =>
    simp only [advance, hphase, resume]
    split_ifs <;> rfl

/-- How a move changes what the worker is doing. -/
inductive Transit (engine after : Engine) : Prop where
  | same (hphase : after.phase = engine.phase)
  | ended (hphase : after.phase = .idle)
  | taken (job : Job) (hidle : engine.phase = .idle) (hqueue : engine.queue = job :: after.queue)
      (hcurrent : job.generation = engine.generation) (hphase : after.phase = .choosing job none)
  | bound (job : Job) (walk : Walk) (hchoosing : engine.phase = .choosing job none)
      (hphase : after.phase = .choosing job (some walk))
  | started (way : Option Walk) (run : Run) (hchoosing : engine.phase = .choosing run.job way)
      (hphase : after.phase = .acting run)
  | rested (run : Run) (walk : Walk) (hacting : engine.phase = .acting run)
      (hphase : after.phase = .resting run.job walk)
  | resumed (job : Job) (walk : Walk) (hresting : engine.phase = .resting job walk)
      (hcurrent : job.generation = engine.generation) (hphase : after.phase = .choosing job (some walk))

private theorem transit_advance (hsteady : engine.Steady) : engine.Transit engine.advance := by
  cases hphase : engine.phase with
  | idle =>
    simp only [advance, hphase, take]
    split
    · exact .same rfl
    · next job rest hqueue =>
      split_ifs with hcurrent
      · exact .taken job hphase hqueue hcurrent rfl
      · exact .ended rfl
  | choosing job way =>
    obtain ⟨phase, hchosen, hstepped⟩ := stepped_choosing hsteady hphase
    cases hchosen with
    | answered => exact .ended hstepped.phase
    | bound walk => exact .bound job walk hphase hstepped.phase
    | started run hjob => exact .started way run (hjob ▸ hphase) hstepped.phase
  | acting run =>
    simp only [advance, hphase]
    exact .same rfl
  | resting job walk =>
    simp only [advance, hphase, resume]
    split_ifs with hcurrent
    · exact .resumed job walk hphase hcurrent rfl
    · exact .ended rfl

theorem transit_apply (hsteady : engine.Steady) (move : Move) : engine.Transit (engine.apply move) := by
  cases move with
  | submit request => exact .same (submit_frame engine request).2
  | clear => exact .same rfl
  | setLimit limit => exact .same rfl
  | activate stack => exact .same rfl
  | route scope stack => exact .same (route_frame engine scope stack).2
  | shutDown => exact .same rfl
  | advance => exact transit_advance hsteady
  | report number event => exact .same (report_frame engine number event).2
  | finish outcome =>
    cases hphase : engine.phase with
    | acting run =>
      rcases (finish_of_acting hphase outcome).2.2 with hidle | ⟨walk, -, hresting⟩
      · exact .ended hidle
      · exact .rested run walk hphase hresting
    | _ =>
      refine .same ?_
      show (engine.finish outcome).phase = _
      simp only [finish, hphase]

end Engine

end Retrace
