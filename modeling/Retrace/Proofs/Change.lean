import Retrace.Engine.Move
import Retrace.Proofs.History

/-!
# What a move can do

Of an engine's state the history, the statuses, the action that runs and the commands under way decide
everything else. `Change` lists what a move can do to these four, and every invariant of runs is proved
over this list once and not over the moves.
-/

namespace Retrace

def Phase.run? : Phase → Option Run
  | .acting run => some run
  | _ => none

/-- The job that the worker has. -/
def Phase.job? : Phase → Option Job
  | .idle => none
  | .choosing job _ => some job
  | .acting run => some run.job
  | .resting job _ => some job

/-- The command that a goal wants executed. -/
def Goal.command? : Goal → Option Command
  | .execute command _ => some command
  | _ => none

/-- The command that a move submits. -/
def Move.command? : Move → Option Command
  | .submit (.execute command) => some command
  | _ => none

namespace Command

private theorem not_runsAction_iff {command : Command} {direction : Direction} :
    (!command.runsAction direction) = true ↔ direction = .backward ∧ command.isQuery = true := by
  cases direction <;> simp [runsAction]

end Command

namespace Engine

variable {engine after : Engine} {move : Move} {job : Job} {run : Run}

def pending (engine : Engine) : List Command :=
  (engine.phase.job?.toList ++ engine.queue).filterMap fun job => job.goal.command?

/-- Why an action could be started: its job asked for it, or its command stands next to a cursor. -/
inductive Origin (engine : Engine) (run : Run) : Prop where
  | submitted (hoperation : run.step.operation = .execute) (hwalk : run.walk = none)
      (hgoal : run.job.goal = .execute run.step.command run.step.stack)
  | recorded (hoperation : run.step.operation ≠ .execute) (hgoal : run.job.goal.command? = none)
      (hnext : engine.history.next run.step.operation.direction run.step.stack = some run.step.command)

inductive Change (engine : Engine) (move : Move) (after : Engine) : Prop where
  | quiet (hhistory : after.history = engine.history) (hgeneration : after.generation = engine.generation)
      (hstatuses : after.statuses = engine.statuses) (hrun : after.phase.run? = engine.phase.run?)
      (hjob : ∀ job, after.phase.job? = some job →
        engine.phase.job? = some job ∨ job.generation = engine.generation)
      (hpending : after.pending.Sublist engine.pending)
  | joined (command : Command) (hmove : move.command? = some command) (hhistory : after.history = engine.history)
      (hgeneration : after.generation = engine.generation) (hstatuses : after.statuses = engine.statuses)
      (hphase : after.phase = engine.phase) (hpending : after.pending = engine.pending ++ [command])
  | cleared (hmove : move = .clear) (hhistory : after.history = engine.history.clear)
      (hgeneration : after.generation = engine.generation + 1) (hstatuses : after.statuses = engine.statuses)
      (hphase : after.phase = engine.phase) (hpending : after.pending = engine.pending)
  | limited (limit : Nat) (hmove : move = .setLimit limit)
      (hhistory : after.history = (engine.history.setLimit limit).1)
      (hgeneration : after.generation = engine.generation) (hstatuses : after.statuses = engine.statuses)
      (hphase : after.phase = engine.phase) (hpending : after.pending = engine.pending)
  | activated (stack : Option StackId) (hhistory : after.history = engine.history.activate stack)
      (hgeneration : after.generation = engine.generation) (hstatuses : after.statuses = engine.statuses)
      (hphase : after.phase = engine.phase) (hpending : after.pending = engine.pending)
  | began (run : Run) (hhistory : after.history = engine.history)
      (hgeneration : after.generation = engine.generation) (hidle : engine.phase.run? = none)
      (hjob : engine.phase.job? = some run.job) (hphase : after.phase = .acting run)
      (hprevious : run.previous = engine.statuses.get run.step.command.id)
      (hstatuses : after.statuses = engine.statuses.set run.step.command.id .running)
      (horigin : engine.Origin run) (hpending : after.pending = engine.pending)
  | ended (run : Run) (outcome : Outcome) (hmove : move = .finish outcome) (hphase : engine.phase = .acting run)
      (hhistory : after.history =
        if Outcome.succeeded (outcome.settle run.step.command.text) then (engine.takeEffect run).1
        else engine.history)
      (hgeneration : after.generation = engine.generation)
      (hstatuses : after.statuses = engine.statuses.set run.step.command.id
        (run.step.command.verdict run.step.operation.direction run.previous outcome).2)
      (hrun : after.phase.run? = none)
      (hjob : ∀ job, after.phase.job? = some job → engine.phase.job? = some job)
      (hpending : after.pending.Sublist engine.pending)
      (hover : run.walk = none → engine.pending = run.job.goal.command?.toList ++ after.pending)

def OnlyMutating (engine : Engine) : Prop :=
  ∀ id, ∀ command ∈ engine.history.line id, command.isQuery = false

/-! ### The pieces of the worker -/

theorem phase_of_run? {phase : Phase} (hrun : phase.run? = some run) : phase = .acting run := by
  cases phase with
  | acting other => rw [Option.some.inj hrun]
  | idle => cases hrun
  | choosing job walk => cases hrun
  | resting job walk => cases hrun

private theorem pending_answer (engine : Engine) (job : Job) (result : ActionResult) :
    (engine.answer job result).pending = engine.queue.filterMap fun job => job.goal.command? := rfl

theorem pending_of_job (hjob : engine.phase.job? = some job) :
    engine.pending = job.goal.command?.toList ++ engine.queue.filterMap fun job => job.goal.command? := by
  unfold pending
  rw [hjob]
  cases hcommand : job.goal.command? <;> simp [hcommand]

theorem pending_congr (hjob : after.phase.job? = engine.phase.job?) (hqueue : after.queue = engine.queue) :
    after.pending = engine.pending := by
  rw [pending, pending, hjob, hqueue]

theorem pending_sublist (hjob : after.phase.job? = engine.phase.job?) (hqueue : after.queue = engine.queue) :
    after.pending.Sublist engine.pending := by
  rw [pending_congr hjob hqueue]

theorem change_refl (engine : Engine) : engine.Change move engine :=
  .quiet rfl rfl rfl rfl (fun _ hjob => .inl hjob) (List.Sublist.refl _)

theorem change_answer (hjob : engine.phase.job? = some job) (hrun : engine.phase.run? = none)
    (result : ActionResult) : engine.Change move (engine.answer job result) := by
  refine .quiet rfl rfl rfl hrun.symm ?_ ?_
  · intro other hother
    cases hother
  · rw [pending_answer, pending_of_job hjob]
    exact List.sublist_append_right ..

theorem begin_of_runs (step : Step) (hruns : step.command.runsAction step.operation.direction = true)
    (engine : Engine) (job : Job) (walk : Option Walk) :
    (engine.begin job walk step).phase =
        .acting ⟨engine.runs, job, walk, step, engine.statuses.get step.command.id⟩ ∧
      (engine.begin job walk step).history = engine.history := by
  simp [begin, hruns]

theorem change_begin {ready : Engine} {walk walk' : Option Walk} {step : Step}
    (hmutating : engine.OnlyMutating) (hphase : engine.phase = .choosing job walk')
    (hhistory : ready.history = engine.history)
    (hgeneration : ready.generation = engine.generation) (hstatuses : ready.statuses = engine.statuses)
    (hqueue : ready.queue = engine.queue)
    (horigin : engine.Origin ⟨ready.runs, job, walk, step, ready.statuses.get step.command.id⟩) :
    engine.Change move (ready.begin job walk step) := by
  have hjob : engine.phase.job? = some job := by rw [hphase]; rfl
  unfold begin
  dsimp only
  split_ifs with hruns
  · -- Only going back over a query runs nothing, and only a recorded command is gone back over.
    obtain ⟨hdirection, hquery⟩ := Command.not_runsAction_iff.mp hruns
    cases horigin with
    | submitted hoperation =>
      dsimp only at hoperation
      rw [hoperation] at hdirection
      cases hdirection
    | recorded hoperation hgoal hnext =>
      have hrecorded := hmutating step.stack step.command (History.mem_line_of_next hnext)
      rw [hquery] at hrecorded
      cases hrecorded
  · refine .began _ hhistory hgeneration ?_ ?_ rfl ?_ ?_ horigin ?_
    · rw [hphase]; rfl
    · exact hjob
    · rw [hstatuses]
    · rw [hstatuses]
    · exact pending_congr (by rw [hjob]; rfl) hqueue

private theorem change_beginMove (hsound : engine.history.Sound) (hmutating : engine.OnlyMutating)
    {walk : Option Walk} {operation : Operation} {filter : Option Scope} (hphase : engine.phase = .choosing job walk)
    (hoperation : operation ≠ .execute)
    (hgoal : job.goal.command? = none) (missing : EngineError) :
    engine.Change move (engine.beginMove job operation filter missing) := by
  unfold beginMove
  split
  · exact change_answer (by rw [hphase]; rfl) (by rw [hphase]; rfl) _
  · next candidate htarget =>
    have hnext := hsound.next_of_target htarget
    exact change_begin hmutating hphase rfl rfl rfl rfl (.recorded hoperation hgoal hnext)

private theorem change_continueJump (hsound : engine.history.Sound) (hmutating : engine.OnlyMutating) {walk : Walk}
    {target : Option Nat} (hphase : engine.phase = .choosing job (some walk)) (hgoal : job.goal.command? = none) :
    engine.Change move (engine.continueJump job walk target) := by
  have hanswer : ∀ result, engine.Change move (engine.answer job result) :=
    change_answer (by rw [hphase]; rfl) (by rw [hphase]; rfl)
  unfold continueJump
  split
  · exact hanswer _
  · next stack hstack =>
    split_ifs
    · split
      · exact hanswer _
      · next command hundo =>
        have hnext := (hsound.neighbour_eq .backward hstack).symm.trans hundo
        exact change_begin hmutating hphase rfl rfl rfl rfl (.recorded (by simp) hgoal hnext)
    · split
      · exact hanswer _
      · next command hredo =>
        have hnext := (hsound.neighbour_eq .forward hstack).symm.trans hredo
        exact change_begin hmutating hphase rfl rfl rfl rfl (.recorded (by simp) hgoal hnext)
    · exact hanswer _

private theorem change_choose (hsound : engine.history.Sound) (hmutating : engine.OnlyMutating) {walk : Option Walk}
    (hphase : engine.phase = .choosing job walk) : engine.Change move (engine.choose job walk) := by
  unfold choose
  split
  · next command stack walk hgoal =>
    exact change_begin hmutating hphase rfl rfl rfl rfl (.submitted rfl rfl hgoal)
  · next filter walk hgoal =>
    exact change_beginMove hsound hmutating hphase (by simp) (by rw [hgoal]; rfl) _
  · next filter walk hgoal =>
    exact change_beginMove hsound hmutating hphase (by simp) (by rw [hgoal]; rfl) _
  · next target hgoal =>
    have hset : ∀ way : Walk, engine.Change move { engine with phase := .choosing job (some way) } := by
      intro way
      refine .quiet rfl rfl rfl (by rw [hphase]; rfl) ?_ ?_
      · intro other hother
        exact .inl (by rw [hphase]; exact hother)
      · exact pending_sublist (by rw [hphase]; rfl) rfl
    unfold beginJump
    split
    · exact hset _
    · split_ifs
      · exact change_answer (by rw [hphase]; rfl) (by rw [hphase]; rfl) _
      · exact hset _
  · next target way hgoal =>
    exact change_continueJump hsound hmutating hphase (by rw [hgoal]; rfl)

private theorem change_take (hphase : engine.phase = .idle) : engine.Change move engine.take := by
  unfold take
  split
  · exact change_refl engine
  · next job rest hqueue =>
    dsimp only
    have hpending : engine.pending =
        job.goal.command?.toList ++ rest.filterMap fun job => job.goal.command? := by
      rw [pending, hphase, hqueue]
      cases hcommand : job.goal.command? <;> simp [Phase.job?, hcommand]
    split_ifs with hgeneration
    · refine .quiet rfl rfl rfl (by rw [hphase]; rfl) ?_ ?_
      · intro other hother
        exact .inr (Option.some.inj hother ▸ hgeneration)
      · rw [hpending]
        rw [pending_of_job rfl]
    · refine .quiet rfl rfl rfl (by rw [hphase]; rfl) ?_ ?_
      · intro other hother
        cases hother
      · rw [hpending]
        exact List.sublist_append_right ..

private theorem change_resume {walk : Walk} (hphase : engine.phase = .resting job walk) :
    engine.Change move (engine.resume job walk) := by
  have hjob : engine.phase.job? = some job := by rw [hphase]; rfl
  unfold resume
  split_ifs
  · refine .quiet rfl rfl rfl (by rw [hphase]; rfl) ?_ ?_
    · intro other hother
      exact .inl (hjob.trans hother)
    · exact pending_sublist (by rw [hphase]; rfl) rfl
  · exact change_answer hjob (by rw [hphase]; rfl) _

private theorem change_advance (hsound : engine.history.Sound) (hmutating : engine.OnlyMutating) :
    engine.Change move engine.advance := by
  unfold advance
  split
  · next hphase => exact change_take hphase
  · next hphase => exact change_choose hsound hmutating hphase
  · exact change_refl engine
  · next hphase => exact change_resume hphase

/-! ### The end of an action -/

theorem history_conclude (engine : Engine) (run : Run) (result : ActionResult) :
    (engine.conclude run result).history =
      if Outcome.succeeded result then (engine.takeEffect run).1 else engine.history := by
  cases result <;> cases hwalk : run.walk <;> simp [conclude, hwalk, answer, Outcome.succeeded]

theorem conclude_ok_walk {walk : Walk} (hwalk : run.walk = some walk) (engine : Engine) (value : Json) :
    (engine.conclude run (.ok value)).phase = .resting run.job walk := by
  simp [conclude, hwalk]

theorem conclude_ok_of_no_walk (hwalk : run.walk = none) (engine : Engine) (value : Json) :
    (engine.conclude run (.ok value)).phase = .idle := by
  simp [conclude, hwalk, answer]

theorem conclude_error (engine : Engine) (run : Run) (error : EngineError) :
    (engine.conclude run (.error error)).phase = .idle := by
  simp [conclude, answer]

/-- Nothing else that decides what comes next depends on the result of an action. -/
theorem conclude_frame (engine : Engine) (run : Run) (result : ActionResult) :
    (engine.conclude run result).statuses = engine.statuses ∧
      (engine.conclude run result).generation = engine.generation ∧
      (engine.conclude run result).queue = engine.queue := by
  cases result <;> cases hwalk : run.walk <;> simp [conclude, hwalk, answer]

theorem phase_conclude (engine : Engine) (run : Run) (result : ActionResult) :
    (engine.conclude run result).phase = .idle ∨
      ∃ walk, run.walk = some walk ∧ (engine.conclude run result).phase = .resting run.job walk := by
  cases result with
  | error error => exact .inl (conclude_error engine run error)
  | ok value =>
    cases hwalk : run.walk with
    | none => exact .inl (conclude_ok_of_no_walk hwalk engine value)
    | some walk => exact .inr ⟨walk, rfl, conclude_ok_walk hwalk engine value⟩

theorem takeEffect_congr (hhistory : after.history = engine.history)
    (hgeneration : after.generation = engine.generation) (run : Run) :
    after.takeEffect run = engine.takeEffect run := by
  rw [takeEffect, takeEffect, hhistory, hgeneration]

theorem change_conclude {ready : Engine} (outcome : Outcome) (hphase : engine.phase = .acting run)
    (hhistory : ready.history = engine.history) (hgeneration : ready.generation = engine.generation)
    (hstatuses : ready.statuses = engine.statuses.set run.step.command.id
      (run.step.command.verdict run.step.operation.direction run.previous outcome).2)
    (hqueue : ready.queue = engine.queue) :
    engine.Change (.finish outcome) (ready.conclude run (outcome.settle run.step.command.text)) := by
  generalize hresult : outcome.settle run.step.command.text = result
  have hjob : engine.phase.job? = some run.job := by rw [hphase]; rfl
  obtain ⟨hboard, hcount, hline⟩ := conclude_frame ready run result
  have hafter : (ready.conclude run result).history =
      if Outcome.succeeded (outcome.settle run.step.command.text) then (engine.takeEffect run).1
      else engine.history := by
    rw [history_conclude, takeEffect_congr hhistory hgeneration, hhistory, hresult]
  rcases phase_conclude ready run result with hidle | ⟨walk, hwalk, hresting⟩
  · have hpending : engine.pending = run.job.goal.command?.toList ++ (ready.conclude run result).pending := by
      rw [pending_of_job hjob, pending, hidle, hline, hqueue]
      rfl
    refine .ended run outcome rfl hphase hafter (hcount.trans hgeneration) (hboard.trans hstatuses)
      (by rw [hidle]; rfl) ?_ ?_ ?_
    · intro other hother
      rw [hidle] at hother
      cases hother
    · rw [hpending]
      exact List.sublist_append_right ..
    · intro _
      exact hpending
  · refine .ended run outcome rfl hphase hafter (hcount.trans hgeneration) (hboard.trans hstatuses)
      (by rw [hresting]; rfl) ?_ ?_ ?_
    · intro other hother
      rw [hresting] at hother
      exact hjob.trans hother
    · exact pending_sublist (by rw [hjob, hresting]; rfl) (hline.trans hqueue)
    · intro hnone
      rw [hwalk] at hnone
      cases hnone

private theorem change_finish (outcome : Outcome) : engine.Change (.finish outcome) (engine.finish outcome) := by
  unfold finish
  split
  · next run hphase => exact change_conclude outcome hphase rfl rfl rfl rfl
  · exact change_refl engine

theorem finish_eq (hphase : engine.phase = .acting run) (outcome : Outcome) :
    engine.finish outcome =
      { engine with
        statuses := engine.statuses.set run.step.command.id
          (run.step.command.verdict run.step.operation.direction run.previous outcome).2 }.conclude run
        (outcome.settle run.step.command.text) := by
  unfold finish
  rw [hphase]
  rfl

theorem finish_of_acting (hphase : engine.phase = .acting run) (outcome : Outcome) :
    (engine.finish outcome).statuses = engine.statuses.set run.step.command.id
        (run.step.command.verdict run.step.operation.direction run.previous outcome).2 ∧
      (engine.finish outcome).history =
        (if Outcome.succeeded (outcome.settle run.step.command.text) then (engine.takeEffect run).1
          else engine.history) ∧
      ((engine.finish outcome).phase = .idle ∨
        ∃ walk, run.walk = some walk ∧ (engine.finish outcome).phase = .resting run.job walk) := by
  rw [finish_eq hphase]
  refine ⟨(conclude_frame ..).1, ?_, phase_conclude ..⟩
  rw [history_conclude]
  rfl

theorem run?_finish (hphase : engine.phase = .acting run) (outcome : Outcome) :
    (engine.finish outcome).phase.run? = none := by
  rcases (finish_of_acting hphase outcome).2.2 with hidle | ⟨walk, -, hresting⟩
  · rw [hidle]; rfl
  · rw [hresting]; rfl

private theorem change_report (number : Nat) (event : ProgressEvent) :
    engine.Change move (engine.report number event) := by
  unfold report
  split
  · split_ifs
    · exact .quiet rfl rfl rfl rfl (fun job hjob => .inl hjob) (List.Sublist.refl _)
    · exact change_refl engine
  · exact change_refl engine

private theorem change_route (scope : Scope) (stack : StackId) : engine.Change move (engine.route scope stack).2 := by
  unfold route
  split
  · exact change_refl engine
  · split_ifs
    · exact change_refl engine
    · exact .quiet rfl rfl rfl rfl (fun job hjob => .inl hjob) (List.Sublist.refl _)

/-! ### All moves -/

private theorem change_of_queued (hmove : job.goal.command? = move.command?)
    (hhistory : after.history = engine.history) (hgeneration : after.generation = engine.generation)
    (hstatuses : after.statuses = engine.statuses)
    (hphase : after.phase = engine.phase) (hqueue : after.queue = engine.queue ++ [job]) :
    engine.Change move after := by
  have hpending : after.pending = engine.pending ++ move.command?.toList := by
    rw [← hmove, pending, pending, hphase, hqueue, ← List.append_assoc, List.filterMap_append]
    cases hcommand : job.goal.command? <;> simp [hcommand]
  cases hjoining : move.command? with
  | none =>
    refine .quiet hhistory hgeneration hstatuses (by rw [hphase]) ?_ ?_
    · intro other hother
      exact .inl (hphase ▸ hother)
    · rw [hpending, hjoining]
      simp
  | some command =>
    rw [hjoining] at hpending
    exact .joined command hjoining hhistory hgeneration hstatuses hphase hpending

theorem eq_of_checked {check : Except EngineError Unit} {made goal : Goal}
    (hgoal : check.map (fun _ => made) = .ok goal) : goal = made := by
  cases check with
  | error error => cases hgoal
  | ok => exact (Except.ok.inj hgoal).symm

private theorem command?_of_goalFor {request : Request} {goal : Goal} (hgoal : engine.goalFor request = .ok goal) :
    goal.command? = (Move.submit request).command? := by
  cases request with
  | execute command => rw [eq_of_checked hgoal]; rfl
  | undo filter => rw [eq_of_checked hgoal]; rfl
  | redo filter => rw [eq_of_checked hgoal]; rfl
  | jump target => rw [← Except.ok.inj hgoal]; rfl

private theorem change_submit (request : Request) :
    engine.Change (.submit request) (engine.submit request).2 := by
  have hsame : ∀ (ticket : Ticket) (waiting : List Waiting),
      engine.Change (.submit request) { engine with nextTicket := ticket, waiting } :=
    fun _ _ => .quiet rfl rfl rfl rfl (fun job hjob => .inl hjob) (List.Sublist.refl _)
  unfold submit
  split_ifs
  · dsimp only
    split
    · exact hsame _ _
    · next goal hgoal =>
      unfold schedule
      dsimp only
      split_ifs
      · exact change_of_queued (command?_of_goalFor hgoal) rfl rfl rfl rfl rfl
      · exact hsame _ _
  · exact change_refl engine

/-- **What a move can do** is on the list. -/
theorem change_apply (hsound : engine.history.Sound) (hmutating : engine.OnlyMutating) (move : Move) :
    engine.Change move (engine.apply move) := by
  cases move with
  | submit request => exact change_submit request
  | clear => exact .cleared rfl rfl rfl rfl rfl rfl
  | setLimit limit => exact .limited limit rfl rfl rfl rfl rfl rfl
  | activate stack => exact .activated stack rfl rfl rfl rfl rfl
  | route scope stack => exact change_route scope stack
  | shutDown => exact .quiet rfl rfl rfl rfl (fun job hjob => .inl hjob) (List.Sublist.refl _)
  | advance => exact change_advance hsound hmutating
  | report number event => exact change_report number event
  | finish outcome => exact change_finish outcome

end Engine

end Retrace
