import Retrace.Ledger.Desk
import Retrace.Proofs.Blocks
import Retrace.Scenario.Rehearsal

/-!
# The life of a command

The status of a command is kept under its number, which all its clones share. It follows from the runs of the clones
alone: it is that of the last run that succeeded, and where none has, it tells whether there was a run. A `Trial` is one
call of a command; whoever runs commands, by hand or on an engine, changes the statuses as `StatusBoard.undergo` says.
-/

namespace Retrace

def Outcome.isValue : Outcome → Bool
  | .returned (.ok _) => true
  | _ => false

theorem Outcome.succeeded_settle (command : String) (outcome : Outcome) :
    succeeded (outcome.settle command) = outcome.isValue := by
  cases outcome with
  | brokeOff reason => rfl
  | returned result =>
    cases result with
    | ok value => rfl
    | error error =>
      unfold settle
      dsimp only
      split_ifs <;> rfl

/-- A call of a command: the side of its action that is asked for, and how the action ends if it is run. -/
structure Trial where
  command : Command
  direction : Direction
  outcome : Outcome

namespace Trial

/-- Of some calls, those that run the action of a command of a number: all but the calls to take back a query. -/
def runsOf (id : CommandId) (trials : List Trial) : List Trial :=
  trials.filter fun trial => trial.command.id = id ∧ (trial.direction = .forward ∨ trial.command.isQuery = false)

def statusAfter (runs : List Trial) : CommandStatus :=
  match (runs.filter fun run => run.outcome.isValue).getLast? with
  | some run =>
    match run.direction with
    | .forward => .applied
    | .backward => .reversed
  | none => if runs.isEmpty then .pending else .failed

variable {trials : List Trial} {trial run : Trial} {id : CommandId}

theorem runsOf_concat (id : CommandId) (trials : List Trial) (trial : Trial) : runsOf id (trials ++ [trial]) =
    if trial.command.id = id ∧ trial.command.runsAction trial.direction = true then runsOf id trials ++ [trial]
    else runsOf id trials := by
  have hruns : (trial.command.id = id ∧ trial.command.runsAction trial.direction = true) =
      (trial.command.id = id ∧ (trial.direction = .forward ∨ trial.command.isQuery = false)) := by
    simp [Command.runsAction]
  simp only [runsOf, List.filter_append, List.filter_singleton, hruns]
  split_ifs with hcounts
  · rw [decide_eq_true hcounts]
    rfl
  · rw [decide_eq_false hcounts]
    exact List.append_nil _

theorem statusAfter_concat (runs : List Trial) (run : Trial) :
    statusAfter (runs ++ [run]) = (statusAfter runs).afterRun run.direction.success run.outcome.isValue := by
  unfold statusAfter
  rw [List.filter_append, List.filter_singleton]
  cases hvalue : run.outcome.isValue with
  | true =>
    rw [cond_true, List.getLast?_concat, CommandStatus.afterRun, if_pos rfl]
    cases hdirection : run.direction <;> simp only [hdirection] <;> rfl
  | false =>
    rw [cond_false, List.append_nil]
    cases (runs.filter fun run => run.outcome.isValue).getLast? with
    | some last => cases hdirection : last.direction <;> simp only [hdirection] <;> rfl
    | none => cases runs <;> rfl

private theorem statusAfter_ne_running (runs : List Trial) : statusAfter runs ≠ .running := by
  unfold statusAfter
  split
  · split <;> nofun
  · split_ifs <;> nofun

end Trial

/-! ### Calls and statuses -/

namespace StatusBoard

variable {board : StatusBoard} {trial : Trial} {id : CommandId}

/-- The statuses after a call, and the answer to it. Taking back a query runs nothing and answers nothing. -/
def undergo (board : StatusBoard) (trial : Trial) : StatusBoard × ActionResult :=
  if trial.command.runsAction trial.direction then
    let (result, status) := trial.command.verdict trial.direction (board.get trial.command.id) trial.outcome
    (board.set trial.command.id status, result)
  else (board, .ok .null)

def undergoAll (board : StatusBoard) (trials : List Trial) : StatusBoard :=
  trials.foldl (fun board trial => (board.undergo trial).1) board

def start : StatusBoard := ⟨[]⟩

theorem undergoAll_concat (board : StatusBoard) (trials : List Trial) (trial : Trial) :
    board.undergoAll (trials ++ [trial]) = ((board.undergoAll trials).undergo trial).1 :=
  List.foldl_concat ..

private theorem set_set (board : StatusBoard) (id : CommandId) (first second : CommandStatus) :
    (board.set id first).set id second = board.set id second := by
  simp [set, List.filter_filter]

theorem undergo_of_runs (board : StatusBoard) (hruns : trial.command.runsAction trial.direction = true) :
    board.undergo trial = (board.set trial.command.id
      (trial.command.verdict trial.direction (board.get trial.command.id) trial.outcome).2,
      trial.outcome.settle trial.command.text) := by
  rw [undergo, if_pos hruns]
  rfl

theorem undergo_of_not_runs (board : StatusBoard) (hruns : trial.command.runsAction trial.direction = false) :
    board.undergo trial = (board, .ok .null) := by
  simp [undergo, hruns]

private theorem get_undergo (board : StatusBoard) (trial : Trial) (id : CommandId) : (board.undergo trial).1.get id =
    if trial.command.id = id ∧ trial.command.runsAction trial.direction = true then
      (board.get id).afterRun trial.direction.success trial.outcome.isValue
    else board.get id := by
  cases hruns : trial.command.runsAction trial.direction with
  | false => simp [undergo_of_not_runs _ hruns]
  | true =>
    rw [undergo_of_runs _ hruns]
    by_cases hid : trial.command.id = id
    · rw [if_pos ⟨hid, rfl⟩, hid, get_set_self, Command.verdict, Outcome.succeeded_settle]
    · rw [if_neg fun hboth => hid hboth.1]
      exact get_set_of_ne _ _ (Ne.symm hid)

theorem get_undergoAll (trials : List Trial) (id : CommandId) :
    (start.undergoAll trials).get id = Trial.statusAfter (Trial.runsOf id trials) := by
  induction trials using List.reverseRecOn with
  | nil => rfl
  | append_singleton trials trial ih =>
    rw [undergoAll_concat, get_undergo, Trial.runsOf_concat, ih]
    split_ifs
    · exact (Trial.statusAfter_concat ..).symm
    · rfl

end StatusBoard

/-! ### Commands that are run by hand -/

namespace Scenario.Rehearsal

variable {rehearsal : Rehearsal} {direction : Direction} {directions : List Direction}

def trial (rehearsal : Rehearsal) (direction : Direction) : Trial :=
  let (instructions, role) := rehearsal.role.play direction
  ⟨rehearsal.role.command, direction, ({ rehearsal with role, status := .running }.carry instructions).2⟩

def runAll (rehearsal : Rehearsal) (directions : List Direction) : Rehearsal :=
  directions.foldl (fun rehearsal direction => (rehearsal.run direction).1) rehearsal

def trials (rehearsal : Rehearsal) : List Direction → List Trial
  | [] => []
  | direction :: directions => rehearsal.trial direction :: (rehearsal.run direction).1.trials directions

private theorem role_emit (rehearsal : Rehearsal) (number : Nat) (event : ProgressEvent) :
    (rehearsal.emit number event).role = rehearsal.role := by
  unfold emit
  split <;> rfl

private theorem role_carry (rehearsal : Rehearsal) (instructions : List (Instruction Call)) :
    (rehearsal.carry instructions).1.role = rehearsal.role := by
  induction instructions generalizing rehearsal with
  | nil => rfl
  | cons instruction rest ih =>
    unfold carry
    dsimp only
    split
    · rfl
    · rw [ih, role_emit]
    · rw [ih, role_emit]
    · exact ih _
    · exact ih _
    · exact ih _

private theorem command_play (role : Role) (direction : Direction) :
    (role.play direction).2.command = role.command := by
  cases direction <;> rfl

theorem run_of_runs (hruns : rehearsal.role.command.runsAction direction = true) :
    (rehearsal.run direction).1.status = (rehearsal.role.command.verdict direction rehearsal.status
        (rehearsal.trial direction).outcome).2 ∧
      (rehearsal.run direction).2 = (rehearsal.trial direction).outcome.settle rehearsal.role.command.text ∧
      (rehearsal.run direction).1.role.command = rehearsal.role.command := by
  refine ⟨?_, ?_, ?_⟩
  · simp only [run, hruns]
    rfl
  · simp only [run, hruns]
    rfl
  · simp only [run, hruns]
    show (carry _ _).1.role.command = _
    rw [role_carry]
    exact command_play ..

/-- Taking back a query runs nothing: only the reporter is closed. -/
theorem run_of_not_runs (hruns : rehearsal.role.command.runsAction direction = false) :
    rehearsal.run direction = (rehearsal.close, .ok .null) := by
  simp only [run, hruns, Bool.not_false, if_true]

private theorem command_run (rehearsal : Rehearsal) (direction : Direction) :
    (rehearsal.run direction).1.role.command = rehearsal.role.command := by
  cases hruns : rehearsal.role.command.runsAction direction with
  | true => exact (run_of_runs hruns).2.2
  | false =>
    rw [run_of_not_runs hruns]
    rfl

theorem undergo_trial {board : StatusBoard} (hstatus : board.get rehearsal.role.command.id = rehearsal.status)
    (direction : Direction) :
    (board.undergo (rehearsal.trial direction)).1.get rehearsal.role.command.id = (rehearsal.run direction).1.status ∧
      (board.undergo (rehearsal.trial direction)).2 = (rehearsal.run direction).2 := by
  cases hruns : rehearsal.role.command.runsAction direction with
  | true =>
    have hcounts : (rehearsal.trial direction).command.runsAction (rehearsal.trial direction).direction = true := hruns
    obtain ⟨hended, hresult, -⟩ := run_of_runs hruns
    rw [StatusBoard.undergo_of_runs board hcounts, hended, hresult, ← hstatus]
    exact ⟨StatusBoard.get_set_self .., rfl⟩
  | false =>
    have hcounts : (rehearsal.trial direction).command.runsAction (rehearsal.trial direction).direction = false := hruns
    rw [StatusBoard.undergo_of_not_runs board hcounts, run_of_not_runs hruns]
    exact ⟨hstatus, rfl⟩

private theorem status_runAll {board : StatusBoard} (hstatus : board.get rehearsal.role.command.id = rehearsal.status)
    (directions : List Direction) : (rehearsal.runAll directions).status =
      (board.undergoAll (rehearsal.trials directions)).get rehearsal.role.command.id := by
  induction directions generalizing rehearsal board with
  | nil => exact hstatus.symm
  | cons direction directions ih =>
    have hnext := (undergo_trial hstatus direction).1
    rw [← command_run rehearsal direction] at hnext ⊢
    exact ih hnext

end Scenario.Rehearsal

namespace Desk

def trial (desk : Desk) (command : Command) (direction : Direction) : Trial :=
  ⟨command, direction, (desk.book.perform command.id direction).outcome⟩

theorem undergo_trial (desk : Desk) (command : Command) (direction : Direction) :
    desk.statuses.undergo (desk.trial command direction) =
      ((desk.run command direction).1.statuses, (desk.run command direction).2) := by
  cases hruns : command.runsAction direction with
  | true =>
    rw [StatusBoard.undergo_of_runs _ hruns]
    simp only [run, hruns]
    rfl
  | false =>
    rw [StatusBoard.undergo_of_not_runs _ hruns]
    simp only [run, hruns]
    rfl

def runAll (desk : Desk) (calls : List (Command × Direction)) : Desk :=
  calls.foldl (fun desk call => (desk.run call.1 call.2).1) desk

def trials (desk : Desk) : List (Command × Direction) → List Trial
  | [] => []
  | (command, direction) :: calls => desk.trial command direction :: (desk.run command direction).1.trials calls

private theorem statuses_runAll (desk : Desk) (calls : List (Command × Direction)) :
    (desk.runAll calls).statuses = desk.statuses.undergoAll (desk.trials calls) := by
  induction calls generalizing desk with
  | nil => rfl
  | cons call calls ih =>
    have hnext : (desk.statuses.undergo (desk.trial call.1 call.2)).1 = (desk.run call.1 call.2).1.statuses := by
      rw [undergo_trial]
    show ((desk.run call.1 call.2).1.runAll calls).statuses = _
    rw [ih, ← hnext]
    rfl

end Desk

/-! ### Commands that are run by an engine -/

def Block.trial (block : Block) : Trial := ⟨block.run.step.command, block.run.step.operation.direction, block.outcome⟩

namespace Journal

variable {journal : Journal} {engine : Engine} {move : Move} {run : Run}

def trials (journal : Journal) : List Trial := journal.blocks.map Block.trial

private theorem trials_finish (journal : Journal) (hacting : engine.phase = .acting run) (outcome : Outcome) :
    (journal.note engine (.finish outcome)).trials =
      journal.trials ++ [⟨run.step.command, run.step.operation.direction, outcome⟩] := by
  rw [note_finish hacting, trials, List.map_append]
  rfl

theorem blocks_note_cases (journal : Journal) (engine : Engine) (move : Move) :
    (journal.note engine move).blocks = journal.blocks ∨
      ∃ run outcome, engine.phase = .acting run ∧ move = .finish outcome ∧ (journal.note engine move).blocks =
        journal.blocks ++ [⟨run, journal.reports, outcome, engine.history, (engine.finish outcome).history⟩] := by
  unfold note
  split
  · split_ifs <;> exact .inl rfl
  · next run outcome hacting => exact .inr ⟨run, outcome, hacting, rfl, rfl⟩
  · exact .inl rfl

theorem blocks_note (hmove : ∀ run outcome, engine.phase = .acting run → move ≠ .finish outcome) :
    (journal.note engine move).blocks = journal.blocks := by
  rcases journal.blocks_note_cases engine move with hsame | ⟨run, outcome, hacting, hends, -⟩
  · exact hsame
  · exact absurd hends (hmove run outcome hacting)

end Journal

namespace Engine

variable {start engine : Engine} {journal : Journal} {move : Move} {moves : List Move} {run : Run}

private theorem Origin.runsAction (horigin : engine.Origin run) (hsteady : engine.Steady) :
    run.step.command.runsAction run.step.operation.direction = true := by
  cases horigin with
  | submitted hoperation =>
    rw [hoperation]
    rfl
  | recorded _ _ hnext => exact runsAction_of_recorded hsteady hnext run.step.operation

/-- The statuses that the actions of a journal leave behind, one of them running while its action does. -/
structure Lived (engine : Engine) (journal : Journal) : Prop where
  counted : ∀ trial ∈ journal.trials, trial.command.runsAction trial.direction = true
  idle : engine.phase.run? = none → engine.statuses = StatusBoard.start.undergoAll journal.trials
  acting : ∀ run, engine.phase = .acting run →
    run.step.command.runsAction run.step.operation.direction = true ∧
      run.previous = (StatusBoard.start.undergoAll journal.trials).get run.step.command.id ∧
      engine.statuses = (StatusBoard.start.undergoAll journal.trials).set run.step.command.id .running

/-- A move that neither starts nor ends an action. -/
theorem Lived.aside (hlived : Lived engine journal) (hstatuses : (engine.apply move).statuses = engine.statuses)
    (hrun : (engine.apply move).phase.run? = engine.phase.run?) :
    Lived (engine.apply move) (journal.note engine move) := by
  have htrials : (journal.note engine move).trials = journal.trials := by
    refine congrArg (List.map Block.trial) (Journal.blocks_note ?_)
    rintro run outcome hacting rfl
    rcases (finish_of_acting hacting outcome).2.2 with hphase | ⟨walk, -, hphase⟩ <;>
      simp [apply, hphase, hacting, Phase.run?] at hrun
  constructor
  · rw [htrials]
    exact hlived.counted
  · rw [htrials, hstatuses, hrun]
    exact hlived.idle
  · intro run hacting
    rw [htrials, hstatuses]
    refine hlived.acting run (phase_of_run? ?_)
    rw [← hrun, hacting]
    rfl

private theorem Lived.note (hlived : Lived engine journal) (hsteady : engine.Steady) (move : Move) :
    Lived (engine.apply move) (journal.note engine move) := by
  cases hsteady.change_apply move with
  | quiet _ _ hstatuses hrun => exact hlived.aside hstatuses hrun
  | joined _ _ _ _ hstatuses hphase => exact hlived.aside hstatuses (by rw [hphase])
  | cleared _ _ _ hstatuses hphase => exact hlived.aside hstatuses (by rw [hphase])
  | limited _ _ _ _ hstatuses hphase => exact hlived.aside hstatuses (by rw [hphase])
  | activated _ _ _ hstatuses hphase => exact hlived.aside hstatuses (by rw [hphase])
  | began run _ _ hidle _ hphase hprevious hstatuses horigin =>
    have htrials : (journal.note engine move).trials = journal.trials := by
      refine congrArg (List.map Block.trial) (Journal.blocks_note ?_)
      rintro run outcome hacting rfl
      rw [hacting] at hidle
      cases hidle
    have hboard := hlived.idle hidle
    constructor
    · rw [htrials]
      exact hlived.counted
    · intro hnone
      rw [hphase] at hnone
      cases hnone
    · intro other hacting
      obtain rfl := Phase.acting.inj (hphase.symm.trans hacting)
      rw [htrials, ← hboard]
      exact ⟨horigin.runsAction hsteady, hprevious, hstatuses⟩
  | ended run outcome hmove hacting _ _ hstatuses hnone =>
    obtain ⟨hruns, hprevious, hrunning⟩ := hlived.acting run hacting
    have htrials := journal.trials_finish hacting outcome
    rw [← hmove] at htrials
    constructor
    · rw [htrials]
      intro trial hmem
      rcases List.mem_append.mp hmem with hold | hnew
      · exact hlived.counted trial hold
      · rw [List.mem_singleton.mp hnew]
        exact hruns
    · intro _
      rw [htrials, StatusBoard.undergoAll_concat, StatusBoard.undergo_of_runs _ hruns, hstatuses, hrunning,
        StatusBoard.set_set, hprevious]
    · intro other hother
      rw [hother] at hnone
      cases hnone

private theorem Fresh.lived (hfresh : start.Fresh) : Lived start ⟨[], []⟩ := by
  obtain ⟨registry, routes, defaultStack, limit, capacity, rfl⟩ := hfresh
  refine ⟨fun trial hmem => ?_, fun _ => rfl, fun run hacting => ?_⟩
  · cases hmem
  · cases hacting

theorem Lived.applyAll (hlived : Lived engine journal) (hsteady : engine.Steady) (moves : List Move) :
    Lived (engine.applyAll moves) (journal.keep engine moves) := by
  induction moves generalizing engine journal with
  | nil => exact hlived
  | cons move moves ih => exact ih (hlived.note hsteady move) (hsteady.change (hsteady.change_apply move))

end Engine

/-! ### The law -/

/-- A command, under whichever clone, has the status that the runs among some calls leave behind. -/
structure Command.Shows (command : Command) (trials : List Trial) (status : CommandStatus) : Prop where
  follows : status = Trial.statusAfter (Trial.runsOf command.id trials)
  not_running : status ≠ .running

theorem Command.shows_undergoAll (command : Command) (trials : List Trial) :
    command.Shows trials ((StatusBoard.start.undergoAll trials).get command.id) := by
  have hstatus := StatusBoard.get_undergoAll trials command.id
  exact ⟨hstatus, hstatus ▸ Trial.statusAfter_ne_running _⟩

/-- How commands live, whoever calls them. -/
structure Lifecycle (start : Engine) (moves : List Move) : Prop where
  /-- After calls with whatever outcomes, all clones of a command show the status that its runs leave behind. -/
  called : ∀ (trials : List Trial) (clone : Command),
    clone.Shows trials ((StatusBoard.start.undergoAll trials).get clone.id)
  /-- A call to take back a query runs nothing, answers null and is no run. -/
  unrun : ∀ (board : StatusBoard) (trials : List Trial) (trial : Trial), trial.direction = .backward →
    trial.command.isQuery = true → board.undergo trial = (board, .ok .null) ∧
      ∀ id, Trial.runsOf id (trials ++ [trial]) = Trial.runsOf id trials
  /-- So it is with a command that is run by hand. -/
  rehearsed : ∀ (role : Scenario.Role) (isAttached : Bool) (directions : List Direction),
    let rehearsal := Scenario.Rehearsal.start role isAttached
    role.command.Shows (rehearsal.trials directions) (rehearsal.runAll directions).status
  /-- Taking back a query by hand only closes the reporter. -/
  untouched : ∀ rehearsal : Scenario.Rehearsal, rehearsal.role.command.isQuery = true →
    rehearsal.run .backward = (rehearsal.close, .ok .null)
  /-- So it is with the commands of a desk. -/
  served : ∀ (calls : List (Command × Direction)) (clone : Command),
    clone.Shows (Desk.start.trials calls) ((Desk.start.runAll calls).statuses.get clone.id)
  /-- So it is with the commands of an engine, but for the one whose action runs. -/
  engaged : ∀ clone : Command, (∀ run, (start.applyAll moves).phase = .acting run → run.step.command.id ≠ clone.id) →
    clone.Shows (start.journal moves).trials ((start.applyAll moves).statuses.get clone.id)
  /-- The one whose action runs is shown as running, and what its runs before left behind is kept for the end. -/
  underway : ∀ run, (start.applyAll moves).phase = .acting run →
    (start.applyAll moves).statuses.get run.step.command.id = .running ∧
      run.step.command.Shows (start.journal moves).trials run.previous
  /-- No action of an engine takes back a query. -/
  counted : ∀ trial ∈ (start.journal moves).trials, trial.direction = .forward ∨ trial.command.isQuery = false

private theorem Engine.Lived.shows {engine : Engine} {journal : Journal} (hlived : Lived engine journal)
    (clone : Command) (hother : ∀ run, engine.phase = .acting run → run.step.command.id ≠ clone.id) :
    clone.Shows journal.trials (engine.statuses.get clone.id) := by
  cases hrun : engine.phase.run? with
  | none =>
    rw [hlived.idle hrun]
    exact clone.shows_undergoAll _
  | some run =>
    have hacting := phase_of_run? hrun
    rw [(hlived.acting run hacting).2.2, StatusBoard.get_set_of_ne _ _ (hother run hacting).symm]
    exact clone.shows_undergoAll _

/-- **The status of a command follows from the runs of its clones**: the last one that succeeded decides, and where none
has, whether there was a run. -/
theorem lifecycle {start : Engine} (hfresh : start.Fresh) (moves : List Move) : Lifecycle start moves := by
  have hlived : Engine.Lived (start.applyAll moves) (start.journal moves) := hfresh.lived.applyAll hfresh.steady moves
  constructor
  · intro trials clone
    exact clone.shows_undergoAll trials
  · intro board trials trial hbackward hquery
    have hruns : trial.command.runsAction trial.direction = false := by simp [Command.runsAction, hbackward, hquery]
    refine ⟨StatusBoard.undergo_of_not_runs board hruns, fun id => ?_⟩
    rw [Trial.runsOf_concat, hruns, if_neg (by simp)]
  · intro role isAttached directions rehearsal
    have hstatus : rehearsal.status = StatusBoard.start.get rehearsal.role.command.id := rfl
    rw [Scenario.Rehearsal.status_runAll hstatus.symm]
    exact role.command.shows_undergoAll _
  · intro rehearsal hquery
    exact Scenario.Rehearsal.run_of_not_runs (by simp [Command.runsAction, hquery])
  · intro calls clone
    rw [Desk.statuses_runAll]
    exact clone.shows_undergoAll _
  · exact hlived.shows
  · intro run hacting
    obtain ⟨-, hprevious, hrunning⟩ := hlived.acting run hacting
    rw [hrunning, hprevious]
    exact ⟨StatusBoard.get_set_self .., run.step.command.shows_undergoAll _⟩
  · intro trial hmem
    have hruns := hlived.counted trial hmem
    simpa [Command.runsAction] using hruns

/-- A command fails, is executed again, and its undo breaks off; another clone of it is then executed without
success. -/
def setbacks : List Move :=
  List.flatten [Engine.underway (.execute (Engine.sampleCommand 0)), [.finish (.returned (.error .noMoreUndos))],
    Engine.executed [0], Engine.underway (.undo none), [.finish (.brokeOff none)],
    Engine.underway (.execute ⟨0, "again", .mutating, .all, none⟩), [.finish (.returned (.error .cancelled))]]

/-- One of the four runs succeeded, and it was an execution. -/
theorem lifecycle_setbacks : Engine.sampleEngine.Fresh ∧ Lifecycle Engine.sampleEngine setbacks ∧
    (Engine.sampleEngine.journal setbacks).trials.map (fun trial => trial.outcome.isValue) =
      [false, true, false, false] ∧
    (Engine.sampleEngine.applyAll setbacks).statuses.get 0 = .applied :=
  ⟨Engine.sampleEngine_fresh, lifecycle Engine.sampleEngine_fresh setbacks, by decide, by decide⟩

end Retrace
