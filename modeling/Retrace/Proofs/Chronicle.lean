import Retrace.Proofs.Turns

/-!
# What is noted along a run

Notes are taken of a run from each move and the state in which it is made: the actions that are started, the events
that are published. `Notice` lists what a move can publish, together with what becomes of the action that runs.
-/

namespace Retrace

def Move.isCall : Move → Bool
  | .clear | .setLimit _ | .activate _ => true
  | _ => false

namespace Engine

variable {α : Type} {engine after : Engine} {move : Move} {job : Job} {run : Run}

/-- What is noted of a run, from each move and the state in which it is made. -/
def along (note : Engine → Move → List α) (engine : Engine) : List Move → List α
  | [] => []
  | move :: moves => note engine move ++ along note (engine.apply move) moves

theorem along_append (note : Engine → Move → List α) (engine : Engine) (first second : List Move) :
    engine.along note (first ++ second) = engine.along note first ++ (engine.applyAll first).along note second := by
  induction first generalizing engine with
  | nil => rfl
  | cons move first ih => rw [List.cons_append, along, ih, along, applyAll_cons, List.append_assoc]

theorem along_concat (note : Engine → Move → List α) (engine : Engine) (moves : List Move) (move : Move) :
    engine.along note (moves ++ [move]) = engine.along note moves ++ note (engine.applyAll moves) move := by
  rw [along_append, along, along, List.append_nil]

def starts (engine : Engine) (move : Move) : List Run :=
  match engine.phase.run? with
  | none => (engine.apply move).phase.run?.toList
  | some _ => []

def begun (engine : Engine) (moves : List Move) : List Run := engine.along starts moves

theorem starts_eq_nil (hrun : (engine.apply move).phase.run? = engine.phase.run?) : engine.starts move = [] := by
  unfold starts
  cases hphase : engine.phase.run? with
  | none => rw [hrun, hphase]; rfl
  | some run => rfl

def announced (engine : Engine) (move : Move) : List EngineEvent :=
  (engine.apply move).bus.published.drop engine.bus.published.length

def alters (engine : Engine) (run : Run) (outcome : Outcome) : Bool :=
  Outcome.succeeded (outcome.settle run.step.command.text) && (engine.takeEffect run).2

inductive Notice (engine : Engine) (move : Move) (after : Engine) : Prop where
  | silent (hpublished : after.bus.published = engine.bus.published) (hrun : after.phase.run? = engine.phase.run?)
      (hruns : after.runs = engine.runs) (hcall : move.isCall = false)
      (hother : ∀ run, engine.phase = .acting run →
        (∀ outcome, move ≠ .finish outcome) ∧ ∀ event, move ≠ .report run.number event)
  | called (events : List EngineEvent) (hevents : ∀ event ∈ events, event = .stateChanged)
      (hpublished : after.bus.published = engine.bus.published ++ events) (hphase : after.phase = engine.phase)
      (hruns : after.runs = engine.runs) (hcall : move.isCall = true)
  | began (run : Run) (hmove : move = .advance) (hidle : engine.phase.run? = none) (hphase : after.phase = .acting run)
      (hjob : engine.phase.job? = some run.job) (hnumber : run.number = engine.runs) (hruns : after.runs = engine.runs + 1)
      (hpublished : after.bus.published = engine.bus.published ++ around run.step true)
  | reported (run : Run) (event : ProgressEvent) (hmove : move = .report run.number event)
      (hacting : engine.phase = .acting run) (hphase : after.phase = engine.phase) (hruns : after.runs = engine.runs)
      (hpublished : after.bus.published = engine.bus.published ++ [.progress run.step.command.id event])
  | ended (run : Run) (outcome : Outcome) (hmove : move = .finish outcome) (hacting : engine.phase = .acting run)
      (hrun : after.phase.run? = none) (hruns : after.runs = engine.runs)
      (hpublished : after.bus.published = engine.bus.published ++
        closingEvents run.step (outcome.settle run.step.command.text) (engine.alters run outcome))

/-! ### The steps of the worker -/

theorem notice_pause (hidle : engine.phase.run? = none) (hafter : after.phase.run? = none)
    (hpublished : after.bus.published = engine.bus.published) (hruns : after.runs = engine.runs) :
    engine.Notice .advance after := by
  refine .silent hpublished (hafter.trans hidle.symm) hruns rfl fun run hacting => ?_
  rw [hacting] at hidle
  cases hidle

private theorem notice_begin {ready : Engine} {walk : Option Walk} {step : Step} (hidle : engine.phase.run? = none)
    (hjob : engine.phase.job? = some job) (hbus : ready.bus = engine.bus) (hnumber : ready.runs = engine.runs)
    (hruns : step.command.runsAction step.operation.direction = true) :
    engine.Notice .advance (ready.begin job walk step) := by
  unfold begin
  simp only [hruns, Bool.not_true]
  refine .began _ rfl hidle rfl hjob hnumber (by rw [← hnumber]; rfl) ?_
  rw [← hbus]
  rfl

theorem runsAction_of_recorded (hsteady : engine.Steady) {id : StackId} {command : Command} {direction : Direction}
    (hnext : engine.history.next direction id = some command) (operation : Operation) :
    command.runsAction operation.direction = true := by
  simp [Command.runsAction, hsteady.mutating id command (History.mem_line_of_next hnext)]

private theorem notice_choose (hsteady : engine.Steady) {way : Option Walk}
    (hphase : engine.phase = .choosing job way) : engine.Notice .advance (engine.choose job way) := by
  have hidle : engine.phase.run? = none := by rw [hphase]; rfl
  have hjob : engine.phase.job? = some job := by rw [hphase]; rfl
  have hanswer : ∀ result, engine.Notice .advance (engine.answer job result) :=
    fun _ => notice_pause hidle rfl rfl rfl
  have hway : ∀ walk, engine.Notice .advance { engine with phase := .choosing job (some walk) } :=
    fun _ => notice_pause hidle rfl rfl rfl
  have hmove : ∀ operation filter missing, engine.Notice .advance (engine.beginMove job operation filter missing) := by
    intro operation filter missing
    unfold beginMove
    split
    · exact hanswer _
    · next candidate htarget =>
      exact notice_begin hidle hjob rfl rfl
        (runsAction_of_recorded hsteady (hsteady.sound.next_of_target htarget) operation)
  unfold choose
  split
  · exact notice_begin hidle hjob rfl rfl rfl
  · exact hmove _ _ _
  · exact hmove _ _ _
  · unfold beginJump
    split
    · exact hway _
    · split_ifs
      · exact hanswer _
      · exact hway _
  · unfold continueJump
    split
    · exact hanswer _
    · next stack hstack =>
      have hnext := fun direction => (hsteady.sound.neighbour_eq direction hstack).symm
      split_ifs
      · split
        · exact hanswer _
        · next command hundo =>
          exact notice_begin hidle hjob rfl rfl
            (runsAction_of_recorded hsteady ((hnext .backward).trans hundo) .undo)
      · split
        · exact hanswer _
        · next command hredo =>
          exact notice_begin hidle hjob rfl rfl
            (runsAction_of_recorded hsteady ((hnext .forward).trans hredo) .redo)
      · exact hanswer _

private theorem notice_advance (hsteady : engine.Steady) : engine.Notice .advance engine.advance := by
  unfold advance
  split
  · next hphase =>
    have hidle : engine.phase.run? = none := by rw [hphase]; rfl
    unfold take
    split
    · exact notice_pause hidle hidle rfl rfl
    · dsimp only
      split_ifs
      · exact notice_pause hidle rfl rfl rfl
      · exact notice_pause hidle rfl rfl rfl
  · next hphase => exact notice_choose hsteady hphase
  · exact .silent rfl rfl rfl rfl fun run _ => ⟨nofun, nofun⟩
  · next hphase =>
    have hidle : engine.phase.run? = none := by rw [hphase]; rfl
    unfold resume
    split_ifs
    · exact notice_pause hidle rfl rfl rfl
    · exact notice_pause hidle rfl rfl rfl

/-! ### What a running action does -/

private theorem published_conclude (engine : Engine) (run : Run) (outcome : Outcome) :
    (engine.conclude run (outcome.settle run.step.command.text)).bus.published = engine.bus.published ++
      closingEvents run.step (outcome.settle run.step.command.text) (engine.alters run outcome) := by
  unfold alters
  generalize outcome.settle run.step.command.text = result
  cases result with
  | error error => rfl
  | ok value => cases hwalk : run.walk <;> simp only [conclude, hwalk] <;> rfl

private theorem runs_conclude (engine : Engine) (run : Run) (result : ActionResult) :
    (engine.conclude run result).runs = engine.runs := by
  cases result <;> cases hwalk : run.walk <;> simp only [conclude, hwalk] <;> rfl

private theorem notice_finish (outcome : Outcome) : engine.Notice (.finish outcome) (engine.finish outcome) := by
  cases hphase : engine.phase with
  | acting run =>
    have hafter := run?_finish hphase outcome
    rw [finish_eq hphase] at hafter ⊢
    exact .ended run outcome rfl hphase hafter (runs_conclude ..) (published_conclude ..)
  | _ =>
    simp only [finish, hphase]
    refine .silent rfl rfl rfl rfl fun run hacting => ?_
    rw [hphase] at hacting
    cases hacting

private theorem notice_report (number : Nat) (event : ProgressEvent) :
    engine.Notice (.report number event) (engine.report number event) := by
  unfold report
  split
  · next run hphase =>
    split_ifs with hnumber
    · subst hnumber
      exact .reported run event rfl hphase rfl rfl rfl
    · refine .silent rfl rfl rfl rfl fun other hacting => ⟨nofun, fun event hreport => hnumber ?_⟩
      obtain rfl := Phase.acting.inj (hphase.symm.trans hacting)
      exact (Move.report.inj hreport).1.symm
  · next hphase => exact .silent rfl rfl rfl rfl fun run hacting => absurd hacting (hphase run)

/-! ### All moves -/

private theorem notice_submit (request : Request) : engine.Notice (.submit request) (engine.submit request).2 := by
  obtain ⟨waiting, queue, nextTicket, running, hsubmit⟩ := exists_submit_eq engine request
  rw [hsubmit]
  exact .silent rfl rfl rfl rfl fun run _ => ⟨nofun, nofun⟩

private theorem notice_route (scope : Scope) (stack : StackId) :
    engine.Notice (.route scope stack) (engine.route scope stack).2 := by
  obtain ⟨routes, hroute⟩ := exists_route_eq engine scope stack
  rw [hroute]
  exact .silent rfl rfl rfl rfl fun run _ => ⟨nofun, nofun⟩

private theorem mem_dropped {dropped : Nat} {event : EngineEvent}
    (hmem : event ∈ if 0 < dropped then [EngineEvent.stateChanged] else []) : event = .stateChanged := by
  split_ifs at hmem
  · exact List.mem_singleton.mp hmem
  · cases hmem

/-- **What a move can publish** is on the list. -/
theorem notice_apply (hsteady : engine.Steady) (move : Move) : engine.Notice move (engine.apply move) := by
  cases move with
  | submit request => exact notice_submit request
  | clear => exact .called [.stateChanged] (fun _ => List.mem_singleton.mp) rfl rfl rfl rfl
  | setLimit limit => exact .called _ (fun _ => mem_dropped) rfl rfl rfl rfl
  | activate stack => exact .called [.stateChanged] (fun _ => List.mem_singleton.mp) rfl rfl rfl rfl
  | route scope stack => exact notice_route scope stack
  | shutDown => exact .silent rfl rfl rfl rfl fun run _ => ⟨nofun, nofun⟩
  | advance => exact notice_advance hsteady
  | report number event => exact notice_report number event
  | finish outcome => exact notice_finish outcome

private theorem Notice.published (hnotice : engine.Notice move after) :
    ∃ events, after.bus.published = engine.bus.published ++ events := by
  cases hnotice with
  | silent hpublished => exact ⟨[], hpublished.trans (List.append_nil _).symm⟩
  | called events _ hpublished => exact ⟨events, hpublished⟩
  | began run _ _ _ _ _ _ hpublished => exact ⟨_, hpublished⟩
  | reported run event _ _ _ _ hpublished => exact ⟨_, hpublished⟩
  | ended run outcome _ _ _ _ hpublished => exact ⟨_, hpublished⟩

private theorem announced_eq {events : List EngineEvent}
    (hpublished : (engine.apply move).bus.published = engine.bus.published ++ events) :
    engine.announced move = events := by
  rw [announced, hpublished, List.drop_left]

theorem published_apply (hsteady : engine.Steady) (move : Move) :
    (engine.apply move).bus.published = engine.bus.published ++ engine.announced move := by
  obtain ⟨events, hpublished⟩ := (notice_apply hsteady move).published
  rw [announced_eq hpublished, hpublished]

end Engine

end Retrace
