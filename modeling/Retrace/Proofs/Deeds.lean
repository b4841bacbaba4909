import Retrace.Proofs.Chronicle
import Retrace.Proofs.Overtaking
import Retrace.Proofs.Revision

/-!
# Moves in parts

A move that changes the history does so first, and publishes its events and answers its job afterwards, one deed after
the other. All its deeds together make the move (`apply_eq_deeds`). One of them announces the change whenever there is
one.
-/

namespace Retrace

/-- What is still to be done for a move after the state has been changed. -/
inductive Deed where
  | publish (event : EngineEvent)
  | answer (job : Job) (result : ActionResult)
  | rest (job : Job) (walk : Walk)
  deriving DecidableEq

namespace History

variable {history after last : History}

/-- Nobody who looks at the commands and the cursors of the stacks and at the active stack sees a difference. -/
structure SameView (history after : History) : Prop where
  alike : history.Alike after
  active : after.active = history.active

theorem SameView.refl (history : History) : history.SameView history := ⟨fun _ => rfl, rfl⟩

theorem SameView.trans (hfirst : history.SameView after) (hsecond : after.SameView last) : history.SameView last where
  alike := fun id => (hsecond.alike id).trans (hfirst.alike id)
  active := hsecond.active.trans hfirst.active

end History

namespace Engine

variable {engine after : Engine} {move : Move} {run : Run}

def perform (engine : Engine) : Deed → Engine
  | .publish event => { engine with bus := engine.bus.publish event }
  | .answer job result => engine.answer job result
  | .rest job walk => { engine with phase := .resting job walk }

/-- What comes last after an action: the answer to its job, unless a jump goes on. -/
def lastDeed (run : Run) (result : ActionResult) : Deed :=
  match result, run.walk with
  | .ok _, some walk => .rest run.job walk
  | result, _ => .answer run.job result

/-- The first part of a move, and what is still to be done for it. Only the moves that change the history have more
than one part. -/
def touch (engine : Engine) : Move → Engine × List Deed
  | .clear =>
    ({ engine with generation := engine.generation + 1, waiting := [], history := engine.history.clear },
      [.publish .stateChanged])
  | .setLimit limit =>
    ({ engine with history := (engine.history.setLimit limit).1 },
      if 0 < (engine.history.setLimit limit).2 then [.publish .stateChanged] else [])
  | .activate stack => ({ engine with history := engine.history.activate stack }, [.publish .stateChanged])
  | .finish outcome =>
    match engine.phase with
    | .acting run =>
      let (result, status) := run.step.command.verdict run.step.operation.direction run.previous outcome
      ({ engine with
          statuses := engine.statuses.set run.step.command.id status
          history := if Outcome.succeeded result then (engine.takeEffect run).1 else engine.history },
        (closingEvents run.step result (engine.alters run outcome)).map Deed.publish ++ [lastDeed run result])
    | _ => (engine, [])
  | move => (engine.apply move, [])

private theorem foldl_publish (engine : Engine) (events : List EngineEvent) :
    (events.map Deed.publish).foldl perform engine = { engine with bus := engine.bus.publishAll events } := by
  induction events generalizing engine with
  | nil => simp [Bus.publishAll]
  | cons event events ih =>
    rw [List.map_cons, List.foldl_cons, ih]
    simp [perform, Bus.publish, Bus.publishAll]

theorem touch_finish (hacting : engine.phase = .acting run) (outcome : Outcome) :
    engine.touch (.finish outcome) =
      ({ engine with
          statuses := engine.statuses.set run.step.command.id
            (run.step.command.verdict run.step.operation.direction run.previous outcome).2
          history := if Outcome.succeeded (outcome.settle run.step.command.text) then (engine.takeEffect run).1
            else engine.history },
        (closingEvents run.step (outcome.settle run.step.command.text) (engine.alters run outcome)).map Deed.publish ++
          [lastDeed run (outcome.settle run.step.command.text)]) := by
  simp only [touch, hacting]
  rfl

theorem touch_finish_of_idle (hidle : engine.phase.run? = none) (outcome : Outcome) :
    engine.touch (.finish outcome) = (engine, []) := by
  cases hphase : engine.phase with
  | acting run =>
    rw [hphase] at hidle
    cases hidle
  | _ => simp only [touch, hphase]

/-- **A move is its parts together.** -/
theorem apply_eq_deeds (engine : Engine) (move : Move) :
    engine.apply move = (engine.touch move).2.foldl perform (engine.touch move).1 := by
  cases move with
  | setLimit limit =>
    show engine.setLimit limit = _
    unfold setLimit touch
    dsimp only
    split_ifs
    · rfl
    · simp [Bus.publishAll]
  | finish outcome =>
    cases hphase : engine.phase with
    | acting run =>
      rw [touch_finish hphase, List.foldl_append, foldl_publish, alters]
      show engine.finish outcome = _
      rw [finish_eq hphase]
      cases outcome.settle run.step.command.text with
      | error error => rfl
      | ok value => cases hwalk : run.walk <;> simp only [conclude, lastDeed, hwalk] <;> rfl
    | _ =>
      show engine.finish outcome = _
      simp only [touch, finish, hphase, List.foldl_nil]
  | _ => rfl

/-! ### The history changes in the first part -/

theorem history_perform (engine : Engine) (deed : Deed) : (engine.perform deed).history = engine.history := by
  cases deed <;> rfl

theorem history_touch (engine : Engine) (move : Move) : (engine.touch move).1.history = (engine.apply move).history := by
  rw [apply_eq_deeds]
  generalize (engine.touch move).2 = deeds
  generalize (engine.touch move).1 = ready
  induction deeds generalizing ready with
  | nil => rfl
  | cons deed deeds ih => rw [List.foldl_cons, ← ih, history_perform]

theorem Steady.perform (hsteady : engine.Steady) (deed : Deed) : (engine.perform deed).Steady := by
  constructor
  · rw [history_perform]
    exact hsteady.sound
  · intro id
    rw [history_perform]
    exact hsteady.mutating id

theorem Steady.touch (hsteady : engine.Steady) (move : Move) : (engine.touch move).1.Steady := by
  have hafter := hsteady.change (hsteady.change_apply move)
  constructor
  · rw [history_touch]
    exact hafter.sound
  · intro id
    rw [history_touch]
    exact hafter.mutating id

theorem published_perform (engine : Engine) (deed : Deed) :
    engine.bus.published <+: (engine.perform deed).bus.published := by
  cases deed with
  | publish event => exact List.prefix_append ..
  | _ => exact List.prefix_refl _

theorem published_touch (hsteady : engine.Steady) (move : Move) :
    engine.bus.published <+: (engine.touch move).1.bus.published := by
  have happlied : engine.bus.published <+: (engine.apply move).bus.published := by
    rw [published_apply hsteady move]
    exact List.prefix_append ..
  cases move with
  | finish outcome =>
    cases hphase : engine.phase with
    | acting run => rw [touch_finish hphase]
    | _ => rw [touch_finish_of_idle (by rw [hphase]; rfl)]
  | clear => exact List.prefix_refl _
  | setLimit limit => exact List.prefix_refl _
  | activate stack => exact List.prefix_refl _
  | _ => exact happlied

/-! ### A change is announced -/

private theorem sameView_takeEffect (hnone : (engine.takeEffect run).2 = false) :
    engine.history.SameView (engine.takeEffect run).1 := by
  have hmoved : (engine.history.moveCursor run.step.stack run.step.command.id run.step.operation.direction).2 = false →
      engine.history.SameView
        (engine.history.moveCursor run.step.stack run.step.command.id run.step.operation.direction).1 := by
    intro hstill
    cases hnext : engine.history.isNextTo run.step.stack run.step.command.id run.step.operation.direction with
    | false =>
      rw [History.moveCursor_of_not_next hnext]
      exact ⟨fun _ => rfl, rfl⟩
    | true =>
      unfold History.moveCursor at hstill
      rw [if_pos hnext] at hstill
      cases hstill
  unfold takeEffect at hnone ⊢
  by_cases hcurrent : engine.generation = run.job.generation
  · rw [if_neg (not_not.mpr hcurrent)] at hnone ⊢
    cases hoperation : run.step.operation with
    | execute =>
      rw [hoperation] at hnone
      dsimp only at hnone ⊢
      split_ifs at hnone ⊢
      exact History.SameView.refl _
    | _ =>
      rw [hoperation] at hnone hmoved
      exact hmoved hnone
  · rw [if_pos hcurrent]
    exact History.SameView.refl _

private theorem mem_closingEvents (step : Step) (result : ActionResult) :
    .stateChanged ∈ closingEvents step result true :=
  List.mem_append_right _ (List.mem_singleton.mpr rfl)

/-- A move either changes nothing that can be seen of the history, or has still to announce that it did. -/
theorem sameView_or_mem_deeds (hsteady : engine.Steady) (move : Move) :
    engine.history.SameView (engine.touch move).1.history ∨ .publish .stateChanged ∈ (engine.touch move).2 := by
  have hsame : ∀ {after : History}, after = engine.history → engine.history.SameView after := by
    rintro after rfl
    exact History.SameView.refl _
  cases move with
  | clear => exact .inr (List.mem_singleton.mpr rfl)
  | activate stack => exact .inr (List.mem_singleton.mpr rfl)
  | setLimit limit =>
    by_cases hnone : (engine.history.setLimit limit).2 = 0
    · refine .inl ?_
      show engine.history.SameView (engine.history.setLimit limit).1
      rw [History.setLimit_of_none hnone]
      exact ⟨fun _ => rfl, rfl⟩
    · refine .inr ?_
      show _ ∈ if 0 < (engine.history.setLimit limit).2 then _ else _
      rw [if_pos (Nat.pos_of_ne_zero hnone)]
      exact List.mem_singleton.mpr rfl
  | finish outcome =>
    cases hphase : engine.phase with
    | acting run =>
      rw [touch_finish hphase]
      cases halters : engine.alters run outcome with
      | true =>
        exact .inr (List.mem_append_left _ (List.mem_map_of_mem (mem_closingEvents ..)))
      | false =>
        refine .inl ?_
        unfold alters at halters
        dsimp only
        cases hsucceeded : Outcome.succeeded (outcome.settle run.step.command.text) with
        | false => exact History.SameView.refl _
        | true =>
          rw [hsucceeded, Bool.true_and] at halters
          exact sameView_takeEffect halters
    | _ =>
      rw [touch_finish_of_idle (by rw [hphase]; rfl)]
      exact .inl (History.SameView.refl _)
  | submit request => exact .inl (hsame (submit_frame engine request).1)
  | route scope stack => exact .inl (hsame (route_frame engine scope stack).1)
  | shutDown => exact .inl (hsame rfl)
  | advance => exact .inl (hsame (history_advance hsteady))
  | report number event => exact .inl (hsame (report_frame engine number event).1)

end Engine

end Retrace
