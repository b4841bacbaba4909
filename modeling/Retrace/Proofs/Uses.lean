import Retrace.Proofs.Chronicle
import Retrace.Proofs.Revision

/-!
# The stacks in the order of their use

A stack is used when a command is recorded on it or its cursor passes one. The uses are noted along a run, and the
numbers by which the engine orders its stacks say the same as these notes: the latest of them whose stack has something
to offer is the choice under a filter.
-/

namespace Retrace

namespace History

variable {history : History} {recent names : List StackId} {id : StackId} {direction : Direction}

def promote (recent : List StackId) (id : StackId) : List StackId := id :: recent.filter (· ≠ id)

def latestFirst (names : List StackId) : List StackId := names.foldl promote []

private theorem findSome?_filter_ne {α : Type} {offer : StackId → Option α} (hnone : offer id = none)
    (recent : List StackId) : (recent.filter (· ≠ id)).findSome? offer = recent.findSome? offer := by
  induction recent with
  | nil => rfl
  | cons first rest ih =>
    by_cases hfirst : first = id
    · rw [List.filter_cons_of_neg (by simpa using hfirst), ih, List.findSome?_cons, hfirst, hnone]
    · rw [List.filter_cons_of_pos (by simpa using hfirst), List.findSome?_cons, List.findSome?_cons, ih]

theorem findSome?_latestFirst {α : Type} (offer : StackId → Option α) (names : List StackId) :
    (latestFirst names).findSome? offer = names.reverse.findSome? offer := by
  induction names using List.reverseRecOn with
  | nil => rfl
  | append_singleton names id ih =>
    have hpromoted : latestFirst (names ++ [id]) = promote (latestFirst names) id := by
      rw [latestFirst, List.foldl_append]
      rfl
    rw [hpromoted, promote, List.reverse_concat, List.findSome?_cons, List.findSome?_cons]
    cases hoffer : offer id with
    | some offered => rfl
    | none => exact (findSome?_filter_ne hoffer _).trans ih

def RecencyAfter (recent : List StackId) (id : StackId) (effect : History × Bool) : Prop :=
  effect.1.Recency (if effect.2 then promote recent id else recent)

theorem Recency.passed (hrecency : history.Recency recent) (hsound : history.Sound) {number : CommandId}
    (hnext : history.isNextTo id number direction = true) :
    (history.moveCursor id number direction).1.Recency (promote recent id) :=
  hrecency.touch id (touched_moveCursor hnext) (settings_moveCursor ..).2.2.2 fun name _ =>
    hsound.line_moveCursor id number direction name

private theorem Recency.moveCursor (hrecency : history.Recency recent) (hsound : history.Sound) (id : StackId)
    (number : CommandId) (direction : Direction) :
    RecencyAfter recent id (history.moveCursor id number direction) := by
  cases hnext : history.isNextTo id number direction with
  | false =>
    rw [moveCursor_of_not_next hnext]
    exact hrecency.kept (fun _ => rfl) (Nat.le_succ _) fun _ => List.Sublist.refl _
  | true =>
    have hmoved : (history.moveCursor id number direction).2 = true := by
      unfold History.moveCursor
      rw [if_pos hnext]
    rw [RecencyAfter, hmoved, if_pos rfl]
    exact hrecency.passed hsound hnext

private theorem Recency.record (hrecency : history.Recency recent) (hsound : history.Sound) (id : StackId)
    (command : Command) : (history.record id command).Recency (promote recent id) := by
  refine hrecency.touch id (touched_record history id command) (settings_record ..).2.2.2 fun name hname => ?_
  have hlists := hsound.lists_record id command name
  rw [if_neg hname] at hlists
  exact line_of_lists hlists

end History

namespace Engine

variable {engine start : Engine} {recent : List StackId} {run : Run}

open History

/-- The stack that a move uses: the one on which a command is recorded or whose cursor passes one. -/
def uses (engine : Engine) : Move → List StackId
  | .finish outcome =>
    match engine.phase with
    | .acting run => if engine.alters run outcome then [run.step.stack] else []
    | _ => []
  | _ => []

private theorem recency_takeEffect (hsound : engine.history.Sound) (hrecency : engine.history.Recency recent)
    (run : Run) : RecencyAfter recent run.step.stack (engine.takeEffect run) := by
  unfold takeEffect
  by_cases hstale : engine.generation ≠ run.job.generation
  · rw [if_pos hstale]
    exact hrecency
  rw [if_neg hstale]
  split
  · split_ifs
    · exact hrecency
    · exact hrecency.record hsound ..
  · exact hrecency.moveCursor hsound ..

private theorem recency_finish (hsteady : engine.Steady) (hrecency : engine.history.Recency recent)
    (outcome : Outcome) :
    (engine.finish outcome).history.Recency ((engine.uses (.finish outcome)).foldl promote recent) := by
  cases hphase : engine.phase with
  | acting run =>
    have heffect := recency_takeEffect hsteady.sound hrecency run
    unfold RecencyAfter at heffect
    rw [(finish_of_acting hphase outcome).2.1]
    simp only [uses, hphase]
    -- A use is noted if the action succeeds and has an effect, and only an effect is given a number.
    by_cases hsucceeded : Outcome.succeeded (outcome.settle run.step.command.text) = true
    · have halters : engine.alters run outcome = (engine.takeEffect run).2 := by rw [alters, hsucceeded, Bool.true_and]
      rw [if_pos hsucceeded, halters]
      split_ifs at heffect ⊢ <;> exact heffect
    · have halters : engine.alters run outcome = false := by simp [alters, hsucceeded]
      rw [if_neg hsucceeded, halters]
      exact hrecency
  | _ =>
    simp only [finish, uses, hphase]
    exact hrecency

/-- The uses along a run are in step with the numbers of the stacks. -/
theorem recency_apply (hsteady : engine.Steady) (hrecency : engine.history.Recency recent) (move : Move) :
    (engine.apply move).history.Recency ((engine.uses move).foldl promote recent) := by
  cases move with
  | submit request =>
    show (engine.submit request).2.history.Recency recent
    rw [(submit_frame engine request).1]
    exact hrecency
  | clear => exact hrecency.clear
  | setLimit limit => exact hrecency.setLimit hsteady.sound limit
  | activate stack => exact hrecency.activate stack
  | route scope stack =>
    show (engine.route scope stack).2.history.Recency recent
    rw [(route_frame engine scope stack).1]
    exact hrecency
  | shutDown => exact hrecency
  | advance =>
    show engine.advance.history.Recency recent
    rw [history_advance hsteady]
    exact hrecency
  | report number event =>
    show (engine.report number event).history.Recency recent
    rw [(report_frame engine number event).1]
    exact hrecency
  | finish outcome => exact recency_finish hsteady hrecency outcome

theorem Fresh.recency (hfresh : start.Fresh) (moves : List Move) :
    (start.applyAll moves).history.Recency (latestFirst (start.along uses moves)) := by
  induction moves using List.reverseRecOn with
  | nil =>
    obtain ⟨registry, routes, defaultStack, limit, capacity, rfl⟩ := hfresh
    exact Recency.start defaultStack limit
  | append_singleton moves move ih =>
    rw [applyAll_concat, along_concat, latestFirst, List.foldl_append]
    exact recency_apply (hfresh.steady.applyAll moves) ih move

theorem Reachable.recency (hreachable : engine.Reachable) : ∃ recent, engine.history.Recency recent := by
  obtain ⟨start, moves, hfresh, rfl⟩ := hreachable
  exact ⟨_, hfresh.recency moves⟩

end Engine

end Retrace
