import Retrace.Engine.Host
import Retrace.Proofs.Turns

/-!
# Settling

The turns that an engine and its world take up to the first settled state. If that state is reached within
the number of turns that is allowed for, settling ends there.
-/

namespace Retrace.Host

variable {World : Type} {host : Host World} {engine : Engine} {world : World} {run : Run}

/-- So many turns lead to the first settled state. -/
inductive Settles (host : Host World) : Nat → Engine × World → Engine × World → Prop where
  | done {engine : Engine} {world : World} (hsettled : engine.isSettled = true) :
    Settles host 0 (engine, world) (engine, world)
  | turn {number : Nat} {engine : Engine} {world : World} {last : Engine × World}
    (hbusy : engine.isSettled = false) (hrest : Settles host number (host.turn engine world) last) :
    Settles host (number + 1) (engine, world) last

theorem Settles.turnUntil_eq {number bound : Nat} {state last : Engine × World}
    (hsettles : Settles host number state last) (hbound : number ≤ bound) :
    host.turnUntil Engine.isSettled bound state = last := by
  induction hsettles generalizing bound with
  | done hsettled =>
    cases bound with
    | zero => rfl
    | succ bound => rw [turnUntil, if_pos hsettled]
  | turn hbusy hrest ih =>
    cases bound with
    | zero => omega
    | succ bound =>
      rw [turnUntil, if_neg (by simp [hbusy])]
      exact ih (by omega)

theorem isSettled_of_idle (hphase : engine.phase = .idle) (hqueue : engine.queue = []) :
    engine.isSettled = true := by
  simp [Engine.isSettled, hphase, hqueue]

theorem isSettled_of_not_idle (hphase : engine.phase ≠ .idle) : engine.isSettled = false := by
  simp [Engine.isSettled, hphase]

/-! ### The two kinds of turns -/

theorem turn_of_no_run (hrun : engine.phase.run? = none) (world : World) :
    host.turn engine world = (engine.advance, world) := by
  unfold turn
  split
  · next run hphase =>
    rw [hphase] at hrun
    cases hrun
  · rfl

theorem foldl_report (number : Nat) (events : List ProgressEvent) (engine : Engine) :
    engine.Framed (events.foldl (fun engine event => engine.report number event) engine) ∧
      (events.foldl (fun engine event => engine.report number event) engine).history = engine.history ∧
      (events.foldl (fun engine event => engine.report number event) engine).phase = engine.phase := by
  induction events generalizing engine with
  | nil => exact ⟨Engine.Framed.refl engine, rfl, rfl⟩
  | cons event events ih =>
    obtain ⟨hframed, hhistory, hphase⟩ := ih (engine.report number event)
    obtain ⟨hsame, hstill⟩ := Engine.report_frame engine number event
    exact ⟨(Engine.framed_report engine number event).trans hframed, hhistory.trans hsame, hphase.trans hstill⟩

structure Performed (host : Host World) (engine : Engine) (world : World) (run : Run) : Prop where
  outside : (host.turn engine world).2 = (host.perform run.step world).world
  framed : engine.Framed (host.turn engine world).1
  history : (host.turn engine world).1.history =
    if Outcome.succeeded ((host.perform run.step world).outcome.settle run.step.command.text) then
      (engine.takeEffect run).1
    else engine.history
  phase : (host.turn engine world).1.phase =
    if Outcome.succeeded ((host.perform run.step world).outcome.settle run.step.command.text) then
      (match run.walk with
        | some walk => .resting run.job walk
        | none => .idle)
    else .idle

variable (host) in
theorem performed (hphase : engine.phase = .acting run) (world : World) : host.Performed engine world run := by
  obtain ⟨hframed, hhistory, hstill⟩ := foldl_report run.number (host.perform run.step world).reports engine
  have hturn : host.turn engine world =
      (((host.perform run.step world).reports.foldl (fun engine event => engine.report run.number event)
        engine).finish (host.perform run.step world).outcome, (host.perform run.step world).world) := by
    unfold turn
    rw [hphase]
  generalize (host.perform run.step world).reports.foldl (fun engine event => engine.report run.number event)
    engine = reported at hframed hhistory hstill hturn
  rw [hphase] at hstill
  refine ⟨by rw [hturn], ?_, ?_, ?_⟩
  · rw [hturn]
    exact hframed.trans (Engine.framed_finish hstill _)
  · rw [hturn]
    rw [(Engine.finish_of_acting hstill _).2.1, Engine.takeEffect_congr hhistory hframed.generation, hhistory]
  · rw [hturn, Engine.finish_eq hstill]
    cases (host.perform run.step world).outcome.settle run.step.command.text with
    | error error => exact Engine.conclude_error _ run error
    | ok value =>
      cases hwalk : run.walk with
      | none => exact Engine.conclude_ok_of_no_walk hwalk _ value
      | some walk => exact Engine.conclude_ok_walk hwalk _ value

variable (host) in
theorem steady_turn (hsteady : engine.Steady) (world : World) : (host.turn engine world).1.Steady := by
  unfold turn
  split
  · next run hphase =>
    have hreported : ∀ events : List ProgressEvent,
        (events.foldl (fun engine event => engine.report run.number event) engine).Steady := by
      intro events
      induction events using List.reverseRecOn with
      | nil => exact hsteady
      | append_singleton events event ih =>
        rw [List.foldl_append]
        exact ih.change (ih.change_apply (.report run.number event))
    exact (hreported _).change ((hreported _).change_apply (.finish _))
  · exact hsteady.change (hsteady.change_apply .advance)

/-! ### Worlds that know more -/

def ShownBy {View : Type} (view : World → View) (host : Host World) (shown : Host View) : Prop :=
  ∀ step world, shown.perform step (view world) =
    { world := view (host.perform step world).world, reports := (host.perform step world).reports,
      outcome := (host.perform step world).outcome }

section View

variable {View : Type} {view : World → View} {shown : Host View} (hshown : ShownBy view host shown)

include hshown

private theorem ShownBy.turn_eq (engine : Engine) (world : World) :
    shown.turn engine (view world) = ((host.turn engine world).1, view (host.turn engine world).2) := by
  unfold turn
  cases engine.phase with
  | acting run => simp only [hshown run.step world]
  | _ => rfl

/-- What a world knows beyond the view makes no difference to an engine. -/
theorem ShownBy.turnUntil_eq (stop : Engine → Bool) (bound : Nat) (engine : Engine) (world : World) :
    shown.turnUntil stop bound (engine, view world) =
      ((host.turnUntil stop bound (engine, world)).1, view (host.turnUntil stop bound (engine, world)).2) := by
  induction bound generalizing engine world with
  | zero => rfl
  | succ bound ih =>
    rw [turnUntil, turnUntil]
    split_ifs
    · rfl
    · rw [hshown.turn_eq]
      exact ih ..

end View

/-! ### Enough turns -/

private theorem le_foldl_max (numbers : List Nat) (least : Nat) :
    least ≤ numbers.foldl Nat.max least ∧ ∀ number ∈ numbers, number ≤ numbers.foldl Nat.max least := by
  induction numbers generalizing least with
  | nil => simp
  | cons first rest ih =>
    obtain ⟨hleast, hrest⟩ := ih (Nat.max least first)
    refine ⟨(Nat.le_max_left least first).trans hleast, ?_⟩
    intro number hmem
    rcases List.mem_cons.mp hmem with rfl | hmem
    · exact (Nat.le_max_right least number).trans hleast
    · exact hrest number hmem

theorem length_line_le_longest (hsound : engine.history.Sound) (id : StackId) :
    (engine.history.line id).length ≤ (engine.history.stackList.map Stack.count).foldl Nat.max 0 := by
  cases hstack : engine.history.stack? id with
  | none => simp [History.line, History.past_of_none hstack, History.future_of_none hstack]
  | some stack =>
    rw [History.line, List.length_append, ← (hsound.holds hstack).count_eq]
    exact (le_foldl_max _ 0).2 _ (List.mem_map_of_mem (History.mem_of_stack? hstack))

/-- A job may take three turns for each command of a stack, and some more. -/
theorem le_turnBound (hsound : engine.history.Sound) {job : Job} (hqueue : engine.queue = [job]) (id : StackId) :
    3 * (engine.history.line id).length + 20 ≤ turnBound engine := by
  have hlength := length_line_le_longest hsound id
  unfold turnBound
  rw [hqueue]
  dsimp only [List.length_singleton]
  omega

end Retrace.Host
