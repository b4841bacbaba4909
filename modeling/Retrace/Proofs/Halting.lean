import Retrace.Proofs.Jump
import Retrace.Proofs.Receipts
import Retrace.Proofs.Serving

/-!
# Jumps end

A jump counts nothing: an action may leave the cursor where it is, and a limit change may take it away from the goal.
What grows smaller all the same is the square of the line together with the way that is left (`History.weight`): nothing
comes into a stack while a jump has it, every action shortens the way, and a limit change that lengthens the way
shortens the line.
-/

namespace Retrace

namespace History

variable {history after : History} {walk : Walk} {room : Nat}

def distance (history : History) (walk : Walk) : Nat :=
  ((history.past walk.stack).length - walk.wanted) + (walk.wanted - (history.past walk.stack).length)

/-- How many actions a jump can still start on its way, whatever limits are set meanwhile. -/
def weight (history : History) (walk : Walk) : Nat :=
  (history.line walk.stack).length ^ 2 + history.gap walk

section SameLists

variable (hlists : (after.past walk.stack, after.future walk.stack) = (history.past walk.stack, history.future walk.stack))

include hlists

private theorem gap_of_lists : after.gap walk = history.gap walk := by
  rw [gap, gap, past_of_lists hlists, future_of_lists hlists]

theorem distance_of_lists : after.distance walk = history.distance walk := by
  rw [distance, distance, past_of_lists hlists]

private theorem weight_of_lists : after.weight walk = history.weight walk := by
  rw [weight, weight, line_of_lists hlists, gap_of_lists hlists]
  rfl

end SameLists

theorem weight_lt (history : History) (walk : Walk) :
    history.weight walk < ((history.line walk.stack).length + 1) ^ 2 := by
  have hgap := history.gap_le walk
  rw [weight, Nat.pow_two, Nat.pow_two, Nat.add_mul, Nat.mul_add]
  omega

private theorem weight_of_empty (hline : history.line walk.stack = []) : history.weight walk = 0 := by
  have hless := history.weight_lt walk
  rw [hline] at hless
  exact Nat.lt_one_iff.mp hless

theorem weight_of_shorter (hshorter : (after.line walk.stack).length < (history.line walk.stack).length) :
    after.weight walk < history.weight walk :=
  calc after.weight walk
    _ < ((after.line walk.stack).length + 1) ^ 2 := after.weight_lt walk
    _ ≤ (history.line walk.stack).length ^ 2 := Nat.pow_le_pow_left hshorter 2
    _ ≤ history.weight walk := Nat.le_add_right ..

private theorem distance_back {front : List Command} {passed : Command} {future : List Command}
    (hback : walk.wanted < (history.past walk.stack).length) (hpast : history.past walk.stack = front ++ [passed])
    (hlists : (after.past walk.stack, after.future walk.stack) = (front, future)) :
    after.distance walk + 1 = history.distance walk := by
  have hlength : (history.past walk.stack).length = front.length + 1 := by simp [hpast]
  have hafter : after.past walk.stack = front := past_of_lists hlists
  rw [distance, distance, hafter]
  omega

private theorem distance_forth {passed : Command} {rest : List Command}
    (hforth : (history.past walk.stack).length < walk.wanted)
    (hlists : (after.past walk.stack, after.future walk.stack) = (history.past walk.stack ++ [passed], rest)) :
    after.distance walk + 1 = history.distance walk := by
  have hpast : (after.past walk.stack).length = (history.past walk.stack).length + 1 := by
    rw [past_of_lists hlists, List.length_append, List.length_singleton]
  rw [distance, distance, hpast]
  omega

end History

namespace Engine

variable {engine after : Engine} {move : Move} {job : Job} {run : Run} {walk : Walk} {target : Option Nat}
  {course : Course} {dropped : Nat}

/-! ### The history ahead of a jump -/

/-- The history that the action at hand leaves if it succeeds: a jump goes on from there. -/
def ahead (engine : Engine) : History :=
  match engine.phase with
  | .acting run => (engine.takeEffect run).1
  | _ => engine.history

theorem ahead_of_run (hphase : engine.phase = .acting run) : engine.ahead = (engine.takeEffect run).1 := by
  rw [ahead, hphase]

theorem ahead_of_none (hnone : engine.phase.run? = none) : engine.ahead = engine.history := by
  unfold ahead
  split
  · next run hphase =>
    rw [hphase] at hnone
    cases hnone
  · rfl

theorem OnCourse.job_eq (hcourse : OnCourse course dropped engine) : engine.phase.job? = some course.job := by
  rcases hcourse.phase with hphase | hphase | ⟨run, hphase, hjob, -⟩
  · rw [hphase]; rfl
  · rw [hphase]; rfl
  · rw [hphase, ← hjob]; rfl

theorem OnCourse.line_ahead (hcourse : OnCourse course dropped engine) (id : StackId) :
    engine.ahead.line id = engine.history.line id := by
  rcases hcourse.phase with hphase | hphase | ⟨run, hphase, -, -, -, hmove⟩
  · rw [ahead_of_none (by rw [hphase]; rfl)]
  · rw [ahead_of_none (by rw [hphase]; rfl)]
  · rw [ahead_of_run hphase]
    exact (effect_of_ended hcourse.steady.sound run (.returned (.ok .null))).line_eq hmove id

/-- A call that leaves the stack of a jump alone leaves alone what is ahead of the jump. -/
theorem OnCourse.lists_ahead (hcourse : OnCourse course dropped engine) (hsound : after.history.Sound)
    (hphase : after.phase = engine.phase) (hgeneration : after.generation = engine.generation)
    (hlists : (after.history.past course.walk.stack, after.history.future course.walk.stack) =
      (engine.history.past course.walk.stack, engine.history.future course.walk.stack)) :
    (after.ahead.past course.walk.stack, after.ahead.future course.walk.stack) =
      (engine.ahead.past course.walk.stack, engine.ahead.future course.walk.stack) := by
  have hquiet : engine.phase.run? = none → (after.ahead.past course.walk.stack, after.ahead.future course.walk.stack) =
      (engine.ahead.past course.walk.stack, engine.ahead.future course.walk.stack) := by
    intro hnone
    rw [ahead_of_none hnone, ahead_of_none (hphase ▸ hnone)]
    exact hlists
  rcases hcourse.phase with hready | hready | ⟨run, hacting, -, -, hstack, hmove⟩
  · exact hquiet (by rw [hready]; rfl)
  · exact hquiet (by rw [hready]; rfl)
  rw [ahead_of_run hacting, ahead_of_run (hphase.trans hacting)]
  by_cases hcurrent : engine.generation = run.job.generation
  · rw [takeEffect_of_move hcurrent hmove, takeEffect_of_move (hgeneration.trans hcurrent) hmove]
    rw [← hstack] at hlists ⊢
    exact hcourse.steady.sound.lists_moveCursor_congr hlists hsound _ _
  · rw [takeEffect_of_stale hcurrent, takeEffect_of_stale (hgeneration ▸ hcurrent)]
    exact hlists

/-! ### One move -/

def stage : Phase → Nat
  | .idle => 0
  | .choosing _ _ => 1
  | .resting _ _ => 2
  | .acting _ => 3

theorem stage_pos {phase : Phase} (hbusy : phase ≠ .idle) : 0 < stage phase := by
  cases phase with
  | idle => contradiction
  | choosing job way => exact Nat.succ_pos _
  | acting run => exact Nat.succ_pos _
  | resting job walk => exact Nat.succ_pos _

/-- What a move can do to a jump on its way that goes on: only a new action brings it nearer to its goal, by one command,
and only a limit change that shortens the line, or a clear, can take it elsewhere. -/
inductive Bend (engine : Engine) (walk : Walk) (move : Move) (after : Engine) : Prop where
  | kept (hlists : (after.ahead.past walk.stack, after.ahead.future walk.stack) =
        (engine.ahead.past walk.stack, engine.ahead.future walk.stack))
      (hstarts : engine.starts move = [])
      (hstage : stage after.phase + (if engine.isTurn move then 1 else 0) ≤ stage engine.phase)
  | started (run : Run) (hstarts : engine.starts move = [run]) (hbefore : stage engine.phase = 1)
      (hafter : stage after.phase = 3)
      (hline : after.ahead.line walk.stack = engine.ahead.line walk.stack)
      (hgap : after.ahead.gap walk + 1 ≤ engine.ahead.gap walk)
      (hdistance : after.ahead.distance walk + 1 = engine.ahead.distance walk)
  | trimmed (limit : Nat) (hmove : move = .setLimit limit) (hphase : after.phase = engine.phase)
      (hshorter : (after.history.line walk.stack).length < (engine.history.line walk.stack).length)
  | cleared (hmove : move = .clear) (hphase : after.phase = engine.phase) (hline : after.history.line walk.stack = [])

theorem starts_of_none (hnone : (engine.apply move).phase.run? = none) : engine.starts move = [] := by
  unfold starts
  split
  · rw [hnone]
    rfl
  · rfl

theorem isTurn_of_ne (hadvance : move ≠ .advance) (hfinish : ∀ outcome, move ≠ .finish outcome) :
    engine.isTurn move = false := by
  unfold isTurn
  split
  · exact absurd rfl hadvance
  · exact absurd rfl (hfinish _)
  · rfl

theorem OnCourse.bend_quiet (hcourse : OnCourse course dropped engine) (hsound : (engine.apply move).history.Sound)
    (hphase : (engine.apply move).phase = engine.phase)
    (hgeneration : (engine.apply move).generation = engine.generation)
    (hlists : ((engine.apply move).history.past course.walk.stack, (engine.apply move).history.future course.walk.stack) =
      (engine.history.past course.walk.stack, engine.history.future course.walk.stack))
    (hturn : engine.isTurn move = false) : engine.Bend course.walk move (engine.apply move) := by
  refine .kept (hcourse.lists_ahead hsound hphase hgeneration hlists) (starts_eq_nil (by rw [hphase])) ?_
  rw [hphase, hturn]
  exact Nat.le_refl _

theorem OnCourse.bend_still (hcourse : OnCourse course dropped engine) (hstill : engine.apply move = engine)
    (hturn : engine.isTurn move = false) : engine.Bend course.walk move engine := by
  have hbend : engine.Bend course.walk move (engine.apply move) :=
    hcourse.bend_quiet (by rw [hstill]; exact hcourse.steady.sound) (by rw [hstill]) (by rw [hstill])
      (by rw [hstill]) hturn
  rw [hstill] at hbend
  exact hbend

private theorem OnCourse.bend_limited (hcourse : OnCourse course dropped engine) (limit : Nat) :
    engine.Bend course.walk (.setLimit limit) (engine.apply (.setLimit limit)) := by
  have hlists := hcourse.steady.sound.lists_setLimit limit course.walk.stack
  rcases Stack.within_eq_or_lt limit (engine.history.past course.walk.stack)
    (engine.history.future course.walk.stack) with hsame | hshorter
  · exact hcourse.bend_quiet (hcourse.steady.sound.setLimit limit) rfl rfl (hlists.trans hsame)
      (isTurn_of_ne nofun nofun)
  · refine .trimmed limit rfl rfl ?_
    show ((engine.history.setLimit limit).1.line _).length < _
    rw [History.line_of_lists hlists]
    exact hshorter

theorem bend_of_stepped {command : Command} {operation : Operation} (hphase : engine.phase = .choosing job (some walk))
    (hcurrent : job.generation = engine.generation) (hjob : run.job = job) (hmove : operation ≠ .execute)
    (hstep : run.step = ⟨command, walk.stack, operation⟩) (hstepped : engine.Stepped (.acting run))
    {history : History} (hhistory : history = (engine.history.moveCursor walk.stack command.id operation.direction).1)
    (hline : history.line walk.stack = engine.history.line walk.stack)
    (hgap : history.gap walk + 1 ≤ engine.history.gap walk)
    (hdistance : history.distance walk + 1 = engine.history.distance walk) :
    engine.Bend walk .advance engine.advance := by
  have hnone : engine.phase.run? = none := by rw [hphase]; rfl
  have hahead : engine.advance.ahead = history := by
    have hgeneration : engine.advance.generation = run.job.generation := by
      rw [hstepped.framed.generation, hjob, hcurrent]
    rw [ahead_of_run hstepped.phase, takeEffect_of_move hgeneration (by rw [hstep]; exact hmove), hstepped.history,
      hstep, hhistory]
  refine .started run ?_ (by rw [hphase]; rfl) (by rw [hstepped.phase]; rfl) ?_ ?_ ?_
  · rw [Engine.starts, hnone]
    show engine.advance.phase.run?.toList = [run]
    rw [hstepped.phase]
    rfl
  all_goals rw [hahead, ahead_of_none hnone]
  · exact hline
  · exact hgap
  · exact hdistance

theorem bend_walking (hreachable : engine.Reachable) (hphase : engine.phase = .choosing job (some walk))
    (hgoal : job.goal = .jump target) (hbusy : engine.advance.phase ≠ .idle) :
    engine.Bend walk .advance engine.advance := by
  have hsteady := hreachable.steady
  have hsound := hsteady.sound
  -- An action has a command to run on, so that no clear has come between.
  have hcurrent : engine.history.line walk.stack ≠ [] → job.generation = engine.generation := fun hline =>
    (hreachable.current (show engine.phase.job? = some job by rw [hphase]; rfl)).resolve_right fun hnone =>
      hline (hnone walk.stack)
  rcases Nat.lt_trichotomy (engine.history.past walk.stack).length walk.wanted with hforth | harrived | hback
  · cases hfuture : engine.history.future walk.stack with
    | nil => exact absurd (stepped_end hsteady hphase hgoal hforth hfuture).phase hbusy
    | cons command rest =>
      have hhead : (engine.history.future walk.stack).head? = some command := by rw [hfuture]; rfl
      obtain ⟨run, hjob, -, hstep, hstepped⟩ := stepped_forth hsteady hphase hgoal hforth hhead
      have hlists := hsound.lists_passed_forth hfuture
      refine bend_of_stepped hphase (hcurrent ?_) hjob (by decide : Operation.redo ≠ .execute) hstep hstepped rfl ?_
        (History.gap_forth hforth hfuture hlists) (History.distance_forth hforth hlists)
      · simp [History.line, hfuture]
      · rw [Operation.direction, History.line_of_lists hlists, History.line, hfuture]
        simp
  · exact absurd (stepped_arrived hsteady hphase hgoal harrived).phase hbusy
  · obtain ⟨command, hlast⟩ := exists_last hback
    obtain ⟨run, hjob, -, hstep, hstepped⟩ := stepped_back hsteady hphase hgoal hback hlast
    obtain ⟨front, hpast⟩ := List.getLast?_eq_some_iff.mp hlast
    have hlists := hsound.lists_passed_back hpast
    refine bend_of_stepped hphase (hcurrent ?_) hjob (by decide : Operation.undo ≠ .execute) hstep hstepped rfl ?_
      (History.gap_back hback hpast hlists).le (History.distance_back hback hpast hlists)
    · simp [History.line, hpast]
    · rw [Operation.direction, History.line_of_lists hlists, History.line, hpast]
      simp

private theorem OnCourse.bend_advance (hcourse : OnCourse course dropped engine) (hreachable : engine.Reachable)
    (hgoal : course.job.goal = .jump target) (hbusy : engine.advance.phase.job? = some course.job) :
    engine.Bend course.walk .advance engine.advance := by
  have hidle : engine.advance.phase ≠ .idle := by
    intro hidle
    rw [hidle] at hbusy
    cases hbusy
  rcases hcourse.phase with hphase | hphase | ⟨run, hphase, -⟩
  · exact bend_walking hreachable hphase hgoal hidle
  · by_cases hcurrent : course.job.generation = engine.generation
    · have hstepped := stepped_resume hphase hcurrent
      have hnone : engine.advance.phase.run? = none := by rw [hstepped.phase]; rfl
      refine .kept ?_ (starts_of_none hnone) ?_
      · rw [ahead_of_none hnone, ahead_of_none (by rw [hphase]; rfl), hstepped.history]
      · rw [hstepped.phase, isTurn_iff.mpr (.inl ⟨by rw [hphase]; rfl, rfl⟩), hphase]
        exact Nat.le_refl _
    · refine absurd ?_ hidle
      simp only [advance, hphase, resume, if_neg hcurrent]
      rfl
  · have hsame : engine.apply .advance = engine := by
      show engine.advance = engine
      simp only [advance, hphase]
    rw [show engine.advance = engine from hsame]
    exact hcourse.bend_still hsame (by simp [isTurn, hphase, Phase.run?])

private theorem OnCourse.bend_finish (hcourse : OnCourse course dropped engine) (outcome : Outcome)
    (hbusy : (engine.finish outcome).phase.job? = some course.job) :
    engine.Bend course.walk (.finish outcome) (engine.finish outcome) := by
  have hquiet : engine.phase.run? = none → engine.Bend course.walk (.finish outcome) (engine.finish outcome) := by
    intro hnone
    have hsame : engine.apply (.finish outcome) = engine := by
      show engine.finish outcome = engine
      unfold finish
      split
      · next run hphase =>
        rw [hphase] at hnone
        cases hnone
      · rfl
    rw [show engine.finish outcome = engine from hsame]
    exact hcourse.bend_still hsame (by simp [isTurn, hnone])
  rcases hcourse.phase with hphase | hphase | ⟨run, hphase, -⟩
  · exact hquiet (by rw [hphase]; rfl)
  · exact hquiet (by rw [hphase]; rfl)
  -- A jump that goes on after an action has had a success.
  have hnone := run?_finish hphase outcome
  obtain ⟨-, hhistory, hidle | ⟨way, -, hresting⟩⟩ := finish_of_acting hphase outcome
  · rw [hidle] at hbusy
    cases hbusy
  have hsucceeded : Outcome.succeeded (outcome.settle run.step.command.text) = true := by
    rw [finish_eq hphase] at hresting
    cases hresult : outcome.settle run.step.command.text with
    | ok value => rfl
    | error error =>
      rw [hresult, conclude_error] at hresting
      cases hresting
  rw [if_pos hsucceeded] at hhistory
  refine .kept ?_ (starts_of_none hnone) ?_
  · rw [ahead_of_none hnone, ahead_of_run hphase, hhistory]
  · rw [hresting, isTurn_iff.mpr (.inr ⟨run, outcome, hphase, rfl⟩), hphase]
    exact Nat.le_refl _

/-- **One move** of a run in which a jump goes on. -/
theorem OnCourse.bend (hcourse : OnCourse course dropped engine) (hreachable : engine.Reachable)
    (hgoal : course.job.goal = .jump target) (move : Move) (hbusy : (engine.apply move).phase.job? = some course.job) :
    engine.Bend course.walk move (engine.apply move) := by
  have hsound : (engine.apply move).history.Sound := (hcourse.steady.change (hcourse.steady.change_apply move)).sound
  have hframe : (engine.apply move).history = engine.history → (engine.apply move).phase = engine.phase →
      (engine.apply move).generation = engine.generation → engine.isTurn move = false →
      engine.Bend course.walk move (engine.apply move) := fun hhistory hphase hgeneration =>
    hcourse.bend_quiet hsound hphase hgeneration (by rw [hhistory])
  cases move with
  | submit request =>
    obtain ⟨waiting, queue, nextTicket, running, hsubmit⟩ := exists_submit_eq engine request
    have hsame : engine.apply (.submit request) = { engine with waiting, queue, nextTicket, running } := hsubmit
    exact hframe (by rw [hsame]) (by rw [hsame]) (by rw [hsame]) (isTurn_of_ne nofun nofun)
  | clear =>
    refine .cleared rfl rfl ?_
    exact History.line_clear engine.history _
  | setLimit limit => exact hcourse.bend_limited limit
  | activate stack =>
    exact hcourse.bend_quiet hsound rfl rfl (History.alike_activate engine.history stack _) (isTurn_of_ne nofun nofun)
  | route scope stack =>
    obtain ⟨routes, hroute⟩ := exists_route_eq engine scope stack
    have hsame : engine.apply (.route scope stack) = { engine with routes } := hroute
    exact hframe (by rw [hsame]) (by rw [hsame]) (by rw [hsame]) (isTurn_of_ne nofun nofun)
  | shutDown => exact hframe rfl rfl rfl (isTurn_of_ne nofun nofun)
  | advance => exact hcourse.bend_advance hreachable hgoal hbusy
  | report number event =>
    obtain ⟨hhistory, hphase⟩ := report_frame engine number event
    exact hframe hhistory hphase (framed_report engine number event).generation (isTurn_of_ne nofun nofun)
  | finish outcome => exact hcourse.bend_finish outcome hbusy

/-! ### How much is left -/

/-- How many steps of the worker a jump is at most away from its answer. -/
def outstanding (engine : Engine) (walk : Walk) : Nat := 3 * engine.ahead.weight walk + stage engine.phase

/-- A move of a run in which a jump goes on pays for what it starts, and for the step that the worker makes. -/
structure Pays (engine : Engine) (walk : Walk) (move : Move) (after : Engine) : Prop where
  actions : (engine.starts move).length + after.ahead.weight walk ≤ engine.ahead.weight walk
  turns : (if engine.isTurn move then 1 else 0) + after.outstanding walk ≤ engine.outstanding walk

theorem pays_of_call (hphase : after.phase = engine.phase) (hstarts : engine.starts move = [])
    (hturn : engine.isTurn move = false) (hweight : after.ahead.weight walk ≤ engine.ahead.weight walk) :
    engine.Pays walk move after := by
  constructor
  · rw [hstarts, List.length_nil, Nat.zero_add]
    exact hweight
  · rw [hturn, outstanding, outstanding, hphase]
    simp only [Bool.false_eq_true, if_false]
    omega

theorem OnCourse.pays (hcourse : OnCourse course dropped engine) (hreachable : engine.Reachable)
    (hgoal : course.job.goal = .jump target) (move : Move) (hbusy : (engine.apply move).phase.job? = some course.job) :
    engine.Pays course.walk move (engine.apply move) := by
  have hafter := (hcourse.apply hgoal move hbusy).line_ahead course.walk.stack
  have hbefore := hcourse.line_ahead course.walk.stack
  cases hcourse.bend hreachable hgoal move hbusy with
  | kept hlists hstarts hstage =>
    have hweight := History.weight_of_lists hlists
    constructor
    · rw [hstarts, hweight, List.length_nil, Nat.zero_add]
    · rw [outstanding, outstanding, hweight]
      omega
  | started run hstarts hchoosing hacting hline hgap =>
    have hweight : (engine.apply move).ahead.weight course.walk + 1 ≤ engine.ahead.weight course.walk := by
      rw [History.weight, History.weight, hline]
      omega
    constructor
    · rw [hstarts, List.length_singleton]
      omega
    · rw [outstanding, outstanding, hchoosing, hacting]
      split_ifs <;> omega
  | trimmed limit hmove hphase hshorter =>
    rw [← hafter, ← hbefore] at hshorter
    subst hmove
    exact pays_of_call hphase (starts_eq_nil (by rw [hphase])) (isTurn_of_ne nofun nofun)
      (History.weight_of_shorter hshorter).le
  | cleared hmove hphase hline =>
    rw [← hafter] at hline
    subst hmove
    refine pays_of_call hphase (starts_eq_nil (by rw [hphase])) (isTurn_of_ne nofun nofun) ?_
    rw [History.weight_of_empty hline]
    exact Nat.zero_le _

/-! ### The end of a job -/

theorem answered_of_left (hjob : engine.phase.job? = some job) (hleft : (engine.apply move).phase.job? ≠ some job) :
    (engine.apply move).phase = .idle ∧ ∃ result, (job.ticket, result) ∈ (engine.apply move).answers := by
  have hbusy : engine.phase ≠ .idle := by
    intro hidle
    rw [hidle] at hjob
    cases hjob
  cases engine.passage_apply move with
  | kept hsame => exact absurd (hsame.trans hjob) hleft
  | joined request goal hmove hphase => exact absurd (hphase ▸ hjob) hleft
  | cleared hmove hphase => exact absurd (hphase ▸ hjob) hleft
  | taken other hmove hidle => exact absurd hidle hbusy
  | dropped other hmove hidle => exact absurd hidle hbusy
  | answered other result hother hphase hqueue hanswers =>
    obtain rfl : other = job := Option.some.inj (hother.symm.trans hjob)
    exact ⟨hphase, result, hanswers ▸ List.mem_append_right _ (List.mem_singleton.mpr rfl)⟩

theorem not_busy_of_answered (hnumbered : engine.Numbered) {result : ActionResult}
    (hanswer : (job.ticket, result) ∈ engine.answers) : engine.phase.job? ≠ some job := fun hjob =>
  (hnumbered.not_answered (mem_unanswered_of_job hjob) hanswer).false

theorem answered_applyAll {result : ActionResult} {ticket : Ticket} (hanswer : (ticket, result) ∈ engine.answers)
    (moves : List Move) : (ticket, result) ∈ (engine.applyAll moves).answers :=
  (engine.answers_extended_applyAll moves).subset hanswer

theorem countP_begun_of_answered (hreachable : engine.Reachable) {result : ActionResult}
    (hanswer : (job.ticket, result) ∈ engine.answers) (moves : List Move) :
    (engine.begun moves).countP (fun run => run.job = job) = 0 := by
  induction moves generalizing engine with
  | nil => rfl
  | cons move moves ih =>
    have hrest := ih (hreachable.applyAll [move]) (answered_applyAll hanswer [move])
    rw [begun, along, List.countP_append, ← begun]
    refine Nat.add_eq_zero_iff.mpr ⟨List.countP_eq_zero.mpr fun run hrun hown => ?_, hrest⟩
    have hjob := job_of_starts hreachable.steady hrun
    rw [of_decide_eq_true hown] at hjob
    exact not_busy_of_answered hreachable.numbered hanswer hjob

theorem busy_of_busy (hreachable : engine.Reachable) (hjob : engine.phase.job? = some job) {moves : List Move}
    (hbusy : (engine.applyAll moves).phase.job? = some job) :
    ∀ earlier, earlier <+: moves → (engine.applyAll earlier).phase.job? = some job := by
  induction moves generalizing engine with
  | nil =>
    intro earlier hprefix
    rw [List.prefix_nil.mp hprefix]
    exact hjob
  | cons move moves ih =>
    have hnow : (engine.apply move).phase.job? = some job := by
      by_contra hleft
      obtain ⟨-, result, hanswer⟩ := answered_of_left hjob hleft
      exact not_busy_of_answered (hreachable.applyAll (move :: moves)).numbered (answered_applyAll hanswer moves) hbusy
    intro earlier hprefix
    cases earlier with
    | nil => exact hjob
    | cons first rest =>
      obtain ⟨rfl, hrest⟩ := List.cons_prefix_cons.mp hprefix
      exact ih (hreachable.applyAll [first]) hnow hbusy rest hrest

/-! ### Whole jumps -/

section Jumping

variable (hcourse : OnCourse course dropped engine) (hreachable : engine.Reachable)
  (hgoal : course.job.goal = .jump target)

include hcourse hreachable hgoal

/-- **A jump starts only so many actions.** -/
theorem OnCourse.countP_begun_le (moves : List Move) :
    (engine.begun moves).countP (fun run => run.job = course.job) ≤ engine.ahead.weight course.walk := by
  induction moves generalizing engine dropped with
  | nil => exact Nat.zero_le _
  | cons move moves ih =>
    have hnext : (engine.apply move).Reachable := hreachable.applyAll [move]
    rw [begun, along, List.countP_append, ← begun]
    by_cases hbusy : (engine.apply move).phase.job? = some course.job
    · have hpays := (hcourse.pays hreachable hgoal move hbusy).actions
      have hrest := ih (hcourse.apply hgoal move hbusy) hnext
      have hnow : (engine.starts move).countP (fun run => run.job = course.job) ≤ (engine.starts move).length :=
        List.countP_le_length
      omega
    · obtain ⟨hidle, result, hanswer⟩ := answered_of_left hcourse.job_eq hbusy
      have hrest := countP_begun_of_answered hnext hanswer moves
      have hnone : engine.starts move = [] := starts_of_none (by rw [hidle]; rfl)
      rw [hnone, hrest]
      exact Nat.zero_le _

/-- **A jump is answered** once the worker has made so many steps. -/
theorem OnCourse.answered {moves : List Move} (henough : engine.outstanding course.walk ≤ engine.effort moves) :
    ∃ result, (course.job.ticket, result) ∈ (engine.applyAll moves).answers := by
  induction moves generalizing engine dropped with
  | nil =>
    -- there is always a step to make on the way
    have hstage : 0 < stage engine.phase := stage_pos fun hidle => by
      have hjob := hcourse.job_eq
      rw [hidle] at hjob
      cases hjob
    rw [outstanding, effort] at henough
    omega
  | cons move moves ih =>
    by_cases hbusy : (engine.apply move).phase.job? = some course.job
    · have hpays := (hcourse.pays hreachable hgoal move hbusy).turns
      rw [effort] at henough
      exact ih (hcourse.apply hgoal move hbusy) (hreachable.applyAll [move]) (by omega)
    · obtain ⟨-, result, hanswer⟩ := answered_of_left hcourse.job_eq hbusy
      exact ⟨result, answered_applyAll hanswer moves⟩

end Jumping

/-! ### Rounds -/

/-- Whether a jump is between the start of an action and the choice of the next one. -/
def inRound : Phase → Bool
  | .acting _ | .resting _ _ => true
  | _ => false

/-- Among some moves there is a limit change that shortens the line of a stack. -/
def Trims (engine : Engine) (id : StackId) (moves : List Move) : Prop :=
  ∃ before limit later, moves = before ++ .setLimit limit :: later ∧
    (((engine.applyAll before).setLimit limit).history.line id).length < ((engine.applyAll before).history.line id).length

theorem Trims.cons {id : StackId} {moves : List Move} (htrims : (engine.apply move).Trims id moves) :
    engine.Trims id (move :: moves) := by
  obtain ⟨before, limit, later, rfl, hshorter⟩ := htrims
  exact ⟨move :: before, limit, later, rfl, hshorter⟩

theorem stage_of_inRound {phase : Phase} (hround : inRound phase = true) : 1 < stage phase := by
  cases phase with
  | idle => cases hround
  | choosing job way => cases hround
  | acting run => exact (by decide : 1 < 3)
  | resting job walk => exact (by decide : 1 < 2)

/-- How the rest of a round ends: the job is over, or the jump is about to choose its next action, with the history that
was ahead of it unless a limit change has shortened the line. -/
inductive Closes (engine : Engine) (job : Job) (walk : Walk) (moves : List Move) : Prop where
  | ended (result : ActionResult) (hanswer : (job.ticket, result) ∈ (engine.applyAll moves).answers)
  | onward (hphase : (engine.applyAll moves).phase = .choosing job (some walk))
      (hcurrent : job.generation = engine.generation)
      (hway : engine.Trims walk.stack moves ∨
        (engine.applyAll moves).history.line walk.stack = engine.ahead.line walk.stack ∧
          (engine.applyAll moves).history.distance walk = engine.ahead.distance walk)

theorem OnCourse.closes_last (hcourse : OnCourse course dropped engine) (hreachable : engine.Reachable)
    (hgoal : course.job.goal = .jump target) (hround : inRound engine.phase = true)
    (hbusy : (engine.apply move).phase.job? = some course.job) (hover : inRound (engine.apply move).phase = false) :
    engine.Closes course.job course.walk [move] := by
  have hchanged : (engine.apply move).phase ≠ engine.phase := by
    intro hsame
    rw [hsame, hround] at hover
    cases hover
  have hphase : (engine.apply move).phase = .choosing course.job (some course.walk) := by
    rcases (hcourse.apply hgoal move hbusy).phase with hphase | hphase | ⟨run, hphase, -⟩
    · exact hphase
    · rw [hphase] at hover
      cases hover
    · rw [hphase] at hover
      cases hover
  have hcurrent : course.job.generation = engine.generation := by
    cases transit_apply hcourse.steady move with
    | same hsame => exact absurd hsame hchanged
    | resumed job walk hresting hcurrent hafter =>
      obtain ⟨rfl, -⟩ := Phase.choosing.inj (hafter.symm.trans hphase)
      exact hcurrent
    | bound job walk hchoosing =>
      rw [hchoosing] at hround
      cases hround
    | ended hafter => cases hphase.symm.trans hafter
    | taken job hidle hqueue hcurrent hafter => cases hphase.symm.trans hafter
    | started way run hchoosing hafter => cases hphase.symm.trans hafter
    | rested run walk hacting hafter => cases hphase.symm.trans hafter
  have hahead : (engine.apply move).ahead = (engine.apply move).history := ahead_of_none (by rw [hphase]; rfl)
  cases hcourse.bend hreachable hgoal move hbusy with
  | kept hlists =>
    refine .onward hphase hcurrent (.inr ?_)
    show (engine.apply move).history.line _ = _ ∧ (engine.apply move).history.distance _ = _
    rw [← hahead]
    exact ⟨History.line_of_lists hlists, History.distance_of_lists hlists⟩
  | started run hstarts hbefore => exact absurd hbefore (stage_of_inRound hround).ne'
  | trimmed limit hmove hsame => exact absurd hsame hchanged
  | cleared hmove hsame => exact absurd hsame hchanged

/-- **The rest of a round**, from any of its states. -/
theorem OnCourse.closes (hcourse : OnCourse course dropped engine) (hreachable : engine.Reachable)
    (hgoal : course.job.goal = .jump target) (hround : inRound engine.phase = true) {moves : List Move}
    (hwithin : ∀ earlier, earlier <+: moves → earlier ≠ moves → inRound (engine.applyAll earlier).phase = true)
    (hover : inRound (engine.applyAll moves).phase = false) : engine.Closes course.job course.walk moves := by
  induction moves generalizing engine dropped with
  | nil =>
    rw [applyAll_nil, hround] at hover
    cases hover
  | cons move moves ih =>
    by_cases hbusy : (engine.apply move).phase.job? = some course.job
    swap
    · obtain ⟨-, result, hanswer⟩ := answered_of_left hcourse.job_eq hbusy
      exact .ended result (answered_applyAll hanswer moves)
    cases hnext : inRound (engine.apply move).phase with
    | false =>
      obtain rfl : moves = [] := by
        by_contra hmore
        have hstill := hwithin [move] (by simp) (by simpa using Ne.symm hmore)
        rw [show engine.applyAll [move] = engine.apply move from rfl, hnext] at hstill
        cases hstill
      exact hcourse.closes_last hreachable hgoal hround hbusy hnext
    | true =>
      have hrest := ih (hcourse.apply hgoal move hbusy) (hreachable.applyAll [move]) hnext
        (fun earlier hprefix hne => hwithin (move :: earlier) (List.cons_prefix_cons.mpr ⟨rfl, hprefix⟩) (by simpa using hne))
        hover
      cases hrest with
      | ended result hanswer => exact .ended result hanswer
      | onward hphase hcurrent hway =>
        have hdated := hreachable.numbered.dated course.job (mem_unanswered_of_job hcourse.job_eq)
        have hlater := (engine.passage_apply move).generation_le
        have hcurrent' : course.job.generation = engine.generation := by omega
        refine .onward hphase hcurrent' ?_
        cases hcourse.bend hreachable hgoal move hbusy with
        | kept hlists =>
          rcases hway with htrims | ⟨hline, hdistance⟩
          · exact .inl htrims.cons
          · exact .inr ⟨hline.trans (History.line_of_lists hlists), hdistance.trans (History.distance_of_lists hlists)⟩
        | started run hstarts hbefore => exact absurd hbefore (stage_of_inRound hround).ne'
        | trimmed limit hmove hsame hshorter =>
          subst hmove
          exact .inl ⟨[], limit, moves, rfl, hshorter⟩
        | cleared hmove =>
          subst hmove
          have hcleared : (engine.apply .clear).generation = engine.generation + 1 := rfl
          omega

/-- A round of a jump: from its choice of an action up to the moment when it is about to choose the next one, or when it
has none to choose. -/
structure Round (engine : Engine) (job : Job) (walk : Walk) (during : List Move) : Prop where
  chosen : engine.phase = .choosing job (some walk)
  within : ∀ earlier, earlier <+: during → earlier ≠ during →
    inRound (engine.applyAll (.advance :: earlier)).phase = true
  finished : inRound (engine.applyAll (.advance :: during)).phase = false

/-- What a round leads to: the end of the job, or one command nearer to the goal, or a choice after a limit change that
has shortened the line. -/
inductive Leads (engine : Engine) (job : Job) (walk : Walk) (during : List Move) : Prop where
  | ended (result : ActionResult)
      (hanswer : (job.ticket, result) ∈ (engine.applyAll (.advance :: during)).answers)
  | nearer (hphase : (engine.applyAll (.advance :: during)).phase = .choosing job (some walk))
      (hline : (engine.applyAll (.advance :: during)).history.line walk.stack = engine.history.line walk.stack)
      (hdistance : (engine.applyAll (.advance :: during)).history.distance walk + 1 = engine.history.distance walk)
  | trimmed (hphase : (engine.applyAll (.advance :: during)).phase = .choosing job (some walk))
      (htrims : engine.advance.Trims walk.stack during)

private theorem OnCourse.leads (hcourse : OnCourse course dropped engine) (hreachable : engine.Reachable)
    (hgoal : course.job.goal = .jump target) {during : List Move}
    (hround : engine.Round course.job course.walk during) : engine.Leads course.job course.walk during := by
  by_cases hbusy : (engine.apply .advance).phase.job? = some course.job
  swap
  · obtain ⟨-, result, hanswer⟩ := answered_of_left hcourse.job_eq hbusy
    exact .ended result (answered_applyAll hanswer during)
  have hidle : engine.advance.phase ≠ .idle := by
    intro hidle
    rw [show (engine.apply .advance).phase = .idle from hidle] at hbusy
    cases hbusy
  have hready : engine.ahead = engine.history := ahead_of_none (by rw [hround.chosen]; rfl)
  cases bend_walking hreachable hround.chosen hgoal hidle with
  | started run hstarts hbefore hafter hline hgap hdistance =>
    have hunder : inRound engine.advance.phase = true := by
      cases hphase : engine.advance.phase <;> rw [hphase] at hafter <;> first | rfl | cases hafter
    have hcloses := OnCourse.closes (hcourse.apply hgoal .advance hbusy) (hreachable.applyAll [.advance]) hgoal hunder
      hround.within hround.finished
    rw [hready] at hline hdistance
    cases hcloses with
    | ended result hanswer => exact .ended result hanswer
    | onward hphase hcurrent hway =>
      rcases hway with htrims | ⟨hsame, hnear⟩
      · exact .trimmed hphase htrims
      · refine .nearer hphase (hsame.trans hline) ?_
        rw [applyAll_cons, hnear]
        exact hdistance
  | kept hlists hstarts hstage =>
    have hleast := stage_pos hidle
    rw [isTurn_iff.mpr (.inl ⟨by rw [hround.chosen]; rfl, rfl⟩), hround.chosen, stage, if_pos rfl] at hstage
    omega
  | trimmed limit hmove => cases hmove
  | cleared hmove => cases hmove

/-! ### Every jump -/

/-- What is promised of a jump that starts on a stack of `number` commands. -/
structure Halts (engine : Engine) (job : Job) (target : Option Nat) (number : Nat) : Prop where
  /-- However many moves there are, few of them start an action of the jump. -/
  few : ∀ moves, (engine.begun (.advance :: moves)).countP (fun run => run.job = job) ≤ (number + 1) ^ 2
  /-- When its actions have returned and the worker has gone on after them, the jump is answered. -/
  answered : ∀ moves, 3 * (number + 1) ^ 2 ≤ engine.effort (.advance :: moves) →
    ∃ result, (job.ticket, result) ∈ (engine.applyAll (.advance :: moves)).answers
  /-- Every round is one of three kinds. -/
  rounds : ∀ moves walk during, (engine.applyAll (.advance :: moves)).Round job walk during →
    walk = ⟨engine.history.active, wantedBy target⟩ ∧ (engine.applyAll (.advance :: moves)).Leads job walk during

private theorem chosen_of_busy (hsteady : engine.Steady) (hphase : engine.phase = .choosing job none)
    (hgoal : job.goal = .jump target) (hbusy : engine.advance.phase.job? = some job) :
    engine.advance.phase = .choosing job (some ⟨engine.history.active, wantedBy target⟩) ∧
      engine.advance.history = engine.history := by
  have hstepped := stepped_beginJump hsteady.sound hphase hgoal
  refine ⟨?_, hstepped.history⟩
  have hafter := hstepped.phase
  cases target with
  | none => exact hafter
  | some index =>
    dsimp only at hafter
    split_ifs at hafter
    · rw [hafter] at hbusy
      cases hbusy
    · exact hafter

/-- **Every jump ends**, whatever its actions do and whatever calls are made meanwhile. -/
theorem jump_halts (hreachable : engine.Reachable) (hphase : engine.phase = .choosing job none)
    (hgoal : job.goal = .jump target) :
    engine.Halts job target (engine.history.line engine.history.active).length := by
  have hjob : engine.phase.job? = some job := by rw [hphase]; rfl
  have hnone : engine.phase.run? = none := by rw [hphase]; rfl
  have hnext : (engine.apply .advance).Reachable := hreachable.applyAll [.advance]
  by_cases hbusy : engine.advance.phase.job? = some job
  · have hcourse := onCourse_beginJump hreachable.steady hphase hgoal hbusy
    obtain ⟨hchosen, hhistory⟩ := chosen_of_busy hreachable.steady hphase hgoal hbusy
    have hready : engine.advance.phase.run? = none := by rw [hchosen]; rfl
    have hstarts : engine.starts .advance = [] := starts_of_none hready
    have hweight : engine.advance.ahead.weight ⟨engine.history.active, wantedBy target⟩ <
        ((engine.history.line engine.history.active).length + 1) ^ 2 := by
      rw [ahead_of_none hready, hhistory]
      exact engine.history.weight_lt _
    constructor
    · intro moves
      rw [begun, along, hstarts, List.nil_append, ← begun]
      exact (hcourse.countP_begun_le hnext hgoal moves).trans hweight.le
    · intro moves henough
      refine hcourse.answered hnext hgoal ?_
      rw [effort, isTurn_iff.mpr (.inl ⟨hnone, rfl⟩), if_pos rfl] at henough
      rw [outstanding, hchosen, stage]
      show 3 * engine.advance.ahead.weight ⟨engine.history.active, wantedBy target⟩ + 1 ≤ engine.advance.effort moves
      rw [show engine.apply .advance = engine.advance from rfl] at henough
      omega
    · intro moves walk during hround
      have hstill : (engine.advance.applyAll moves).phase.job? = some job := by
        rw [show engine.advance.applyAll moves = engine.applyAll (.advance :: moves) from rfl, hround.chosen]
        rfl
      have hthere := hcourse.applyAll hgoal moves (busy_of_busy hnext hbusy hstill)
      have hwalk : walk = ⟨engine.history.active, wantedBy target⟩ := by
        rcases hthere.phase with hhere | hhere | ⟨run, hhere, -⟩
        · exact Option.some.inj (Phase.choosing.inj (hround.chosen.symm.trans hhere)).2
        · cases hround.chosen.symm.trans hhere
        · cases hround.chosen.symm.trans hhere
      subst hwalk
      exact ⟨rfl, hthere.leads (hnext.applyAll moves) hgoal hround⟩
  · have hleft : (engine.apply .advance).phase.job? ≠ some job := hbusy
    obtain ⟨hidle, result, hanswer⟩ := answered_of_left hjob hleft
    have hstarts : engine.starts .advance = [] := starts_of_none (by rw [hidle]; rfl)
    constructor
    · intro moves
      rw [begun, along, hstarts, List.nil_append, ← begun, countP_begun_of_answered hnext hanswer]
      exact Nat.zero_le _
    · intro moves _
      exact ⟨result, answered_applyAll hanswer moves⟩
    · intro moves walk during hround
      refine absurd ?_ (not_busy_of_answered (hnext.applyAll moves).numbered (answered_applyAll hanswer moves))
      rw [← applyAll_cons, hround.chosen]
      rfl

/-- The jump in the course of which three of five commands are dropped ends like any other. -/
theorem jump_halts_sample : (sampleEngine.applyAll beforeJump).Halts sampleJump (some 2) 5 := by
  have hreachable : (sampleEngine.applyAll beforeJump).Reachable := ⟨sampleEngine, beforeJump, sampleEngine_fresh, rfl⟩
  have hphase : (sampleEngine.applyAll beforeJump).phase = .choosing sampleJump none := by decide
  have hhalts := jump_halts hreachable hphase (rfl : sampleJump.goal = .jump (some 2))
  have hfive : ((sampleEngine.applyAll beforeJump).history.line
      (sampleEngine.applyAll beforeJump).history.active).length = 5 := by decide
  rw [hfive] at hhalts
  exact hhalts

end Engine

end Retrace
