import Retrace.Proofs.Turns

/-!
# Where a jump goes

A jump compares the number of applied commands with a number that it fixed at its start, and a limit
change that drops the oldest commands makes the first of the two smaller. Every action of a jump is one
that was asked for, unless the jump has overshot: the number of applied commands is below the wanted one
only because of what was dropped.
-/

namespace Retrace.Engine

variable {engine after : Engine} {move : Move} {job : Job} {run : Run} {walk : Walk} {target : Option Nat}

/-! ### What is asked of a jump -/

def wantedBy : Option Nat → Nat
  | none => 0
  | some index => index + 1

/-- What may run in a jump that finds a number of commands applied and wants another number: on the way
back the commands from the wanted position up to the cursor, on the way forth those from the cursor up to
the wanted position. -/
def Asked (wanted cursor : Nat) (operation : Operation) (position : Nat) : Prop :=
  if wanted ≤ cursor then operation = .undo ∧ wanted ≤ position ∧ position < cursor
  else operation = .redo ∧ cursor ≤ position ∧ position < wanted

/-- Fewer commands are applied than wanted, but not if the dropped ones are counted. -/
def Overshot (wanted dropped applied : Nat) : Prop := applied < wanted ∧ wanted ≤ dropped + applied

instance (wanted dropped applied : Nat) : Decidable (Overshot wanted dropped applied) :=
  inferInstanceAs (Decidable (_ ∧ _))

def droppedBy (engine : Engine) (id : StackId) (move : Move) : Nat :=
  match move with
  | .setLimit _ => (engine.history.past id).length - ((engine.apply move).history.past id).length
  | _ => 0

/-- How many of the oldest commands of a stack are dropped by the limit changes among some moves. -/
def droppedByAll (engine : Engine) (id : StackId) : List Move → Nat
  | [] => 0
  | move :: moves => engine.droppedBy id move + (engine.apply move).droppedByAll id moves

/-- Where the command of an action stood in the line from which `dropped` commands are missing. -/
def positionOf (operation : Operation) (dropped applied : Nat) : Nat :=
  match operation with
  | .undo => dropped + applied - 1
  | _ => dropped + applied

/-! ### The start of an action -/

/-- The worker, about to choose the next action of a jump, answers the jump or starts an action on the
command next to the cursor, back over it if too many commands are applied and forth over it if too few. -/
theorem advance_jump (hsteady : engine.Steady) (hphase : engine.phase = .choosing job (some walk))
    (hgoal : job.goal = .jump target) :
    engine.advance.phase = .idle ∨
      ∃ run, engine.advance.phase = .acting run ∧ engine.advance.history = engine.history ∧ run.job = job ∧
        run.walk = some walk ∧ run.step.stack = walk.stack ∧
        (run.step.operation = .undo ∧ walk.wanted < (engine.history.past walk.stack).length ∧
            (engine.history.past walk.stack).getLast? = some run.step.command ∨
          run.step.operation = .redo ∧ (engine.history.past walk.stack).length < walk.wanted ∧
            (engine.history.future walk.stack).head? = some run.step.command) := by
  rcases Nat.lt_trichotomy walk.wanted (engine.history.past walk.stack).length with hback | harrived | hforth
  · obtain ⟨command, hlast⟩ := exists_last hback
    obtain ⟨run, hjob, hwalk, hstep, hstepped⟩ := stepped_back hsteady hphase hgoal hback hlast
    refine .inr ⟨run, hstepped.phase, hstepped.history, hjob, hwalk, ?_, .inl ⟨?_, hback, ?_⟩⟩
    · rw [hstep]
    · rw [hstep]
    · rw [hstep]
      exact hlast
  · exact .inl (stepped_arrived hsteady hphase hgoal harrived.symm).phase
  · cases hhead : (engine.history.future walk.stack).head? with
    | none => exact .inl (stepped_end hsteady hphase hgoal hforth (List.head?_eq_none_iff.mp hhead)).phase
    | some command =>
      obtain ⟨run, hjob, hwalk, hstep, hstepped⟩ := stepped_forth hsteady hphase hgoal hforth hhead
      refine .inr ⟨run, hstepped.phase, hstepped.history, hjob, hwalk, ?_, .inr ⟨?_, hforth, ?_⟩⟩
      · rw [hstep]
      · rw [hstep]
      · rw [hstep]

/-! ### The course of a jump -/

/-- A jump as it was when it started: its job and its way, and the line and the cursor it found. -/
structure Course where
  job : Job
  walk : Walk
  line : List Command
  cursor : Nat

/-- The numbers of a jump on its way, from how many commands were dropped, how many are applied, and what
runs: the jump has passed neither its start nor its goal, or it has overshot and now goes forth. -/
structure InStep (wanted cursor dropped applied : Nat) (running : Option Operation) : Prop where
  least : min wanted cursor ≤ dropped + applied
  side : wanted ≤ cursor ∧ dropped + applied ≤ cursor ∨ applied ≤ wanted
  undoing : running = some .undo → wanted < dropped + applied ∧ wanted ≤ cursor ∧ dropped + applied ≤ cursor
  redoing : running = some .redo → applied < wanted

/-- What a jump meets on its way: an empty stack after a clear, or else the line it found at its start
without the commands that limit changes have dropped at both ends. -/
inductive Meets (course : Course) (dropped : Nat) (engine : Engine) : Prop where
  | nothing (hline : engine.history.line course.walk.stack = [])
  | window (front back : List Command)
      (hline : course.line = front ++ engine.history.line course.walk.stack ++ back)
      (hfront : front.length = dropped)
      (hstep : InStep course.walk.wanted course.cursor dropped
        (engine.history.past course.walk.stack).length
        (engine.phase.run?.map fun run => run.step.operation))

structure OnCourse (course : Course) (dropped : Nat) (engine : Engine) : Prop where
  steady : engine.Steady
  phase : engine.phase = .choosing course.job (some course.walk) ∨
    engine.phase = .resting course.job course.walk ∨
    ∃ run, engine.phase = .acting run ∧ run.job = course.job ∧ run.walk = some course.walk ∧
      run.step.stack = course.walk.stack ∧ run.step.operation ≠ .execute
  meets : Meets course dropped engine

variable {wanted cursor dropped applied : Nat} {running : Option Operation} {course : Course}

namespace InStep

private theorem trimmed (hstep : InStep wanted cursor dropped applied running) (left : Nat) (hle : left ≤ applied) :
    InStep wanted cursor (dropped + (applied - left)) left running := by
  have hsame : dropped + (applied - left) + left = dropped + applied := by omega
  have hside := hstep.side
  constructor
  · rw [hsame]
    exact hstep.least
  · rw [hsame]
    omega
  · rw [hsame]
    exact hstep.undoing
  · intro hredo
    have hbelow := hstep.redoing hredo
    omega

private theorem back (hstep : InStep wanted cursor dropped applied none) (hback : wanted < applied) :
    InStep wanted cursor dropped applied (some .undo) := by
  have hside := hstep.side
  refine ⟨hstep.least, hside, fun _ => by omega, fun hredo => ?_⟩
  cases hredo

private theorem forth (hstep : InStep wanted cursor dropped applied none) (hforth : applied < wanted) :
    InStep wanted cursor dropped applied (some .redo) := by
  refine ⟨hstep.least, hstep.side, fun hundo => ?_, fun _ => hforth⟩
  cases hundo

private theorem missed (hstep : InStep wanted cursor dropped applied running) :
    InStep wanted cursor dropped applied none :=
  ⟨hstep.least, hstep.side, by simp, by simp⟩

private theorem undone (hstep : InStep wanted cursor dropped (applied + 1) (some .undo)) :
    InStep wanted cursor dropped applied none := by
  obtain ⟨hgoal, hside, hcursor⟩ := hstep.undoing rfl
  refine ⟨by omega, by omega, by simp, by simp⟩

private theorem redone (hstep : InStep wanted cursor dropped applied (some .redo)) :
    InStep wanted cursor dropped (applied + 1) none := by
  have hleast := hstep.least
  have hbelow := hstep.redoing rfl
  refine ⟨by omega, by omega, by simp, by simp⟩

theorem asked_back (hstep : InStep wanted cursor dropped applied none) (hback : wanted < applied) :
    Asked wanted cursor .undo (positionOf .undo dropped applied) ∧ ¬ Overshot wanted dropped applied := by
  have hside := hstep.side
  refine ⟨?_, fun hovershot => ?_⟩
  · rw [Asked, if_pos (by omega), positionOf]
    refine ⟨rfl, by omega, by omega⟩
  · have hbelow := hovershot.1
    omega

private theorem asked_forth (hstep : InStep wanted cursor dropped applied none) (hforth : applied < wanted) :
    Asked wanted cursor .redo (positionOf .redo dropped applied) ↔ ¬ Overshot wanted dropped applied := by
  have hleast := hstep.least
  unfold Asked Overshot positionOf
  split_ifs with hside
  · simp only [false_and, false_iff, not_not]
    omega
  · simp only [true_and]
    omega

end InStep

theorem InStep.ended {outcome : Outcome} {history : History} (heffect : engine.Effect run outcome history)
    (hmove : run.step.operation ≠ .execute)
    (hstep : InStep wanted cursor dropped (engine.history.past run.step.stack).length
      (some run.step.operation)) :
    InStep wanted cursor dropped (history.past run.step.stack).length none := by
  cases heffect with
  | kept hlists =>
    rw [History.past_of_lists (hlists run.step.stack)]
    exact hstep.missed
  | recorded hsucceeded hcurrent hoperation => exact absurd hoperation hmove
  | undone hsucceeded hcurrent hoperation passed before hid hpast hlists =>
    have hlist := hlists run.step.stack
    rw [if_pos rfl] at hlist
    rw [hpast, List.length_append, hoperation] at hstep
    rw [History.past_of_lists hlist]
    exact hstep.undone
  | redone hsucceeded hcurrent hoperation passed rest hid hfuture hlists =>
    have hlist := hlists run.step.stack
    rw [if_pos rfl] at hlist
    rw [hoperation] at hstep
    rw [History.past_of_lists hlist, List.length_append]
    exact hstep.redone

theorem Meets.frame (hmeets : Meets course dropped engine)
    (hline : after.history.line course.walk.stack = engine.history.line course.walk.stack)
    (hstep : InStep course.walk.wanted course.cursor dropped (engine.history.past course.walk.stack).length
        (engine.phase.run?.map fun run => run.step.operation) →
      InStep course.walk.wanted course.cursor dropped (after.history.past course.walk.stack).length
        (after.phase.run?.map fun run => run.step.operation)) : Meets course dropped after := by
  cases hmeets with
  | nothing hnone => exact .nothing (hline.trans hnone)
  | window front back hwhole hfront hnumbers =>
    exact .window front back (by rw [hline]; exact hwhole) hfront (hstep hnumbers)

theorem OnCourse.frame (hcourse : OnCourse course dropped engine) (hsteady : after.Steady)
    (hphase : after.phase = engine.phase)
    (hpast : after.history.past course.walk.stack = engine.history.past course.walk.stack)
    (hfuture : after.history.future course.walk.stack = engine.history.future course.walk.stack) :
    OnCourse course dropped after where
  steady := hsteady
  phase := by rw [hphase]; exact hcourse.phase
  meets := by
    refine hcourse.meets.frame ?_ fun hstep => ?_
    · rw [History.line, History.line, hpast, hfuture]
    · rw [hpast, hphase]
      exact hstep

private theorem OnCourse.limited (hcourse : OnCourse course dropped engine) (limit : Nat) :
    OnCourse course (dropped + engine.droppedBy course.walk.stack (.setLimit limit)) (engine.setLimit limit) where
  steady := hcourse.steady.change (hcourse.steady.change_apply (.setLimit limit))
  phase := hcourse.phase
  meets := by
    have hlists := hcourse.steady.sound.lists_setLimit limit course.walk.stack
    have hpast := History.past_of_lists hlists
    have hfuture := History.future_of_lists hlists
    obtain ⟨gone, hgone⟩ := Stack.within_past_suffix limit (engine.history.past course.walk.stack)
      (engine.history.future course.walk.stack)
    cases hcourse.meets with
    | nothing hline =>
      refine .nothing ?_
      have hnone := Stack.within_sublist limit (engine.history.past course.walk.stack)
        (engine.history.future course.walk.stack)
      rw [← History.line, hline] at hnone
      exact (History.line_of_lists hlists).trans (List.sublist_nil.mp hnone)
    | window front back hline hfront hstep =>
      rw [← hpast] at hgone
      have hcount := congrArg List.length hgone
      rw [List.length_append] at hcount
      have hdropped : engine.droppedBy course.walk.stack (.setLimit limit) = gone.length := by
        show (engine.history.past course.walk.stack).length -
          ((engine.history.setLimit limit).1.past course.walk.stack).length = gone.length
        omega
      have hstep := hstep.trimmed ((engine.history.setLimit limit).1.past course.walk.stack).length
        (by omega)
      rw [hdropped]
      rw [show (engine.history.past course.walk.stack).length -
          ((engine.history.setLimit limit).1.past course.walk.stack).length = gone.length by omega] at hstep
      rw [History.line, ← hgone] at hline
      have hlength : (front ++ gone).length = dropped + gone.length := by
        rw [List.length_append, hfront]
      -- What could be redone stays as it is or goes to the commands dropped at the end.
      rcases Stack.within_future limit (engine.history.past course.walk.stack)
        (engine.history.future course.walk.stack) with hkept | hnone
      · refine .window (front ++ gone) back ?_ hlength hstep
        show course.line = front ++ gone ++ (engine.history.setLimit limit).1.line course.walk.stack ++ back
        rw [hline, History.line, hfuture, hkept]
        simp only [List.append_assoc]
      · refine .window (front ++ gone) (engine.history.future course.walk.stack ++ back) ?_ hlength hstep
        show course.line = front ++ gone ++ (engine.history.setLimit limit).1.line course.walk.stack ++ _
        rw [hline, History.line, hfuture, hnone]
        simp only [List.append_assoc, List.append_nil]

/-- The end of an action of a jump moves the cursor in the direction of the action, or not at all. -/
theorem OnCourse.finished (hcourse : OnCourse course dropped engine) (outcome : Outcome)
    (hbusy : (engine.finish outcome).phase.job? = some course.job) :
    OnCourse course dropped (engine.finish outcome) := by
  have hsteady := hcourse.steady.change (hcourse.steady.change_apply (.finish outcome))
  have hother : (∀ run, engine.phase ≠ .acting run) → engine.finish outcome = engine := by
    intro hnone
    unfold finish
    split
    · next run hphase => exact absurd hphase (hnone run)
    · rfl
  rcases hcourse.phase with hphase | hphase | ⟨run, hphase, hjob, hwalk, hstack, hmove⟩
  · rw [hother (by simp [hphase])]
    exact hcourse
  · rw [hother (by simp [hphase])]
    exact hcourse
  obtain ⟨-, hhistory, hidle | ⟨walk, hway, hresting⟩⟩ := finish_of_acting hphase outcome
  · rw [hidle] at hbusy
    cases hbusy
  obtain rfl : course.walk = walk := Option.some.inj (hwalk.symm.trans hway)
  have heffect := effect_of_ended hcourse.steady.sound run outcome
  rw [← hhistory] at heffect
  refine ⟨hsteady, .inr (.inl (hjob ▸ hresting)), hcourse.meets.frame (heffect.line_eq hmove _) fun hstep => ?_⟩
  rw [hphase, ← hstack] at hstep
  rw [hresting, ← hstack]
  exact hstep.ended heffect hmove

private theorem OnCourse.advanced (hcourse : OnCourse course dropped engine) (hgoal : course.job.goal = .jump target)
    (hbusy : engine.advance.phase.job? = some course.job) : OnCourse course dropped engine.advance := by
  have hsteady : engine.advance.Steady := hcourse.steady.change (hcourse.steady.change_apply .advance)
  rcases hcourse.phase with hphase | hphase | ⟨run, hphase, -⟩
  · rcases advance_jump hcourse.steady hphase hgoal with hidle | ⟨run, hacting, hhistory, hjob, hwalk, hstack, hkind⟩
    · rw [hidle] at hbusy
      cases hbusy
    have hready : (engine.phase.run?.map fun run => run.step.operation) = none := by rw [hphase]; rfl
    have hrunning : (engine.advance.phase.run?.map fun run => run.step.operation) = some run.step.operation := by
      rw [hacting]; rfl
    refine ⟨hsteady, .inr (.inr ⟨run, hacting, hjob, hwalk, hstack, ?_⟩), ?_⟩
    · rcases hkind with ⟨hundo, -⟩ | ⟨hredo, -⟩
      · simp [hundo]
      · simp [hredo]
    · refine hcourse.meets.frame (by rw [hhistory]) fun hstep => ?_
      rw [hready] at hstep
      rw [hhistory, hrunning]
      rcases hkind with ⟨hundo, hback, -⟩ | ⟨hredo, hforth, -⟩
      · rw [hundo]
        exact hstep.back hback
      · rw [hredo]
        exact hstep.forth hforth
  · have hresume : engine.advance = engine.resume course.job course.walk := by simp only [advance, hphase]
    by_cases hcurrent : course.job.generation = engine.generation
    · have hchoosing : engine.advance = { engine with phase := .choosing course.job (some course.walk) } :=
        hresume.trans (if_pos hcurrent)
      rw [hchoosing] at hsteady ⊢
      refine ⟨hsteady, .inl rfl, hcourse.meets.frame rfl fun hstep => ?_⟩
      rw [hphase] at hstep
      exact hstep
    · rw [hresume, resume, if_neg hcurrent] at hbusy
      cases hbusy
  · have hsame : engine.advance = engine := by simp only [advance, hphase]
    rw [hsame]
    exact hcourse

/-- **One move** keeps a jump on its course, as long as it goes on. -/
theorem OnCourse.apply (hcourse : OnCourse course dropped engine) (hgoal : course.job.goal = .jump target)
    (move : Move) (hbusy : (engine.apply move).phase.job? = some course.job) :
    OnCourse course (dropped + engine.droppedBy course.walk.stack move) (engine.apply move) := by
  have hsteady := hcourse.steady.change (hcourse.steady.change_apply move)
  cases move with
  | submit request =>
    obtain ⟨hhistory, hphase⟩ := submit_frame engine request
    exact hcourse.frame hsteady hphase (congrArg (History.past · _) hhistory) (congrArg (History.future · _) hhistory)
  | clear =>
    refine ⟨hsteady, hcourse.phase, .nothing ?_⟩
    show engine.history.clear.line _ = []
    rw [History.line, History.past_clear, History.future_clear]
    rfl
  | setLimit limit => exact hcourse.limited limit
  | activate stack => exact hcourse.frame hsteady rfl (History.past_activate ..) (History.future_activate ..)
  | route scope stack =>
    obtain ⟨hhistory, hphase⟩ := route_frame engine scope stack
    exact hcourse.frame hsteady hphase (congrArg (History.past · _) hhistory) (congrArg (History.future · _) hhistory)
  | shutDown => exact hcourse.frame hsteady rfl rfl rfl
  | advance => exact hcourse.advanced hgoal hbusy
  | report number event =>
    obtain ⟨hhistory, hphase⟩ := report_frame engine number event
    exact hcourse.frame hsteady hphase (congrArg (History.past · _) hhistory) (congrArg (History.future · _) hhistory)
  | finish outcome => exact hcourse.finished outcome hbusy

/-! ### Whole jumps -/

/-- An action that a jump starts: the jump is about to choose its way, and after the step that chooses it
and some moves that do not end the job, the next move starts the action. -/
structure Starts (engine : Engine) (job : Job) (during : List Move) (run : Run) : Prop where
  chosen : engine.phase = .choosing job none
  busy : ∀ earlier, earlier <+: during →
    (engine.applyAll (.advance :: earlier)).phase.job? = some job
  ready : (engine.applyAll (.advance :: during)).phase.run? = none
  acting : ∃ move, (engine.applyAll (.advance :: during ++ [move])).phase = .acting run

def courseOf (engine : Engine) (job : Job) (target : Option Nat) : Course :=
  { job, walk := ⟨engine.history.active, wantedBy target⟩,
    line := engine.history.line engine.history.active,
    cursor := (engine.history.past engine.history.active).length }

theorem onCourse_beginJump (hsteady : engine.Steady) (hphase : engine.phase = .choosing job none)
    (hgoal : job.goal = .jump target) (hbusy : engine.advance.phase.job? = some job) :
    OnCourse (engine.courseOf job target) 0 engine.advance := by
  have hafter : engine.advance.Steady := hsteady.change (hsteady.change_apply .advance)
  have hchosen : engine.advance =
      { engine with phase := .choosing job (some ⟨engine.history.active, wantedBy target⟩) } := by
    have hbegin : engine.advance = engine.beginJump job target := by simp only [advance, hphase, choose, hgoal]
    rw [hbegin] at hbusy ⊢
    unfold beginJump at hbusy ⊢
    cases target with
    | none => rfl
    | some index =>
      dsimp only at hbusy ⊢
      split_ifs at hbusy ⊢
      · cases hbusy
      · rfl
  rw [hchosen] at hafter ⊢
  refine ⟨hafter, .inl rfl, .window [] [] ?_ rfl ?_⟩
  · exact (List.append_nil _).symm
  · refine ⟨?_, ?_, fun hundo => ?_, fun hredo => ?_⟩
    · rw [Nat.zero_add]
      exact Nat.min_le_right ..
    · rw [Nat.zero_add]
      rcases Nat.le_total (wantedBy target) (engine.history.past engine.history.active).length with hle | hle
      · exact .inl ⟨hle, Nat.le_refl _⟩
      · exact .inr hle
    · cases hundo
    · cases hredo

theorem OnCourse.applyAll (hcourse : OnCourse course dropped engine) (hgoal : course.job.goal = .jump target)
    (moves : List Move)
    (hbusy : ∀ earlier, earlier <+: moves → (engine.applyAll earlier).phase.job? = some course.job) :
    OnCourse course (dropped + engine.droppedByAll course.walk.stack moves) (engine.applyAll moves) := by
  induction moves generalizing engine dropped with
  | nil => exact hcourse
  | cons move moves ih =>
    have hnow := hcourse.apply hgoal move (hbusy [move] (by simp))
    rw [droppedByAll, ← Nat.add_assoc]
    refine ih hnow fun earlier hprefix => ?_
    exact hbusy (move :: earlier) (List.cons_prefix_cons.mpr ⟨rfl, hprefix⟩)

theorem run?_of_ne_advance (hmove : move ≠ .advance) (hready : engine.phase.run? = none) :
    (engine.apply move).phase.run? = none := by
  cases move with
  | advance => contradiction
  | submit request => exact (congrArg Phase.run? (submit_frame engine request).2).trans hready
  | route scope stack => exact (congrArg Phase.run? (route_frame engine scope stack).2).trans hready
  | report number event => exact (congrArg Phase.run? (report_frame engine number event).2).trans hready
  | finish outcome =>
    show (engine.finish outcome).phase.run? = none
    unfold finish
    split
    · next run hphase =>
      rw [hphase] at hready
      cases hready
    · exact hready
  | clear => exact hready
  | setLimit limit => exact hready
  | activate stack => exact hready
  | shutDown => exact hready

private theorem getElem?_middle {front rest : List Command} {command : Command} {position : Nat}
    (hposition : position = front.length) : (front ++ command :: rest)[position]? = some command := by
  rw [hposition, List.getElem?_append_right (Nat.le_refl _), Nat.sub_self]
  rfl

theorem OnCourse.starts (hcourse : OnCourse course dropped engine) (hgoal : course.job.goal = .jump target)
    (hready : engine.phase.run? = none) (hacting : (engine.apply move).phase = .acting run) :
    course.line[positionOf run.step.operation dropped (engine.history.past course.walk.stack).length]? =
        some run.step.command ∧
      (Asked course.walk.wanted course.cursor run.step.operation
          (positionOf run.step.operation dropped (engine.history.past course.walk.stack).length) ↔
        ¬ Overshot course.walk.wanted dropped (engine.history.past course.walk.stack).length) := by
  have hrun : (engine.apply move).phase.run? = some run := by rw [hacting]; rfl
  obtain rfl : move = .advance := by
    by_contra hother
    rw [run?_of_ne_advance hother hready] at hrun
    cases hrun
  rcases hcourse.phase with hphase | hphase | ⟨other, hphase, -⟩
  · rcases advance_jump hcourse.steady hphase hgoal with hidle | ⟨started, hstarted, -, -, -, -, hkind⟩
    · rw [show (engine.apply .advance).phase = .idle from hidle] at hacting
      cases hacting
    obtain rfl : started = run := Phase.acting.inj (hstarted.symm.trans hacting)
    cases hcourse.meets with
    | nothing hline =>
      obtain ⟨hpast, hfuture⟩ := List.append_eq_nil_iff.mp hline
      rcases hkind with ⟨-, -, hlast⟩ | ⟨-, -, hhead⟩
      · rw [hpast] at hlast
        cases hlast
      · rw [hfuture] at hhead
        cases hhead
    | window front back hline hfront hstep =>
      rw [hready] at hstep
      rcases hkind with ⟨hundo, hback, hlast⟩ | ⟨hredo, hforth, hhead⟩
      · obtain ⟨hasked, hshort⟩ := hstep.asked_back hback
        rw [hundo]
        refine ⟨?_, iff_of_true hasked hshort⟩
        obtain ⟨before, hpast⟩ := List.getLast?_eq_some_iff.mp hlast
        have hwhole : course.line = (front ++ before) ++ started.step.command ::
            (engine.history.future course.walk.stack ++ back) := by
          rw [hline, History.line, hpast]
          simp only [List.append_assoc, List.cons_append, List.nil_append]
        rw [hwhole]
        apply getElem?_middle
        simp only [positionOf, hpast, List.length_append, List.length_singleton, hfront]
        omega
      · rw [hredo]
        refine ⟨?_, hstep.asked_forth hforth⟩
        obtain ⟨rest, hfuture⟩ := List.head?_eq_some_iff.mp hhead
        have hwhole : course.line = (front ++ engine.history.past course.walk.stack) ++
            started.step.command :: (rest ++ back) := by
          rw [hline, History.line, hfuture]
          simp only [List.append_assoc, List.cons_append]
        rw [hwhole]
        apply getElem?_middle
        simp only [positionOf, List.length_append, hfront]
  · have hresume : engine.advance = engine.resume course.job course.walk := by simp only [advance, hphase]
    rw [show (engine.apply .advance) = _ from hresume] at hacting
    unfold resume at hacting
    split_ifs at hacting
    cases hacting
  · rw [hphase] at hready
    cases hready

/-- **A jump touches only what lies between**, unless it has overshot: every action that it starts is on
a command of the line as it was at the start, and it is one that was asked for exactly if the number of
applied commands is not below the wanted one only because of what limit changes have dropped since. -/
theorem asked_iff_not_overshot (hreachable : engine.Reachable) (hgoal : job.goal = .jump target)
    {during : List Move} (hstarts : engine.Starts job during run) :
    let active := engine.history.active
    let cursor := (engine.history.past active).length
    let dropped := (engine.apply .advance).droppedByAll active during
    let applied := ((engine.applyAll (.advance :: during)).history.past active).length
    let position := positionOf run.step.operation dropped applied
    (engine.history.line active)[position]? = some run.step.command ∧
      (Asked (wantedBy target) cursor run.step.operation position ↔
        ¬ Overshot (wantedBy target) dropped applied) := by
  intro active cursor dropped applied position
  have hbegun := onCourse_beginJump hreachable.steady hstarts.chosen hgoal (hstarts.busy [] List.nil_prefix)
  have hcourse := hbegun.applyAll hgoal during hstarts.busy
  obtain ⟨move, hacting⟩ := hstarts.acting
  rw [Nat.zero_add] at hcourse
  rw [List.cons_append, applyAll_cons, applyAll_append] at hacting
  exact hcourse.starts hgoal hstarts.ready hacting

/-! ### A jump that overshoots -/

/-- Five commands are executed, and a jump is asked for that leaves three of them applied. -/
def beforeJump : List Move := executed [0, 1, 2, 3, 4] ++ [.submit (.jump (some 2)), .advance]

/-- While the last command is undone, the three oldest are dropped. -/
def duringJump : List Move := [.advance, .setLimit 2, success, .advance]

def sampleJump : Job := ⟨6, 0, .jump (some 2)⟩

def sampleOvershoot : Run :=
  ⟨6, sampleJump, some ⟨sampleStack, 3⟩, ⟨sampleCommand 4, sampleStack, .redo⟩, .reversed⟩

theorem sampleJump_starts : (sampleEngine.applyAll beforeJump).Starts sampleJump duringJump sampleOvershoot where
  chosen := by decide
  busy := by
    intro earlier hprefix
    have hall : ∀ earlier ∈ duringJump.inits,
        ((sampleEngine.applyAll beforeJump).applyAll (.advance :: earlier)).phase.job? = some sampleJump := by
      decide
    exact hall earlier ((List.mem_inits earlier duringJump).mpr hprefix)
  ready := by decide
  acting := ⟨.advance, by decide⟩

/-- Without the exception the rule fails. -/
theorem not_always_asked :
    ¬ ∀ (engine : Engine) (job : Job) (target : Option Nat) (during : List Move) (run : Run),
      engine.Reachable → job.goal = .jump target → engine.Starts job during run →
      ∃ position, (engine.history.line engine.history.active)[position]? = some run.step.command ∧
        Asked (wantedBy target) (engine.history.past engine.history.active).length run.step.operation
          position := by
  intro hrule
  obtain ⟨position, -, hasked⟩ := hrule (sampleEngine.applyAll beforeJump) sampleJump (some 2) duringJump
    sampleOvershoot ⟨sampleEngine, beforeJump, sampleEngine_fresh, rfl⟩ rfl sampleJump_starts
  have hcursor : wantedBy (some 2) ≤ ((sampleEngine.applyAll beforeJump).history.past
    (sampleEngine.applyAll beforeJump).history.active).length := by decide
  rw [Asked, if_pos hcursor] at hasked
  cases hasked.1

/-- The redone command was not asked for. -/
theorem asked_iff_not_overshot_sample : ¬ Asked 3 5 .redo 4 := by
  have hiff := (asked_iff_not_overshot ⟨sampleEngine, beforeJump, sampleEngine_fresh, rfl⟩
    (rfl : sampleJump.goal = .jump (some 2)) sampleJump_starts).2
  exact fun hasked => hiff.mp hasked (by decide)

end Retrace.Engine
