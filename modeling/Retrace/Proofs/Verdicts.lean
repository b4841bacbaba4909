import Retrace.Proofs.Clearing
import Retrace.Proofs.Lifecycle
import Retrace.Proofs.Waiting

/-!
# What an answer says

An error can come from an action, from the verdict on it, or from the worker. `Verdict` lists the answers that a job can
get, each with the actions that ran for it; a job is followed from its submission to its answer, and what the answer
says about these actions is read off the list.
-/

namespace Retrace

/-! ### Verdicts on actions -/

namespace EngineError

def IsVerdict (error : EngineError) : Prop :=
  (∃ command reason, error = .executionFailed command reason) ∨ ∃ command reason, error = .unknownFailure command reason

theorem isCommandFailure_iff {error : EngineError} : error.isCommandFailure = true ↔ error.IsVerdict := by
  cases error <;> simp [isCommandFailure, IsVerdict]

end EngineError

/-- What becomes of a failure of an action: a verdict stands, any other error becomes one that names the command and
repeats the error's text, and so does an action that broke off. -/
inductive Failure (command : String) : Outcome → EngineError → Prop where
  | stands {error : EngineError} (hverdict : error.IsVerdict) : Failure command (.returned (.error error)) error
  | wrapped {cause : EngineError} (hother : ¬ cause.IsVerdict) :
      Failure command (.returned (.error cause)) (.executionFailed command cause.message)
  | brokeOff (reason : Option String) :
      Failure command (.brokeOff reason) (.unknownFailure command (reason.getD "unknown error"))

namespace Outcome

variable {command : String} {outcome : Outcome} {error : EngineError}

private theorem settle_eq_error_iff : outcome.settle command = .error error ↔ Failure command outcome error := by
  constructor
  · intro hsettle
    cases outcome with
    | brokeOff reason => exact Except.error.inj hsettle ▸ .brokeOff reason
    | returned result =>
      cases result with
      | ok value => cases hsettle
      | error cause =>
        unfold settle at hsettle
        dsimp only at hsettle
        split_ifs at hsettle with hverdict
        · exact Except.error.inj hsettle ▸ .stands (EngineError.isCommandFailure_iff.mp hverdict)
        · exact Except.error.inj hsettle ▸ .wrapped (EngineError.isCommandFailure_iff.not.mp hverdict)
  · intro hfailure
    cases hfailure with
    | stands hverdict =>
      unfold settle
      dsimp only
      rw [if_pos (EngineError.isCommandFailure_iff.mpr hverdict)]
    | wrapped hother =>
      unfold settle
      dsimp only
      rw [if_neg (EngineError.isCommandFailure_iff.not.mpr hother)]
    | brokeOff reason => rfl

theorem settle_eq_ok_iff {value : Json} : outcome.settle command = .ok value ↔ outcome = .returned (.ok value) := by
  constructor
  · intro hsettle
    cases outcome with
    | brokeOff reason => cases hsettle
    | returned result =>
      cases result with
      | ok other => rw [Except.ok.inj hsettle]
      | error error =>
        unfold settle at hsettle
        dsimp only at hsettle
        split_ifs at hsettle
  · rintro rfl
    rfl

theorem settle_of_isValue (hvalue : outcome.isValue = true) (command : String) :
    ∃ value, outcome.settle command = .ok value := by
  cases hsettle : outcome.settle command with
  | ok value => exact ⟨value, rfl⟩
  | error error =>
    have hsucceeded := succeeded_settle command outcome
    rw [hsettle, hvalue] at hsucceeded
    cases hsucceeded

private theorem settle_of_not_isValue (hvalue : outcome.isValue = false) (command : String) :
    ∃ error, outcome.settle command = .error error ∧ error.IsVerdict := by
  cases hsettle : outcome.settle command with
  | ok value =>
    have hsucceeded := succeeded_settle command outcome
    rw [hsettle, hvalue] at hsucceeded
    cases hsucceeded
  | error error => exact ⟨error, rfl, EngineError.isCommandFailure_iff.mp (isCommandFailure_of_settle hsettle)⟩

end Outcome

namespace Block

private theorem result_isVerdict_iff (block : Block) :
    (∃ error, block.result = .error error ∧ error.IsVerdict) ↔ block.outcome.isValue = false := by
  constructor
  · rintro ⟨error, hresult, -⟩
    by_contra hvalue
    obtain ⟨value, hsettle⟩ := Outcome.settle_of_isValue (by simpa using hvalue) block.run.step.command.text
    exact nomatch hresult.symm.trans hsettle
  · exact fun hvalue => Outcome.settle_of_not_isValue hvalue _

theorem result_ne (block : Block) {error : EngineError} (herror : ¬ error.IsVerdict) :
    block.result ≠ .error error := by
  intro hresult
  exact herror (EngineError.isCommandFailure_iff.mp (Outcome.isCommandFailure_of_settle hresult))

end Block

namespace Engine

variable {engine after start : Engine} {journal : Journal} {move : Move} {moves : List Move} {job : Job} {run : Run}
  {way : Option Walk} {walk : Walk} {ticket : Ticket}

/-! ### The answers that a job can get -/

/-- The answers that need no action at this point: there is no command to go to, the position is not there, or the jump
has arrived or cannot go on. -/
inductive Unmoved (goal : Goal) : Option Walk → ActionResult → Prop where
  | missing (way : Option Walk) (operation : Operation) (filter : Option Scope) (hgoal : goal = goalOf operation filter) :
      Unmoved goal way (.error (missingOf operation))
  | outOfRange (index count : Nat) (hgoal : goal = .jump (some index)) :
      Unmoved goal none (.error (.indexOutOfRange index count))
  | arrived (walk : Walk) (target : Option Nat) (hgoal : goal = .jump target) :
      Unmoved goal (some walk) (.ok (arrival target))
  | stuck (walk : Walk) (target : Option Nat) (hgoal : goal = .jump target) (operation : Operation) :
      Unmoved goal (some walk) (.error (missingOf operation))

/-- A job that has been walking: a jump, all of whose actions have succeeded. -/
structure Walked (job : Job) (deeds : List Block) : Prop where
  jump : ∃ target, job.goal = .jump target
  succeeded : ∀ block ∈ deeds, block.outcome.isValue = true

/-- The answers that a job can get, with the actions that ran for it. -/
inductive Verdict (job : Job) : List Block → ActionResult → Prop where
  | discarded : Verdict job [] (.error .cancelled)
  | unmoved {result : ActionResult} (hunmoved : Unmoved job.goal none result) : Verdict job [] result
  | single (hgoal : ∀ target, job.goal ≠ .jump target) (block : Block) : Verdict job [block] block.result
  | settled {deeds : List Block} (hwalked : Walked job deeds) (walk : Walk) {result : ActionResult}
      (hunmoved : Unmoved job.goal (some walk) result) : Verdict job deeds result
  | givenUp {deeds : List Block} (hwalked : Walked job deeds) : Verdict job deeds (.error .cancelled)
  | stumbled {deeds : List Block} (hwalked : Walked job deeds) (block : Block) (hvalue : block.outcome.isValue = false) :
      Verdict job (deeds ++ [block]) block.result

/-! ### What a move does to the job at hand -/

/-- Whether an action is one of a jump on its way, or the only action of its job. -/
inductive Sets (goal : Goal) : Option Walk → Option Walk → Prop where
  | off (way : Option Walk) (hgoal : ∀ target, goal ≠ .jump target) : Sets goal way none
  | on (walk : Walk) (hgoal : ∃ target, goal = .jump target) : Sets goal (some walk) (some walk)

/-- What becomes of a job whose next action is chosen. -/
inductive Decided (job : Job) (way : Option Walk) (after : Engine) : Prop where
  | bound (walk : Walk) (hgoal : ∃ target, job.goal = .jump target) (hway : way = none)
      (hphase : after.phase = .choosing job (some walk))
  | started (run : Run) (hjob : run.job = job) (hsets : Sets job.goal way run.walk) (hphase : after.phase = .acting run)
  | answered {result : ActionResult} (hunmoved : Unmoved job.goal way result)
      (hanswer : (job.ticket, result) ∈ after.answers)

theorem mem_answers_answer (engine : Engine) (job : Job) (result : ActionResult) :
    (job.ticket, result) ∈ (engine.answer job result).answers :=
  List.mem_append_right _ List.mem_cons_self

theorem decided_answer {result : ActionResult} (hadvance : engine.advance = engine.answer job result)
    (hunmoved : Unmoved job.goal way result) : Decided job way engine.advance :=
  .answered hunmoved (hadvance ▸ mem_answers_answer engine job result)

private theorem goalOf_ne_jump (operation : Operation) (filter : Option Scope) (target : Option Nat) :
    goalOf operation filter ≠ .jump target := by
  cases operation <;> nofun

private theorem decided_moveChosen (hsteady : engine.Steady) (hphase : engine.phase = .choosing job way)
    (operation : Operation) {filter : Option Scope} (hmove : operation ≠ .execute)
    (hgoal : job.goal = goalOf operation filter) :
    Decided job way engine.advance := by
  rcases stepped_moveChosen hsteady hphase hmove hgoal with
    ⟨hmissing, -⟩ | ⟨candidate, run, -, hjob, hwalk, -, hstepped⟩
  · have hadvance := advance_moveChosen hphase hmove hgoal
    rw [beginMove, hmissing] at hadvance
    exact decided_answer hadvance (.missing way operation filter hgoal)
  · refine .started run hjob ?_ hstepped.phase
    rw [hwalk]
    exact .off way fun target => hgoal ▸ goalOf_ne_jump operation filter target

private theorem decided_bound (hsteady : engine.Steady) {target : Option Nat}
    (hphase : engine.phase = .choosing job none) (hgoal : job.goal = .jump target) :
    Decided job none engine.advance := by
  have hstepped := stepped_beginJump hsteady.sound hphase hgoal
  cases target with
  | none => exact .bound _ ⟨none, hgoal⟩ rfl hstepped.phase
  | some index =>
    by_cases hrange : (engine.history.line engine.history.active).length ≤ index
    · exact decided_answer (advance_outOfRange hsteady.sound hphase hgoal hrange) (.outOfRange index _ hgoal)
    · dsimp only at hstepped
      rw [if_neg hrange] at hstepped
      exact .bound _ ⟨some index, hgoal⟩ rfl hstepped.phase

private theorem decided_walking (hsteady : engine.Steady) {target : Option Nat}
    (hphase : engine.phase = .choosing job (some walk)) (hgoal : job.goal = .jump target) :
    Decided job (some walk) engine.advance := by
  have hstarted : ∀ {run : Run}, run.job = job → run.walk = some walk → engine.Stepped (.acting run) →
      Decided job (some walk) engine.advance := by
    intro run hjob hwalk hstepped
    refine .started run hjob ?_ hstepped.phase
    rw [hwalk]
    exact .on walk ⟨target, hgoal⟩
  have hanswer : ∀ {result}, Unmoved job.goal (some walk) result → engine.advance = engine.answer job result →
      Decided job (some walk) engine.advance := fun hunmoved hadvance => decided_answer hadvance hunmoved
  have hadvance := advance_walking hphase hgoal
  unfold continueJump at hadvance
  cases hstack : engine.history.stack? walk.stack with
  | none =>
    rw [hstack] at hadvance
    exact hanswer (.arrived walk target hgoal) hadvance
  | some stack =>
    have hholds := hsteady.sound.holds hstack
    have hnext := fun direction => (hsteady.sound.neighbour_eq direction hstack).symm
    rw [hstack] at hadvance
    dsimp only at hadvance
    split_ifs at hadvance
    · split at hadvance
      · exact hanswer (.stuck walk target hgoal .undo) hadvance
      · next command hundo =>
        have hruns := runsAction_of_recorded hsteady ((hnext .backward).trans hundo) .undo
        obtain ⟨run, hjob, hwalk, -, hstepped⟩ := stepped_begin hadvance rfl (Framed.refl engine) hruns
        exact hstarted hjob hwalk hstepped
    · split at hadvance
      · exact hanswer (.stuck walk target hgoal .redo) hadvance
      · next command hredo =>
        have hruns := runsAction_of_recorded hsteady ((hnext .forward).trans hredo) .redo
        obtain ⟨run, hjob, hwalk, -, hstepped⟩ := stepped_begin hadvance rfl (Framed.refl engine) hruns
        exact hstarted hjob hwalk hstepped
    · exact hanswer (.arrived walk target hgoal) hadvance

private theorem decided_advance (hsteady : engine.Steady) (hphase : engine.phase = .choosing job way) :
    Decided job way engine.advance := by
  cases hgoal : job.goal with
  | execute command stack =>
    obtain ⟨run, hjob, hwalk, -, hstepped⟩ := stepped_execute hphase hgoal
    refine .started run hjob ?_ hstepped.phase
    rw [hwalk, hgoal]
    exact .off way nofun
  | undo filter => exact decided_moveChosen hsteady hphase .undo (by simp) hgoal
  | redo filter => exact decided_moveChosen hsteady hphase .redo (by simp) hgoal
  | jump target =>
    cases way with
    | none => exact decided_bound hsteady hphase hgoal
    | some walk => exact decided_walking hsteady hphase hgoal

theorem phase_apply (engine : Engine) (move : Move) :
    (engine.apply move).phase = engine.phase ∨ move = .advance ∨ ∃ outcome, move = .finish outcome := by
  cases move with
  | submit request => exact .inl (submit_frame engine request).2
  | clear => exact .inl rfl
  | setLimit limit => exact .inl rfl
  | activate stack => exact .inl rfl
  | route scope stack => exact .inl (route_frame engine scope stack).2
  | shutDown => exact .inl rfl
  | advance => exact .inr (.inl rfl)
  | report number event => exact .inl (report_frame engine number event).2
  | finish outcome => exact .inr (.inr ⟨outcome, rfl⟩)

private theorem advance_of_acting (hphase : engine.phase = .acting run) : engine.advance = engine := by
  simp only [advance, hphase]

theorem finish_of_not_acting (hphase : engine.phase.run? = none) (outcome : Outcome) :
    engine.finish outcome = engine := by
  unfold finish
  split
  · next run hacting =>
    rw [hacting] at hphase
    cases hphase
  · rfl

theorem apply_choosing (hsteady : engine.Steady) (hphase : engine.phase = .choosing job way) (move : Move) :
    (engine.apply move).phase = engine.phase ∨ Decided job way (engine.apply move) := by
  rcases engine.phase_apply move with hsame | rfl | ⟨outcome, rfl⟩
  · exact .inl hsame
  · exact .inr (decided_advance hsteady hphase)
  · have hidle : engine.phase.run? = none := by rw [hphase]; rfl
    exact .inl (congrArg Engine.phase (finish_of_not_acting hidle outcome))

private theorem apply_resting (hphase : engine.phase = .resting job walk) (move : Move) :
    (engine.apply move).phase = engine.phase ∨ (engine.apply move).phase = .choosing job (some walk) ∨
      (job.ticket, .error .cancelled) ∈ (engine.apply move).answers := by
  rcases engine.phase_apply move with hsame | rfl | ⟨outcome, rfl⟩
  · exact .inl hsame
  · refine .inr ?_
    show engine.advance.phase = _ ∨ _ ∈ engine.advance.answers
    simp only [advance, hphase, resume]
    split_ifs
    · exact .inl rfl
    · exact .inr (mem_answers_answer ..)
  · have hidle : engine.phase.run? = none := by rw [hphase]; rfl
    exact .inl (congrArg Engine.phase (finish_of_not_acting hidle outcome))

/-- What becomes of a job whose action ends. -/
inductive Concluded (run : Run) (outcome : Outcome) (after : Engine) : Prop where
  | rested (walk : Walk) (hwalk : run.walk = some walk) (hvalue : outcome.isValue = true)
      (hphase : after.phase = .resting run.job walk)
  | answered (hover : run.walk = none ∨ outcome.isValue = false)
      (hanswer : (run.job.ticket, outcome.settle run.step.command.text) ∈ after.answers)

private theorem concluded_finish (hphase : engine.phase = .acting run) (outcome : Outcome) :
    Concluded run outcome (engine.finish outcome) := by
  have hsucceeded := Outcome.succeeded_settle run.step.command.text outcome
  have hover : run.walk = none ∨ outcome.isValue = false → Concluded run outcome (engine.finish outcome) :=
    fun hover => .answered hover (mem_answers_finish hphase outcome (by rwa [hsucceeded]))
  cases hwalk : run.walk with
  | none => exact hover (.inl hwalk)
  | some walk =>
    cases hvalue : outcome.isValue with
    | false => exact hover (.inr hvalue)
    | true =>
      obtain ⟨value, hsettle⟩ := Outcome.settle_of_isValue hvalue run.step.command.text
      refine .rested walk hwalk hvalue ?_
      rw [finish_eq hphase, hsettle]
      exact conclude_ok_walk hwalk _ value

theorem apply_acting (hphase : engine.phase = .acting run) (move : Move) :
    (∀ outcome, move ≠ .finish outcome) ∧ (engine.apply move).phase = engine.phase ∨
      ∃ outcome, move = .finish outcome ∧ Concluded run outcome (engine.apply move) := by
  by_cases hfinish : ∃ outcome, move = .finish outcome
  · obtain ⟨outcome, rfl⟩ := hfinish
    exact .inr ⟨outcome, rfl, concluded_finish hphase outcome⟩
  · refine .inl ⟨not_exists.mp hfinish, ?_⟩
    rcases engine.phase_apply move with hsame | rfl | hfinished
    · exact hsame
    · exact congrArg Engine.phase (advance_of_acting hphase)
    · exact absurd hfinished hfinish

private theorem Passage.waits (hpassage : engine.Passage move after) (hwaiting : job ∈ engine.queue) :
    job ∈ after.queue ∨ after.phase = .choosing job none ∨ (job.ticket, .error .cancelled) ∈ after.answers := by
  cases hpassage with
  | kept _ hqueue => exact .inl (hqueue ▸ hwaiting)
  | joined _ _ _ _ hqueue => exact .inl (hqueue ▸ List.mem_append_left _ hwaiting)
  | cleared _ _ hqueue => exact .inl (hqueue ▸ hwaiting)
  | taken first _ _ hqueue _ hphase =>
    rw [hqueue] at hwaiting
    rcases List.mem_cons.mp hwaiting with rfl | hbehind
    · exact .inr (.inl hphase)
    · exact .inl hbehind
  | dropped first _ _ hqueue _ _ hanswers =>
    rw [hqueue] at hwaiting
    rcases List.mem_cons.mp hwaiting with rfl | hbehind
    · exact .inr (.inr (hanswers ▸ List.mem_append_right _ List.mem_cons_self))
    · exact .inl hbehind
  | answered _ _ _ _ hqueue => exact .inl (hqueue ▸ hwaiting)

/-! ### The actions of a job -/

end Engine

namespace Journal

variable {journal : Journal} {engine : Engine} {move : Move} {run : Run} {ticket : Ticket}

def deedsOf (journal : Journal) (ticket : Ticket) : List Block :=
  journal.blocks.filter fun block => block.run.job.ticket = ticket

private theorem deedsOf_note_of_ne (journal : Journal)
    (hother : ∀ run, engine.phase = .acting run → run.job.ticket ≠ ticket) (move : Move) :
    (journal.note engine move).deedsOf ticket = journal.deedsOf ticket := by
  rcases journal.blocks_note_cases engine move with hsame | ⟨run, outcome, hacting, -, hblocks⟩
  · rw [deedsOf, hsame, deedsOf]
  · rw [deedsOf, hblocks, List.filter_append]
    simp [hother run hacting, deedsOf]

private theorem deedsOf_note_finish (hacting : engine.phase = .acting run) (outcome : Outcome) :
    (journal.note engine (.finish outcome)).deedsOf run.job.ticket = journal.deedsOf run.job.ticket ++
      [⟨run, journal.reports, outcome, engine.history, (engine.finish outcome).history⟩] := by
  rw [note_finish hacting, deedsOf, List.filter_append]
  simp [deedsOf]

theorem keep_append (journal : Journal) (engine : Engine) (first second : List Move) :
    journal.keep engine (first ++ second) = (journal.keep engine first).keep (engine.applyAll first) second := by
  induction first generalizing journal engine with
  | nil => rfl
  | cons move first ih => exact ih (journal.note engine move) (engine.apply move)

end Journal

namespace Engine

variable {engine after start : Engine} {journal : Journal} {move : Move} {moves : List Move} {job : Job} {run : Run}
  {way : Option Walk} {walk : Walk} {ticket : Ticket}

/-- How far a job has come whose next action is about to be chosen or is running. -/
inductive Underway (job : Job) : Option Walk → List Block → Prop where
  | first : Underway job none []
  | walking {deeds : List Block} (walk : Walk) (hwalked : Walked job deeds) : Underway job (some walk) deeds

/-- Where a job is that has been accepted, with the actions that have run for it. -/
inductive Situation (job : Job) (deeds : List Block) (engine : Engine) : Prop where
  | waiting (hwaiting : job ∈ engine.queue) (hnone : deeds = [])
  | choosing (way : Option Walk) (hphase : engine.phase = .choosing job way) (hunderway : Underway job way deeds)
  | acting (run : Run) (hphase : engine.phase = .acting run) (hjob : run.job = job)
      (hunderway : Underway job run.walk deeds) (hsingle : run.walk = none → ∀ target, job.goal ≠ .jump target)
  | resting (walk : Walk) (hphase : engine.phase = .resting job walk) (hwalked : Walked job deeds)
  | answered (result : ActionResult) (hanswer : (job.ticket, result) ∈ engine.answers)
      (hverdict : Verdict job deeds result)

variable {deeds : List Block}

private theorem Underway.set (hunderway : Underway job way deeds) {next : Option Walk}
    (hsets : Sets job.goal way next) : Underway job next deeds ∧ (next = none → ∀ target, job.goal ≠ .jump target) := by
  cases hsets with
  | off way hgoal =>
    cases hunderway with
    | first => exact ⟨.first, fun _ => hgoal⟩
    | walking walk hwalked =>
      obtain ⟨target, hjump⟩ := hwalked.jump
      exact absurd hjump (hgoal target)
  | on walk hgoal => exact ⟨hunderway, nofun⟩

private theorem Underway.answered (hunderway : Underway job way deeds) {result : ActionResult}
    (hunmoved : Unmoved job.goal way result) : Verdict job deeds result := by
  cases hunderway with
  | first => exact .unmoved hunmoved
  | walking walk hwalked => exact .settled hwalked walk hunmoved

theorem Walked.concat (hwalked : Walked job deeds) {block : Block} (hvalue : block.outcome.isValue = true) :
    Walked job (deeds ++ [block]) where
  jump := hwalked.jump
  succeeded := by
    intro other hother
    rcases List.mem_append.mp hother with hold | hnew
    · exact hwalked.succeeded other hold
    · rw [List.mem_singleton.mp hnew]
      exact hvalue

theorem Situation.concluded {block : Block} (hunderway : Underway job run.walk deeds)
    (hsingle : run.walk = none → ∀ target, job.goal ≠ .jump target) (hjob : run.job = job) (hrun : block.run = run)
    (hconcluded : Concluded run block.outcome after) : Situation job (deeds ++ [block]) after := by
  subst hjob
  cases hconcluded with
  | rested walk hwalk hvalue hphase =>
    rw [hwalk] at hunderway
    cases hunderway with
    | walking _ hwalked => exact .resting walk hphase (hwalked.concat hvalue)
  | answered hover hanswer =>
    have hresult : block.outcome.settle run.step.command.text = block.result := by rw [Block.result, hrun]
    rw [hresult] at hanswer
    refine .answered _ hanswer ?_
    generalize run.walk = way at hunderway hsingle hover
    cases hunderway with
    | first => exact .single (hsingle rfl) block
    | walking walk hwalked => exact .stumbled hwalked block (hover.resolve_left nofun)

private theorem Situation.note (hsituation : Situation job (journal.deedsOf job.ticket) engine)
    (hsteady : engine.Steady) (hnumbered : engine.Numbered) (move : Move) :
    Situation job ((journal.note engine move).deedsOf job.ticket) (engine.apply move) := by
  have hresting : engine.phase.run? = none →
      (journal.note engine move).deedsOf job.ticket = journal.deedsOf job.ticket := by
    intro hidle
    refine journal.deedsOf_note_of_ne (fun run hacting => ?_) move
    rw [hacting] at hidle
    cases hidle
  cases hsituation with
  | waiting hwaiting hnone =>
    -- what ends is an action of the job at hand, and that is another one
    have hsame := journal.deedsOf_note_of_ne (fun run hacting =>
      (hnumbered.ticket_ne_of_queue (by rw [hacting]; rfl) hwaiting).symm) move
    rw [hsame, hnone]
    rcases (engine.passage_apply move).waits hwaiting with hstill | htaken | hdropped
    · exact .waiting hstill rfl
    · exact .choosing none htaken .first
    · exact .answered _ hdropped .discarded
  | choosing way hphase hunderway =>
    rw [hresting (by rw [hphase]; rfl)]
    rcases apply_choosing hsteady hphase move with hstill | hdecided
    · exact .choosing way (hstill.trans hphase) hunderway
    · cases hdecided with
      | bound walk hgoal hway hafter =>
        rw [hway] at hunderway
        generalize journal.deedsOf job.ticket = deeds at hunderway ⊢
        cases hunderway
        exact .choosing _ hafter (.walking walk ⟨hgoal, List.forall_mem_nil _⟩)
      | started run hjob hsets hafter =>
        obtain ⟨hset, hsingle⟩ := hunderway.set hsets
        exact .acting run hafter hjob hset hsingle
      | answered hunmoved hanswer => exact .answered _ hanswer (hunderway.answered hunmoved)
  | acting run hphase hjob hunderway hsingle =>
    rcases apply_acting hphase move with ⟨hmove, hstill⟩ | ⟨outcome, rfl, hconcluded⟩
    · have hblocks : (journal.note engine move).blocks = journal.blocks :=
        Journal.blocks_note fun _ outcome _ => hmove outcome
      rw [Journal.deedsOf, hblocks]
      exact .acting run (hstill.trans hphase) hjob hunderway hsingle
    · rw [← hjob, Journal.deedsOf_note_finish hphase, hjob]
      exact Situation.concluded hunderway hsingle hjob rfl hconcluded
  | resting walk hphase hwalked =>
    rw [hresting (by rw [hphase]; rfl)]
    rcases apply_resting hphase move with hstill | hresumed | hcancelled
    · exact .resting walk (hstill.trans hphase) hwalked
    · exact .choosing _ hresumed (.walking walk hwalked)
    · exact .answered _ hcancelled (.givenUp hwalked)
  | answered result hanswer hverdict =>
    -- the job at hand has a larger ticket
    have hsame := journal.deedsOf_note_of_ne (fun run hacting =>
      (hnumbered.not_answered (mem_unanswered_of_job (by rw [hacting]; rfl)) hanswer).ne') move
    rw [hsame]
    exact .answered result ((engine.passage_apply move).answers_extended.subset hanswer) hverdict

private theorem Situation.follow (hsituation : Situation job (journal.deedsOf job.ticket) engine)
    (hsteady : engine.Steady) (hnumbered : engine.Numbered) (moves : List Move) :
    Situation job ((journal.keep engine moves).deedsOf job.ticket) (engine.applyAll moves) := by
  induction moves generalizing engine journal with
  | nil => exact hsituation
  | cons move moves ih =>
    exact ih (hsituation.note hsteady hnumbered move) (hsteady.change (hsteady.change_apply move))
      (hnumbered.change (engine.passage_apply move))

theorem Situation.verdict (hsituation : Situation job deeds engine) (hnumbered : engine.Numbered)
    {result : ActionResult} (hanswer : engine.answer? job.ticket = some result) : Verdict job deeds result := by
  have hopen : job ∈ engine.unanswered → Verdict job deeds result := by
    intro hunanswered
    rw [hnumbered.answer?_eq_none hunanswered] at hanswer
    cases hanswer
  cases hsituation with
  | waiting hwaiting => exact hopen (mem_unanswered_of_queue hwaiting)
  | choosing way hphase => exact hopen (mem_unanswered_of_job (by rw [hphase]; rfl))
  | acting run hphase hjob => exact hopen (mem_unanswered_of_job (by rw [hphase, ← hjob]; rfl))
  | resting walk hphase => exact hopen (mem_unanswered_of_job (by rw [hphase]; rfl))
  | answered other hother hverdict =>
    rw [hnumbered.answer?_eq_some hother] at hanswer
    exact Option.some.inj hanswer ▸ hverdict

/-! ### What the answers say -/

private theorem Unmoved.not_isVerdict {goal : Goal} {error : EngineError}
    (hunmoved : Unmoved goal way (.error error)) : ¬ error.IsVerdict := by
  rw [← EngineError.isCommandFailure_iff]
  cases hunmoved with
  | missing way operation => cases operation <;> exact Bool.false_ne_true
  | outOfRange => exact Bool.false_ne_true
  | stuck walk target hgoal operation => cases operation <;> exact Bool.false_ne_true

private theorem Unmoved.ne_outOfRange {goal : Goal} {result : ActionResult}
    (hunmoved : Unmoved goal (some walk) result) (index count : Nat) :
    result ≠ .error (.indexOutOfRange index count) := by
  intro hrange
  cases hunmoved with
  | missing _ operation => cases operation <;> cases hrange
  | arrived => cases hrange
  | stuck _ _ _ operation => cases operation <;> cases hrange

theorem Walked.last (hwalked : Walked job deeds) {block : Block} (hlast : deeds.getLast? = some block) :
    block.outcome.isValue = true := hwalked.succeeded block (List.mem_of_getLast? hlast)

theorem unfailed_iff {result : ActionResult} (hresult : ∀ error, result = .error error → ¬ error.IsVerdict)
    (hdeeds : ∀ block, deeds.getLast? = some block → block.outcome.isValue = true) :
    (∃ error, result = .error error ∧ error.IsVerdict) ↔
      ∃ block, deeds.getLast? = some block ∧ block.outcome.isValue = false := by
  constructor
  · rintro ⟨error, herror, hverdict⟩
    exact absurd hverdict (hresult error herror)
  · rintro ⟨block, hlast, hvalue⟩
    rw [hdeeds block hlast] at hvalue
    cases hvalue

namespace Verdict

variable {result : ActionResult} (hverdict : Verdict job deeds result)

include hverdict

private theorem isVerdict_iff : (∃ error, result = .error error ∧ error.IsVerdict) ↔
    ∃ block, deeds.getLast? = some block ∧ block.outcome.isValue = false := by
  have hcancelled : ∀ error, (.error .cancelled : ActionResult) = .error error → ¬ error.IsVerdict := by
    intro error herror
    rw [← Except.error.inj herror, ← EngineError.isCommandFailure_iff]
    exact Bool.false_ne_true
  have hnone : ∀ block : Block, [].getLast? = some block → block.outcome.isValue = true := by simp
  cases hverdict with
  | discarded => exact unfailed_iff hcancelled hnone
  | unmoved hunmoved => exact unfailed_iff (fun error herror => (herror ▸ hunmoved).not_isVerdict) hnone
  | single _ block => simpa using block.result_isVerdict_iff
  | settled hwalked walk hunmoved =>
    exact unfailed_iff (fun error herror => (herror ▸ hunmoved).not_isVerdict) fun block => hwalked.last
  | givenUp hwalked => exact unfailed_iff hcancelled fun block => hwalked.last
  | stumbled _ block => simpa using block.result_isVerdict_iff

theorem eq_result {block : Block} (hlast : deeds.getLast? = some block) (hvalue : block.outcome.isValue = false) :
    result = block.result := by
  cases hverdict with
  | discarded => cases hlast
  | unmoved => cases hlast
  | single _ only => rw [← Option.some.inj hlast, List.getLast_singleton]
  | settled hwalked => exact absurd (hwalked.last hlast) (by simp [hvalue])
  | givenUp hwalked => exact absurd (hwalked.last hlast) (by simp [hvalue])
  | stumbled _ last =>
    rw [List.getLast?_concat] at hlast
    rw [Option.some.inj hlast]

private theorem eq_nil_of_outOfRange {index count : Nat} (hrange : result = .error (.indexOutOfRange index count)) :
    deeds = [] := by
  have hkind : ¬ (EngineError.indexOutOfRange index count).IsVerdict := by simp [EngineError.IsVerdict]
  cases hverdict with
  | discarded => rfl
  | unmoved => rfl
  | single _ block => exact absurd hrange (block.result_ne hkind)
  | settled _ walk hunmoved => exact absurd hrange (hunmoved.ne_outOfRange index count)
  | givenUp => cases hrange
  | stumbled _ block => exact absurd hrange (block.result_ne hkind)

private theorem eq_nil_of_missing (hgoal : ∀ target, job.goal ≠ .jump target) (operation : Operation)
    (hmissing : result = .error (missingOf operation)) : deeds = [] := by
  have hkind : ¬ (missingOf operation).IsVerdict := by cases operation <;> simp [missingOf, EngineError.IsVerdict]
  have hjump : ¬ Walked job deeds := fun hwalked => hwalked.jump.elim hgoal
  cases hverdict with
  | discarded => rfl
  | unmoved => rfl
  | single _ block => exact absurd hmissing (block.result_ne hkind)
  | settled hwalked => exact absurd hwalked hjump
  | givenUp hwalked => exact absurd hwalked hjump
  | stumbled _ block => exact absurd hmissing (block.result_ne hkind)

end Verdict

/-! ### Whole runs -/

def deedsOf (start : Engine) (moves : List Move) (ticket : Ticket) : List Block := (start.journal moves).deedsOf ticket

theorem admitted_of_submit {request : Request} (haccepted : (engine.submit request).1 = .ok ticket) :
    ∃ goal, engine.goalFor request = .ok goal ∧ ticket = engine.nextTicket ∧
      ⟨ticket, engine.generation, goal⟩ ∈ (engine.submit request).2.queue := by
  unfold submit at haccepted ⊢
  split_ifs at haccepted ⊢
  dsimp only at haccepted ⊢
  have hsame : ({ engine with nextTicket := engine.nextTicket + 1 }).goalFor request = engine.goalFor request := rfl
  rw [hsame] at haccepted ⊢
  cases hgoal : engine.goalFor request with
  | error error =>
    rw [hgoal] at haccepted
    cases haccepted
  | ok goal =>
    rw [hgoal] at haccepted
    unfold schedule at haccepted ⊢
    dsimp only at haccepted ⊢
    split_ifs at haccepted ⊢
    obtain rfl := Except.ok.inj haccepted
    exact ⟨goal, rfl, rfl, List.mem_append_right _ List.mem_cons_self⟩

private theorem Fresh.mem_begun (hfresh : start.Fresh) {block : Block}
    (hblock : block ∈ (start.journal moves).blocks) : block.run ∈ start.begun moves := by
  rw [hfresh.actions_eq]
  exact List.mem_append_left _ (List.mem_map_of_mem hblock)

private theorem Fresh.lt_nextTicket (hfresh : start.Fresh) (hrun : run ∈ start.begun moves) :
    run.job.ticket < (start.applyAll moves).nextTicket := by
  have hnoted := hfresh.noted moves
  have hhandled := handled_prefix (start.applyAll moves)
  exact hnoted.numbered.given _ (hhandled.subset (hnoted.started.taken run hrun))

theorem Fresh.deedsOf_eq_nil (hfresh : start.Fresh) (moves : List Move) :
    start.deedsOf moves (start.applyAll moves).nextTicket = [] := by
  refine List.filter_eq_nil_iff.mpr fun block hblock => ?_
  have hless := hfresh.lt_nextTicket (hfresh.mem_begun hblock)
  simpa using hless.ne

theorem journal_submit (start : Engine) (before : List Move) (request : Request) (later : List Move) :
    start.journal (before ++ .submit request :: later) =
      (start.journal before).keep ((start.applyAll before).apply (.submit request)) later := by
  have hnote : (start.journal before).note (start.applyAll before) (.submit request) = start.journal before :=
    Journal.note_other fun _ _ => ⟨nofun, nofun⟩
  rw [journal, Journal.keep_append, Journal.keep]
  exact congrArg (fun journal => Journal.keep journal _ later) hnote

/-- A job that has been accepted is followed through the rest of the run. -/
theorem Fresh.situation (hfresh : start.Fresh) (before : List Move) {request : Request}
    (haccepted : ((start.applyAll before).submit request).1 = .ok ticket) (later : List Move) :
    ∃ goal, (start.applyAll before).goalFor request = .ok goal ∧
      Situation ⟨ticket, (start.applyAll before).generation, goal⟩
        (start.deedsOf (before ++ .submit request :: later) ticket)
        (start.applyAll (before ++ .submit request :: later)) := by
  obtain ⟨goal, hgoal, rfl, hwaiting⟩ := admitted_of_submit haccepted
  refine ⟨goal, hgoal, ?_⟩
  have hsteady := hfresh.steady.applyAll before
  have hnumbered := hfresh.numbered.applyAll before
  have hsituation : Situation ⟨_, (start.applyAll before).generation, goal⟩
      (start.deedsOf before (start.applyAll before).nextTicket) ((start.applyAll before).apply (.submit request)) :=
    .waiting hwaiting (hfresh.deedsOf_eq_nil before)
  rw [applyAll_append, applyAll_cons, deedsOf, journal_submit]
  exact hsituation.follow (hsteady.change (hsteady.change_apply _)) (hnumbered.change (passage_apply _ _)) later

theorem Fresh.begun_eq (hfresh : start.Fresh) (moves : List Move) (ticket : Ticket)
    (hidle : ∀ run, (start.applyAll moves).phase = .acting run → run.job.ticket ≠ ticket) :
    (start.begun moves).filter (fun run => run.job.ticket = ticket) = (start.deedsOf moves ticket).map Block.run := by
  have hnone : (start.applyAll moves).phase.run?.toList.filter (fun run => run.job.ticket = ticket) = [] := by
    refine List.filter_eq_nil_iff.mpr fun run hrun => ?_
    simpa using hidle run (phase_of_run? (Option.mem_toList.mp hrun))
  rw [hfresh.actions_eq, List.filter_append, hnone, List.append_nil, List.filter_map]
  rfl

theorem Fresh.cleared (hfresh : start.Fresh) {before later : List Move} {request : Request}
    (hnumber : ticket = (start.applyAll before).nextTicket)
    (hcancelled : (ticket, .error .cancelled) ∈ (start.applyAll (before ++ .submit request :: later)).answers) :
    ∃ middle rest : List Move, later = middle ++ .clear :: rest ∧
      (start.applyAll (before ++ .submit request :: middle)).answer? ticket = none := by
  obtain ⟨front, rest, job, hmoves, hjob, rfl⟩ := (hfresh.dated _).cancelled ticket hcancelled
  have hnone := (hfresh.numbered.applyAll front).answer?_eq_none hjob
  rcases List.append_eq_append_iff.mp hmoves with ⟨back, rfl, hrest⟩ | ⟨back, rfl, -⟩
  · rcases List.cons_eq_append_iff.mp hrest with ⟨-, hhead⟩ | ⟨middle, rfl, hlater⟩
    · cases hhead
    · exact ⟨middle, rest, hlater, hnone⟩
  · -- before its submission there was no such job
    have hearly : job.ticket ∈ (start.applyAll front).tickets := List.mem_append_right _ (List.mem_map_of_mem hjob)
    have htickets := tickets_prefix_applyAll (start.applyAll front) back
    rw [← applyAll_append] at htickets
    have hless := (hfresh.numbered.applyAll (front ++ back)).given _ (htickets.subset hearly)
    exact absurd hnumber hless.ne

/-- What the answer to a request says of what happened between its submission and its answer. -/
structure Explained (start : Engine) (before : List Move) (request : Request) (later : List Move) (ticket : Ticket)
    (result : ActionResult) : Prop where
  /-- The actions that were started for the job have all ended. -/
  ran : (start.begun (before ++ .submit request :: later)).filter (fun run => run.job.ticket = ticket) =
    (start.deedsOf (before ++ .submit request :: later) ticket).map Block.run
  /-- The answer is a verdict on a command exactly when the last of these actions failed. -/
  failed : (∃ error, result = .error error ∧ error.IsVerdict) ↔
    ∃ block, (start.deedsOf (before ++ .submit request :: later) ticket).getLast? = some block ∧
      block.outcome.isValue = false
  /-- It is then the verdict on that action: verdicts stand, other errors and breaks are put into one. -/
  verdict : ∀ block error, (start.deedsOf (before ++ .submit request :: later) ticket).getLast? = some block →
    Failure block.run.step.command.text block.outcome error → result = .error error
  /-- Only a job is cancelled that was not answered at a clear after its submission. -/
  cancelled : result = .error .cancelled → ∃ middle rest : List Move, later = middle ++ .clear :: rest ∧
    (start.applyAll (before ++ .submit request :: middle)).answer? ticket = none
  /-- A job whose position is out of range has run no action. -/
  range : ∀ index count, result = .error (.indexOutOfRange index count) →
    ∀ run ∈ start.begun (before ++ .submit request :: later), run.job.ticket ≠ ticket
  /-- No more has an undo or a redo for which there is no command. -/
  missing : ∀ filter, request = .undo filter ∨ request = .redo filter →
    result = .error .noMoreUndos ∨ result = .error .noMoreRedos →
      ∀ run ∈ start.begun (before ++ .submit request :: later), run.job.ticket ≠ ticket

/-- **The error of a job says what happened to it**, whatever errors its actions end with. -/
theorem explained_of_answer (hfresh : start.Fresh) (before : List Move) {request : Request}
    (haccepted : ((start.applyAll before).submit request).1 = .ok ticket) (later : List Move) {result : ActionResult}
    (hanswer : (start.applyAll (before ++ .submit request :: later)).answer? ticket = some result) :
    start.Explained before request later ticket result := by
  obtain ⟨goal, hgoal, hsituation⟩ := hfresh.situation before haccepted later
  have hnumbered := hfresh.numbered.applyAll (before ++ .submit request :: later)
  have hmem : (ticket, result) ∈ (start.applyAll (before ++ .submit request :: later)).answers := by
    obtain ⟨front, rest, hanswers, -⟩ := List.lookup_eq_some_iff.mp hanswer
    rw [hanswers]
    exact List.mem_append_right _ List.mem_cons_self
  have hverdict := hsituation.verdict hnumbered hanswer
  have hran := hfresh.begun_eq (before ++ .submit request :: later) ticket fun run hacting =>
    (hnumbered.not_answered (mem_unanswered_of_job (by rw [hacting]; rfl)) hmem).ne'
  have hidle : start.deedsOf (before ++ .submit request :: later) ticket = [] →
      ∀ run ∈ start.begun (before ++ .submit request :: later), run.job.ticket ≠ ticket := by
    intro hnone run hrun hticket
    rw [hnone, List.map_nil, List.filter_eq_nil_iff] at hran
    exact hran run hrun (by simpa using hticket)
  constructor
  · exact hran
  · exact hverdict.isVerdict_iff
  · intro block error hlast hfailure
    have hsettle := Outcome.settle_eq_error_iff.mpr hfailure
    have hvalue : block.outcome.isValue = false := by
      rw [← Outcome.succeeded_settle block.run.step.command.text, hsettle]
      rfl
    rw [hverdict.eq_result hlast hvalue]
    exact hsettle
  · intro hresult
    obtain ⟨-, -, hnumber, -⟩ := admitted_of_submit haccepted
    exact hfresh.cleared hnumber (hresult ▸ hmem)
  · intro index count hresult
    exact hidle (hverdict.eq_nil_of_outOfRange hresult)
  · intro filter hrequest hresult
    have hjump : ∀ target, goal ≠ .jump target := by
      rcases hrequest with rfl | rfl <;> rw [eq_of_checked hgoal] <;> nofun
    rcases hresult with hundos | hredos
    · exact hidle (hverdict.eq_nil_of_missing hjump .undo hundos)
    · exact hidle (hverdict.eq_nil_of_missing hjump .redo hredos)

/-- The undo of a command ends with the error of a cancelled job, and no clear has happened. -/
theorem explained_of_answer_feigned :
    ((sampleEngine.applyAll (executed [0])).submit (.undo none)).1 = .ok 2 ∧
      (sampleEngine.applyAll (executed [0] ++ underway (.undo none) ++ [.finish (.returned (.error .cancelled))])).answer? 2 =
        some (.error (.executionFailed "" "Operation cancelled before execution")) ∧
      sampleEngine.Explained (executed [0]) (.undo none)
        [.advance, .advance, .finish (.returned (.error .cancelled))] 2
        (.error (.executionFailed "" "Operation cancelled before execution")) :=
  ⟨by decide, by decide, explained_of_answer sampleEngine_fresh (executed [0]) (by decide) _ (by decide)⟩

end Engine

end Retrace
