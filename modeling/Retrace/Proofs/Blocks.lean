import Retrace.Proofs.Chronicle
import Retrace.Proofs.Recency
import Retrace.Proofs.Tickets

/-!
# Blocks of events

An action from its start to its end is written down as a block, from which the events that belong to it are read off. A
journal of the blocks is kept beside a run.
-/

namespace Retrace

def Step.took (step : Step) (before after : History) : Bool :=
  match step.operation with
  | .execute => after == before.record step.stack step.command
  | .undo => (after.past step.stack).length + 1 == (before.past step.stack).length
  | .redo => (after.past step.stack).length == (before.past step.stack).length + 1

def Run.opening (run : Run) (reports : List ProgressEvent) : List EngineEvent :=
  let progress := reports.map (EngineEvent.progress run.step.command.id)
  match run.step.operation with
  | .execute => progress
  | .undo => .undoing run.step.command.scope true :: progress
  | .redo => .redoing run.step.command.scope true :: progress

/-- An action from its start to its end, with its reports and the histories before and after its end. -/
structure Block where
  run : Run
  reports : List ProgressEvent
  outcome : Outcome
  before : History
  after : History

namespace Block

def result (block : Block) : ActionResult := block.outcome.settle block.run.step.command.text

def error? (block : Block) : Option String :=
  match block.result with
  | .ok _ => none
  | .error error => some error.message

def closing (block : Block) : List EngineEvent :=
  let step := block.run.step
  let completed : EngineEvent := .completed step.command.id step.command.text step.operation block.error?
  let changed := if step.took block.before block.after then [EngineEvent.stateChanged] else []
  match step.operation with
  | .execute => completed :: changed
  | .undo => .undoing step.command.scope false :: completed :: changed
  | .redo => .redoing step.command.scope false :: completed :: changed

def events (block : Block) : List EngineEvent := block.run.opening block.reports ++ block.closing

end Block

/-- The actions that have ended, and the reports of the one that runs. -/
structure Journal where
  blocks : List Block
  reports : List ProgressEvent

def Journal.note (journal : Journal) (engine : Engine) (move : Move) : Journal :=
  match engine.phase, move with
  | .acting run, .report number event =>
    if number = run.number then { journal with reports := journal.reports ++ [event] } else journal
  | .acting run, .finish outcome =>
    { blocks := journal.blocks ++ [⟨run, journal.reports, outcome, engine.history, (engine.apply move).history⟩]
      reports := [] }
  | _, _ => journal

def Journal.keep (journal : Journal) (engine : Engine) : List Move → Journal
  | [] => journal
  | move :: moves => keep (journal.note engine move) (engine.apply move) moves

namespace Journal

variable {journal : Journal} {engine : Engine} {move : Move} {run : Run}

theorem note_other (hother : ∀ run, engine.phase = .acting run →
    (∀ outcome, move ≠ .finish outcome) ∧ ∀ event, move ≠ .report run.number event) :
    journal.note engine move = journal := by
  unfold note
  split
  · next run number event hphase =>
    rw [if_neg]
    rintro rfl
    exact (hother run hphase).2 event rfl
  · next run outcome hphase => exact absurd rfl ((hother run hphase).1 outcome)
  · rfl

private theorem note_report (hacting : engine.phase = .acting run) (event : ProgressEvent) :
    journal.note engine (.report run.number event) = { journal with reports := journal.reports ++ [event] } := by
  simp [note, hacting]

theorem note_finish (hacting : engine.phase = .acting run) (outcome : Outcome) :
    journal.note engine (.finish outcome) =
      { blocks := journal.blocks ++ [⟨run, journal.reports, outcome, engine.history, (engine.finish outcome).history⟩]
        reports := [] } := by
  simp only [note, hacting]
  rfl

end Journal

/-! ### When the history changes -/

namespace Step

variable {step : Step} {history after : History}

private theorem took_of_same (hsequence : after.sequence = history.sequence)
    (hpast : ∀ id, after.past id = history.past id) : step.took history after = false := by
  unfold took
  split
  · refine beq_eq_false_iff_ne.mpr fun hsame => ?_
    have hrecorded := (History.settings_record history step.stack step.command).2.2.2
    rw [← hsame, hsequence] at hrecorded
    omega
  · rw [hpast]
    simp
  · rw [hpast]
    simp

private theorem took_record (hexecute : step.operation = .execute) :
    step.took history (history.record step.stack step.command) = true := by
  simp [took, hexecute]

private theorem took_moveCursor (hsound : history.Sound) (hmove : step.operation ≠ .execute) :
    step.took history (history.moveCursor step.stack step.command.id step.operation.direction).1 =
      (history.moveCursor step.stack step.command.id step.operation.direction).2 := by
  have hnone : (history.isNextTo step.stack step.command.id step.operation.direction) = false →
      step.took history (history.moveCursor step.stack step.command.id step.operation.direction).1 =
        (history.moveCursor step.stack step.command.id step.operation.direction).2 := by
    intro hnext
    rw [History.moveCursor_of_not_next hnext]
    -- the sequence number is counted up even so, but only an execution is told by it
    unfold took
    split
    · contradiction
    · simp [History.past, History.stack?]
    · simp [History.past, History.stack?]
  cases hoperation : step.operation with
  | execute => contradiction
  | undo =>
    rw [hoperation] at hnone
    cases hnext : history.isNextTo step.stack step.command.id Operation.undo.direction with
    | false => exact hnone hnext
    | true =>
      obtain ⟨passed, hpassed, hid⟩ := (hsound.isNextTo_iff _ _ _).mp hnext
      obtain ⟨front, hpast⟩ := List.getLast?_eq_some_iff.mp hpassed
      rw [← hid, Operation.direction, (hsound.lists_moveCursor_backward hpast).1]
      simp only [took, hoperation, History.past_of_lists (hsound.lists_passed_back hpast), hpast]
      simp
  | redo =>
    rw [hoperation] at hnone
    cases hnext : history.isNextTo step.stack step.command.id Operation.redo.direction with
    | false => exact hnone hnext
    | true =>
      obtain ⟨passed, hpassed, hid⟩ := (hsound.isNextTo_iff _ _ _).mp hnext
      obtain ⟨rest, hfuture⟩ := List.head?_eq_some_iff.mp hpassed
      rw [← hid, Operation.direction, (hsound.lists_moveCursor_forward hfuture).1]
      simp only [took, hoperation, History.past_of_lists (hsound.lists_passed_forth hfuture)]
      simp

end Step

namespace Engine

variable {engine start : Engine} {run : Run}

theorem took_eq_alters (hsteady : engine.Steady) (hacting : engine.phase = .acting run) (outcome : Outcome) :
    run.step.took engine.history (engine.finish outcome).history = engine.alters run outcome := by
  have hsame : run.step.took engine.history engine.history = false := Step.took_of_same rfl fun _ => rfl
  rw [(finish_of_acting hacting outcome).2.1, alters]
  cases Outcome.succeeded (outcome.settle run.step.command.text) with
  | false => exact hsame
  | true =>
    rw [if_pos rfl, Bool.true_and]
    unfold takeEffect
    by_cases hcurrent : engine.generation = run.job.generation
    · rw [if_neg (not_not.mpr hcurrent)]
      by_cases hexecute : run.step.operation = .execute
      · rw [hexecute]
        dsimp only
        cases run.step.command.isQuery with
        | true => exact hsame
        | false => exact Step.took_record hexecute
      · have hmoved := Step.took_moveCursor hsteady.sound hexecute
        revert hmoved
        cases hoperation : run.step.operation with
        | execute => exact absurd hoperation hexecute
        | _ => exact id
    · rw [if_pos hcurrent]
      exact hsame

theorem opening_nil (run : Run) : run.opening [] = around run.step true := by
  unfold Run.opening around
  cases run.step.operation <;> rfl

theorem opening_concat (run : Run) (reports : List ProgressEvent) (event : ProgressEvent) :
    run.opening (reports ++ [event]) = run.opening reports ++ [.progress run.step.command.id event] := by
  unfold Run.opening
  cases run.step.operation <;> simp

theorem closing_eq (block : Block) : block.closing =
    closingEvents block.run.step block.result (block.run.step.took block.before block.after) := by
  unfold Block.closing closingEvents Block.error? around
  cases hoperation : block.run.step.operation <;> cases hresult : block.result <;> simp [hoperation]

/-! ### The actions of a run -/

def journal (start : Engine) (moves : List Move) : Journal := Journal.keep ⟨[], []⟩ start moves

variable {journal : Journal} {runs : List Run}

theorem mem_answers_finish (hacting : engine.phase = .acting run) (outcome : Outcome)
    (hover : run.walk = none ∨ Outcome.succeeded (outcome.settle run.step.command.text) = false) :
    (run.job.ticket, outcome.settle run.step.command.text) ∈ (engine.finish outcome).answers := by
  rw [finish_eq hacting]
  cases hresult : outcome.settle run.step.command.text with
  | error error => exact List.mem_append_right _ (List.mem_singleton.mpr rfl)
  | ok value =>
    have hwalk : run.walk = none := hover.resolve_right (by simp [hresult, Outcome.succeeded])
    simp only [conclude, hwalk]
    exact List.mem_append_right _ (List.mem_singleton.mpr rfl)

private theorem actions_note (hsteady : engine.Steady) (move : Move)
    (hactions : runs = journal.blocks.map Block.run ++ engine.phase.run?.toList) :
    runs ++ engine.starts move = (journal.note engine move).blocks.map Block.run ++
      (engine.apply move).phase.run?.toList := by
  have haside (hrun : (engine.apply move).phase.run? = engine.phase.run?)
      (hblocks : (journal.note engine move).blocks = journal.blocks) :
      runs ++ engine.starts move = (journal.note engine move).blocks.map Block.run ++
        (engine.apply move).phase.run?.toList := by
    rw [starts_eq_nil hrun, hrun, hblocks, List.append_nil, hactions]
  cases notice_apply hsteady move with
  | silent _ hrun _ _ hother => exact haside hrun (congrArg Journal.blocks (Journal.note_other hother))
  | called _ _ _ hphase _ hcall =>
    refine haside (by rw [hphase]) (congrArg Journal.blocks (Journal.note_other fun run _ => ⟨?_, ?_⟩))
    · rintro outcome rfl
      cases hcall
    · rintro event rfl
      cases hcall
  | began run _ hidle hphase =>
    have hrun : (engine.apply move).phase.run? = some run := by rw [hphase]; rfl
    have hnote : journal.note engine move = journal := by
      refine Journal.note_other fun other hacting => ?_
      rw [hacting] at hidle
      cases hidle
    rw [hidle, Option.toList_none, List.append_nil] at hactions
    rw [hnote, hrun, starts, hidle, hrun, hactions]
  | reported run event hmove hacting hphase =>
    refine haside (by rw [hphase]) ?_
    rw [hmove, Journal.note_report hacting]
  | ended run outcome hmove hacting hnone =>
    have hrun : engine.phase.run? = some run := by rw [hacting]; rfl
    subst hmove
    rw [hrun] at hactions
    rw [Journal.note_finish hacting, hnone, starts, hrun, hactions]
    simp

theorem Fresh.actions_eq (hfresh : start.Fresh) (moves : List Move) : start.begun moves =
    (start.journal moves).blocks.map Block.run ++ (start.applyAll moves).phase.run?.toList := by
  suffices hkept : ∀ (engine : Engine) (journal : Journal) (runs : List Run), engine.Steady →
      runs = journal.blocks.map Block.run ++ engine.phase.run?.toList →
      runs ++ engine.begun moves =
        (journal.keep engine moves).blocks.map Block.run ++ (engine.applyAll moves).phase.run?.toList by
    refine hkept start ⟨[], []⟩ [] hfresh.steady ?_
    obtain ⟨registry, routes, defaultStack, limit, capacity, rfl⟩ := hfresh
    rfl
  induction moves with
  | nil => exact fun engine journal runs _ hactions => (List.append_nil _).trans hactions
  | cons move moves ih =>
    intro engine journal runs hsteady hactions
    rw [begun, along, ← List.append_assoc]
    exact ih _ _ _ (hsteady.change (hsteady.change_apply move)) (actions_note hsteady move hactions)

theorem Fresh.published_eq (hfresh : start.Fresh) : start.bus.published = [] := by
  obtain ⟨registry, routes, defaultStack, limit, capacity, rfl⟩ := hfresh
  rfl

end Engine

end Retrace
