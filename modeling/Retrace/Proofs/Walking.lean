import Retrace.Proofs.Jump
import Retrace.Proofs.Serving

/-!
# The way of a jump

A jump during which nothing else happens passes the commands between the cursor and its goal one by one, up to the
first whose action fails. `Way` says which commands a walk has still before it, and passing the first of them leaves the
others; everything about the end of the walk is read off the commands that are left.
-/

namespace Retrace

namespace History

variable {history after : History} {walk : Walk} {operation : Operation} {command : Command}
  {commands rest : List Command}

inductive Way (history : History) (walk : Walk) : Operation → List Command → Prop where
  | back (kept commands : List Command) (hpast : history.past walk.stack = kept ++ commands.reverse)
      (hwanted : kept.length = walk.wanted) : Way history walk .undo commands
  | forth (commands later : List Command) (hfuture : history.future walk.stack = commands ++ later)
      (hwanted : (history.past walk.stack).length + commands.length = walk.wanted) : Way history walk .redo commands

theorem Way.arrived (hway : history.Way walk operation []) : (history.past walk.stack).length = walk.wanted := by
  cases hway with
  | back kept _ hpast hwanted => rw [hpast, List.reverse_nil, List.append_nil, hwanted]
  | forth _ later hfuture hwanted => exact hwanted

private theorem Way.pass (hsound : history.Sound) (hway : history.Way walk operation (command :: rest)) :
    (history.moveCursor walk.stack command.id operation.direction).1.Way walk operation rest := by
  cases hway with
  | back kept _ hpast hwanted =>
    rw [List.reverse_cons, ← List.append_assoc] at hpast
    exact .back kept rest (past_of_lists (hsound.lists_passed_back hpast)) hwanted
  | forth _ later hfuture hwanted =>
    have hlists := hsound.lists_passed_forth hfuture
    have hlonger := congrArg List.length (past_of_lists hlists)
    rw [List.length_append, List.length_singleton] at hlonger
    rw [List.length_cons] at hwanted
    exact .forth rest later (future_of_lists hlists) ((congrArg (· + rest.length) hlonger).trans (by omega))

theorem Way.eq_nil (hway : history.Way walk operation commands) (hline : history.line walk.stack = []) :
    commands = [] := by
  obtain ⟨hpast, hfuture⟩ := List.append_eq_nil_iff.mp hline
  cases hway with
  | back kept _ hsplit =>
    rw [hpast] at hsplit
    exact List.reverse_eq_nil_iff.mp (List.append_eq_nil_iff.mp hsplit.symm).2
  | forth _ later hsplit =>
    rw [hfuture] at hsplit
    exact (List.append_eq_nil_iff.mp hsplit.symm).1

theorem Way.cursor_eq {left : List Command} {passed : Nat} (hway : history.Way walk operation commands)
    (hleft : after.Way walk operation left) (hpassed : commands.length = passed + left.length) :
    (after.past walk.stack).length =
      if walk.wanted ≤ (history.past walk.stack).length then (history.past walk.stack).length - passed
      else (history.past walk.stack).length + passed := by
  cases hway with
  | back kept _ hpast hwanted =>
    cases hleft with
    | back still _ hafter hsame =>
      have hlength := congrArg List.length hpast
      have hless := congrArg List.length hafter
      rw [List.length_append, List.length_reverse] at hlength hless
      rw [if_pos (by omega)]
      omega
  | forth _ later hfuture hwanted =>
    cases hleft with
    | forth _ later hafter hsame => split_ifs <;> omega

/-- What a jump has to run on a stack: back over the commands behind the cursor, as long as too many are applied, or
forth over those ahead of it, as long as too few are. -/
def errands (line : List Command) (stack : StackId) (cursor wanted : Nat) : List Step :=
  if wanted ≤ cursor then ((line.take cursor).drop wanted).reverse.map fun command => ⟨command, stack, .undo⟩
  else ((line.take wanted).drop cursor).map fun command => ⟨command, stack, .redo⟩

private theorem exists_way (walk : Walk) (hwanted : walk.wanted ≤ (history.line walk.stack).length) :
    ∃ operation commands, history.Way walk operation commands ∧
      errands (history.line walk.stack) walk.stack (history.past walk.stack).length walk.wanted =
        commands.map fun command => ⟨command, walk.stack, operation⟩ := by
  unfold errands
  rw [line, List.length_append] at hwanted
  split_ifs with hback
  · refine ⟨.undo, _, .back ((history.past walk.stack).take walk.wanted) _ ?_ ?_, rfl⟩
    · rw [List.reverse_reverse, line, List.take_left, List.take_append_drop]
    · rw [List.length_take, Nat.min_eq_left hback]
  · have hforth : (history.past walk.stack).length ≤ walk.wanted := (Nat.lt_of_not_le hback).le
    have hahead : ((history.line walk.stack).take walk.wanted).drop (history.past walk.stack).length =
        (history.future walk.stack).take (walk.wanted - (history.past walk.stack).length) := by
      rw [line, List.take_append, List.take_of_length_le hforth, List.drop_left]
    rw [hahead]
    refine ⟨.redo, _, .forth _ ((history.future walk.stack).drop
      (walk.wanted - (history.past walk.stack).length)) (List.take_append_drop ..).symm ?_, rfl⟩
    rw [List.length_take]
    omega

end History

namespace Host

/-! ### Up to the first failure -/

/-- Actions are tried in order, up to the first that fails. -/
inductive Tried : List Step → Logbook → Prop where
  | over : Tried [] []
  | passed {step : Step} {steps : List Step} {log : Logbook} (value : Json) (hrest : Tried steps log) :
      Tried (step :: steps) ((step, .ok value) :: log)
  | failed (step : Step) (steps : List Step) (error : EngineError) : Tried (step :: steps) [(step, .error error)]

def passedIn (log : Logbook) : Nat := log.countP fun entry => Outcome.succeeded entry.2

def failureIn (log : Logbook) : Option EngineError :=
  log.findSome? fun entry =>
    match entry.2 with
    | .ok _ => none
    | .error error => some error

def jumpReply (target : Option Nat) (log : Logbook) : ActionResult :=
  match failureIn log with
  | some error => .error error
  | none => .ok (Engine.arrival target)

private theorem passedIn_ok (step : Step) (value : Json) (log : Logbook) :
    passedIn ((step, .ok value) :: log) = passedIn log + 1 := by
  rw [passedIn, List.countP_cons_of_pos rfl, passedIn]

private theorem failureIn_ok (step : Step) (value : Json) (log : Logbook) :
    failureIn ((step, .ok value) :: log) = failureIn log := rfl

private theorem jumpReply_ok (target : Option Nat) (step : Step) (value : Json) (log : Logbook) :
    jumpReply target ((step, .ok value) :: log) = jumpReply target log := rfl

variable {World : Type} {host : Host World} {engine : Engine} {job : Job} {walk : Walk} {target : Option Nat}
  {operation : Operation} {command : Command} {commands rest : List Command}

open Engine

structure Walked (engine : Engine) (job : Job) (walk : Walk) (target : Option Nat) (operation : Operation)
    (commands : List Command) (log : Logbook) (after : Engine) : Prop where
  tried : Tried (commands.map fun command => ⟨command, walk.stack, operation⟩) log
  answers : after.answers = engine.answers ++ [(job.ticket, jumpReply target log)]
  line : ∀ id, after.history.line id = engine.history.line id
  past : ∀ id, id ≠ walk.stack → after.history.past id = engine.history.past id
  left : ∃ left, after.history.Way walk operation left ∧ commands.length = passedIn log + left.length ∧
    (failureIn log = none → left = [])

private theorem stepped_way (hsteady : engine.Steady) (hphase : engine.phase = .choosing job (some walk))
    (hgoal : job.goal = .jump target) (hway : engine.history.Way walk operation (command :: rest)) :
    operation ≠ .execute ∧ ∃ run, run.job = job ∧ run.walk = some walk ∧ run.step = ⟨command, walk.stack, operation⟩ ∧
      engine.Stepped (.acting run) := by
  cases hway with
  | back kept _ hpast hwanted =>
    rw [List.reverse_cons, ← List.append_assoc] at hpast
    have hlength := congrArg List.length hpast
    rw [List.length_append, List.length_append, List.length_singleton] at hlength
    refine ⟨by simp, stepped_back hsteady hphase hgoal (by omega) ?_⟩
    rw [hpast, List.getLast?_concat]
  | forth _ later hfuture hwanted =>
    rw [List.length_cons] at hwanted
    refine ⟨by simp, stepped_forth hsteady hphase hgoal (by omega) ?_⟩
    rw [hfuture]
    rfl

/-- The turns in which a jump tries to pass a command. -/
structure Attempt (host : Host World) (engine : Engine) (job : Job) (walk : Walk) (operation : Operation)
    (command : Command) (world : World × Logbook) (result : ActionResult) (reached : Engine × World × Logbook) :
    Prop where
  turns : ∀ {last}, Completes host.logged job reached last → Completes host.logged job (engine, world) last
  log : reached.2.2 = world.2 ++ [(⟨command, walk.stack, operation⟩, result)]
  failed : ∀ error, result = .error error → reached.1.history = engine.history ∧
    reached.1.answers = engine.answers ++ [(job.ticket, result)]
  passed : ∀ value, result = .ok value →
    reached.1.Steady ∧ reached.1.phase = .choosing job (some walk) ∧ reached.1.generation = job.generation ∧
      reached.1.history = (engine.history.moveCursor walk.stack command.id operation.direction).1 ∧
      reached.1.answers = engine.answers

variable (host) in
private theorem exists_attempt (hsteady : engine.Steady) (hphase : engine.phase = .choosing job (some walk))
    (hgoal : job.goal = .jump target) (hcurrent : engine.generation = job.generation)
    (hway : engine.history.Way walk operation (command :: rest)) (world : World × Logbook) :
    ∃ result reached, host.Attempt engine job walk operation command world result reached := by
  obtain ⟨hmove, run, rfl, hwalk, hstep, hstepped⟩ := stepped_way hsteady hphase hgoal hway
  obtain ⟨result, hentered⟩ := host.exists_entered hstepped.phase world
  have hgeneration : engine.advance.generation = run.job.generation := hstepped.framed.generation.trans hcurrent
  have hafter := hentered.framed.generation.trans hgeneration
  have hhistory := hentered.history_of_move hgeneration (by rw [hstep]; exact hmove)
  have hanswers := hentered.answers
  have hending := hentered.phase
  rw [hstepped.history, hstep] at hhistory
  rw [answers_advance (by simp [hstepped.phase])] at hanswers
  rw [hwalk] at hending
  have hlog := hentered.log
  rw [hstep] at hlog
  have hperformed : (host.logged.turn engine.advance world).1.Steady :=
    steady_turn host.logged (hsteady.change (hsteady.change_apply .advance)) world
  -- The choice and the action are the first two turns; only a jump that goes on takes a third.
  have hturns : ∀ {last}, Completes host.logged run.job (host.logged.turn engine.advance world) last →
      Completes host.logged run.job (engine, world) last := fun hrest =>
    .after_step (by rw [hphase]; rfl) (by rw [hphase]; rfl)
      (.turn (mem_unanswered_of_job (by rw [hstepped.phase]; rfl)) hrest)
  generalize host.logged.turn engine.advance world = performed at *
  refine ⟨result, ?_⟩
  cases result with
  | error error =>
    exact ⟨performed, hturns, hlog, fun _ _ => ⟨hhistory, hanswers⟩, fun _ hok => by cases hok⟩
  | ok value =>
    have hresting : performed.1.phase = .resting run.job walk := hending
    have hresumed := stepped_resume hresting hafter.symm
    refine ⟨(performed.1.advance, performed.2), fun hrest => hturns (.after_step ?_ ?_ hrest), hlog,
      fun _ herror => (by cases herror), fun _ _ => ⟨?_, hresumed.phase, ?_, hresumed.history.trans hhistory, ?_⟩⟩
    · rw [hresting]; rfl
    · rw [hresting]; rfl
    · exact hperformed.change (hperformed.change_apply .advance)
    · exact hresumed.framed.generation.trans hafter
    · have hnone : replies run (.ok value) = [] := by simp only [replies, hwalk]
      rw [answers_advance (by simp [hresumed.phase]), hanswers, hnone, List.append_nil]

variable (host) in
private theorem exists_walked (hsteady : engine.Steady) (hphase : engine.phase = .choosing job (some walk))
    (hgoal : job.goal = .jump target) (hcurrent : commands ≠ [] → engine.generation = job.generation)
    (hway : engine.history.Way walk operation commands) (world : World × Logbook) :
    ∃ last log, Completes host.logged job (engine, world) last ∧ last.2.2 = world.2 ++ log ∧
      Walked engine job walk target operation commands log last.1 := by
  -- An action that succeeds leaves the other commands to be passed, by the hypothesis; one that fails ends the job.
  induction commands generalizing engine world with
  | nil =>
    have harrived := hway.arrived
    have hstepped := stepped_arrived hsteady hphase hgoal harrived
    refine ⟨(engine.advance, world), [], .after_step (by rw [hphase]; rfl) (by rw [hphase]; rfl) (.here _),
      (List.append_nil _).symm, ?_⟩
    constructor
    case tried => exact .over
    case answers => rw [advance_arrived hsteady hphase hgoal harrived]; rfl
    case line => exact fun id => by rw [hstepped.history]
    case past => exact fun id _ => by rw [hstepped.history]
    case left => exact ⟨[], hstepped.history ▸ hway, rfl, fun _ => rfl⟩
  | cons command rest ih =>
    obtain ⟨result, reached, hattempt⟩ := host.exists_attempt hsteady hphase hgoal (hcurrent (by simp)) hway world
    cases result with
    | error error =>
      obtain ⟨hhistory, hanswers⟩ := hattempt.failed error rfl
      refine ⟨reached, _, hattempt.turns (.here _), hattempt.log, ?_⟩
      constructor
      case tried => exact .failed _ _ error
      case answers => exact hanswers
      case line => exact fun id => by rw [hhistory]
      case past => exact fun id _ => by rw [hhistory]
      case left => exact ⟨command :: rest, hhistory ▸ hway, (Nat.zero_add _).symm, fun hnone => by cases hnone⟩
    | ok value =>
      obtain ⟨hstill, hchoosing, hgeneration, hhistory, hanswers⟩ := hattempt.passed value rfl
      have hrest := hway.pass hsteady.sound
      have hlines := hsteady.sound.line_moveCursor walk.stack command.id operation.direction
      have hothers : ∀ id, id ≠ walk.stack →
          (engine.history.moveCursor walk.stack command.id operation.direction).1.past id = engine.history.past id :=
        fun id hid => History.past_of_lists (History.lists_moveCursor_of_ne _ _ _ hid)
      rw [← hhistory] at hrest hothers hlines
      obtain ⟨last, log, hcompletes, hlog, hwalked⟩ := ih hstill hchoosing (fun _ => hgeneration) hrest reached.2
      refine ⟨last, (⟨command, walk.stack, operation⟩, .ok value) :: log, hattempt.turns hcompletes, ?_, ?_⟩
      · rw [hlog, hattempt.log, List.append_assoc, List.singleton_append]
      constructor
      case tried => exact .passed value hwalked.tried
      case answers => rw [hwalked.answers, hanswers, jumpReply_ok]
      case line => exact fun id => (hwalked.line id).trans (hlines id)
      case past => exact fun id hid => (hwalked.past id hid).trans (hothers id hid)
      case left =>
        obtain ⟨left, hleft, hlength, hall⟩ := hwalked.left
        refine ⟨left, hleft, ?_, fun hnone => hall (failureIn_ok .. ▸ hnone)⟩
        rw [List.length_cons, hlength, passedIn_ok]
        omega

private theorem stepped_jump (hsound : engine.history.Sound) (hphase : engine.phase = .choosing job none)
    (hgoal : job.goal = .jump target)
    (hrange : ∀ index, target = some index → index < (engine.history.line engine.history.active).length) :
    engine.Stepped (.choosing job (some ⟨engine.history.active, wantedBy target⟩)) := by
  have hbegun := stepped_beginJump hsound hphase hgoal
  cases target with
  | none => exact hbegun
  | some index =>
    dsimp only at hbegun
    rw [if_neg (Nat.not_le_of_lt (hrange index rfl))] at hbegun
    exact hbegun

variable (host) in
private theorem exists_jumped (hreachable : engine.Reachable) (hphase : engine.phase = .choosing job none)
    (hgoal : job.goal = .jump target)
    (hrange : ∀ index, target = some index → index < (engine.history.line engine.history.active).length)
    (hway : engine.history.Way ⟨engine.history.active, wantedBy target⟩ operation commands)
    (world : World × Logbook) :
    ∃ last log, Completes host.logged job (engine, world) last ∧ last.2.2 = world.2 ++ log ∧
      Walked engine job ⟨engine.history.active, wantedBy target⟩ target operation commands log last.1 := by
  have hjob : engine.phase.job? = some job := by rw [hphase]; rfl
  have hstepped := stepped_jump hreachable.steady.sound hphase hgoal hrange
  have hsteady : engine.advance.Steady := (hreachable.applyAll [.advance]).steady
  have hanswers : engine.advance.answers = engine.answers := answers_advance (by simp [hstepped.phase])
  -- A job from before a clear meets empty stacks and has nothing to pass.
  have hcurrent : commands ≠ [] → engine.advance.generation = job.generation := by
    intro hsome
    rcases hreachable.current hjob with hcurrent | hempty
    · exact hstepped.framed.generation.trans hcurrent.symm
    · exact absurd (hway.eq_nil (hempty _)) hsome
  have hsame : engine.advance.history.Way ⟨engine.history.active, wantedBy target⟩ operation commands := by
    rw [hstepped.history]
    exact hway
  obtain ⟨last, log, hcompletes, hlog, hwalked⟩ :=
    host.exists_walked hsteady hstepped.phase hgoal hcurrent hsame world
  refine ⟨last, log, hcompletes.after_step hjob (by rw [hphase]; rfl), hlog, ?_⟩
  exact
    { tried := hwalked.tried
      answers := by rw [hwalked.answers, hanswers]
      line := fun id => by rw [hwalked.line, hstepped.history]
      past := fun id hid => by rw [hwalked.past id hid, hstepped.history]
      left := hwalked.left }

/-- **A jump runs what lies between the cursor and its goal**, up to the first action that fails. Take a jump that is
about to begin, and let nothing else happen until it is answered. A target beyond the end of the active stack is
refused and nothing runs. Otherwise the commands behind the cursor are undone, last one first, or those ahead of it are
redone, next one first, until as many are applied as wanted. No stack gains or loses a command, the cursors of the other
stacks stay where they are, that of the active stack passes the commands whose actions succeeded, and the answer is the
error of the action that failed or, if none did, the target. -/
theorem jump_walks (hreachable : engine.Reachable) (hphase : engine.phase = .choosing job none)
    (hgoal : job.goal = .jump target) (host : Host World) (world : World) :
    let active := engine.history.active
    let line := engine.history.line active
    let cursor := (engine.history.past active).length
    let done := host.logged.await job.ticket engine (world, [])
    let log := done.2.2
    host.await job.ticket engine world = (done.1, done.2.1) ∧
    (∀ index, target = some index → line.length ≤ index →
      done.2 = (world, []) ∧ done.1.history = engine.history ∧
        done.1.answer? job.ticket = some (.error (.indexOutOfRange index line.length))) ∧
    ((∀ index, target = some index → index < line.length) →
      Tried (History.errands line active cursor (wantedBy target)) log ∧
      (∀ id, done.1.history.line id = engine.history.line id) ∧
      (∀ id, id ≠ active → done.1.history.past id = engine.history.past id) ∧
      (done.1.history.past active).length =
        (if wantedBy target ≤ cursor then cursor - passedIn log else cursor + passedIn log) ∧
      (failureIn log = none → (done.1.history.past active).length = wantedBy target) ∧
      done.1.answer? job.ticket = some (jumpReply target log)) := by
  intro active line cursor done log
  refine ⟨(shownBy_logged host).turnUntil_eq _ _ engine (world, []), ?_, ?_⟩
  · rintro index rfl hrange
    have hadvance := advance_outOfRange hreachable.steady.sound hphase hgoal hrange
    have hcompletes : Completes host.logged job (engine, world, []) (engine.advance, world, []) :=
      .after_step (by rw [hphase]; rfl) (by rw [hphase]; rfl) (.here _)
    obtain ⟨hdone, hanswer⟩ := hcompletes.awaited hreachable.working hreachable.numbered (by rw [hadvance]; rfl)
    rw [show done = _ from hdone]
    exact ⟨rfl, by rw [hadvance]; rfl, hanswer⟩
  · intro hrange
    have hwanted : wantedBy target ≤ line.length := by
      cases target with
      | none => exact Nat.zero_le _
      | some index => exact hrange index rfl
    obtain ⟨operation, commands, hway, herrands⟩ := History.exists_way ⟨active, wantedBy target⟩ hwanted
    obtain ⟨last, entries, hcompletes, hlog, hwalked⟩ :=
      host.exists_jumped hreachable hphase hgoal hrange hway (world, [])
    obtain ⟨hdone, hanswer⟩ := hcompletes.awaited hreachable.working hreachable.numbered hwalked.answers
    obtain ⟨left, hleft, hlength, hall⟩ := hwalked.left
    have hentries : log = entries := (congrArg (·.2.2) hdone).trans hlog
    rw [hentries, show done = last from hdone]
    refine ⟨?_, hwalked.line, hwalked.past, hway.cursor_eq hleft hlength, ?_, hanswer⟩
    · exact (congrArg (Tried · entries) herrands).mpr hwalked.tried
    · intro hnone
      rw [hall hnone] at hleft
      exact hleft.arrived

/-- Three commands are executed, and the worker has taken a jump before all of them. -/
def leaping : List Move := executed [0, 1, 2] ++ [.submit (.jump none), .advance]

def stumblingHost : Host Unit :=
  ⟨fun step world => ⟨world, [], if step.command.id = 0 then .brokeOff none else .returned (.ok .null)⟩⟩

/-- The jump comes to a halt before the first command. -/
theorem jump_walks_stumbling :
    let done := stumblingHost.logged.await 4 (sampleEngine.applyAll leaping) ((), [])
    Tried ([2, 1, 0].map fun number => ⟨sampleCommand number, sampleStack, .undo⟩) done.2.2 ∧
      done.2.2.length = 3 ∧ (done.1.history.past sampleStack).length = 1 ∧
      done.1.answer? 4 = some (.error (.unknownFailure "" "unknown error")) := by
  intro done
  have hphase : (sampleEngine.applyAll leaping).phase = .choosing ⟨4, 0, .jump none⟩ none := by decide
  obtain ⟨-, -, hwalk⟩ :=
    jump_walks ⟨sampleEngine, leaping, sampleEngine_fresh, rfl⟩ hphase rfl stumblingHost ()
  obtain ⟨htried, -, -, hcursor, -, hanswer⟩ := hwalk fun index htarget => by cases htarget
  exact ⟨htried, by decide, hcursor, hanswer⟩

end Host

end Retrace
