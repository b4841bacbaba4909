import Retrace.Proofs.Drain
import Retrace.Proofs.Refinement

/-!
# From the start of a job to its answer

While no call is made, the turns lead from a job to the state in which it is answered (`Completes`): waiting for the
job ends there, and so does settling if no other job is left. A host can keep a logbook of the actions that it runs,
and `Served` says what it holds after an undo or a redo of an engine at rest.
-/

namespace Retrace

namespace Engine

variable {engine : Engine} {job : Job} {run : Run}

/-! ### What holds in every reachable state -/

theorem Reachable.applyAll (hreachable : engine.Reachable) (moves : List Move) : (engine.applyAll moves).Reachable := by
  obtain ⟨start, before, hfresh, rfl⟩ := hreachable
  exact ⟨start, before ++ moves, hfresh, applyAll_append ..⟩

theorem Reachable.working (hreachable : engine.Reachable) : engine.Working := by
  obtain ⟨start, moves, hfresh, rfl⟩ := hreachable
  exact hfresh.working.applyAll moves

theorem Reachable.numbered (hreachable : engine.Reachable) : engine.Numbered := by
  obtain ⟨start, moves, hfresh, rfl⟩ := hreachable
  exact hfresh.numbered.applyAll moves

theorem Reachable.listening (hreachable : engine.Reachable) : engine.isListening = true := by
  obtain ⟨start, moves, ⟨registry, routes, defaultStack, limit, capacity, rfl⟩, rfl⟩ := hreachable
  induction moves using List.reverseRecOn with
  | nil => rfl
  | append_singleton moves move ih =>
    rw [applyAll_concat, isListening_apply]
    exact ih

/-- A job from before a clear meets empty stacks. -/
theorem Reachable.current (hreachable : engine.Reachable) (hjob : engine.phase.job? = some job) :
    job.generation = engine.generation ∨ ∀ id, engine.history.line id = [] := by
  obtain ⟨start, moves, hfresh, rfl⟩ := hreachable
  induction moves using List.reverseRecOn generalizing job with
  | nil => exact .inr hfresh.line_eq
  | append_singleton moves move ih =>
    -- A job is current when it is taken, and the clear that outdates it empties the stacks.
    rw [applyAll_concat] at hjob ⊢
    have hsteady := hfresh.steady.applyAll moves
    exact (hsteady.change_apply move).current hsteady.sound (fun job hjob => ih hjob) job hjob

/-! ### Answers -/

private theorem answers_report (engine : Engine) (number : Nat) (event : ProgressEvent) :
    (engine.report number event).answers = engine.answers := by
  unfold report
  split
  · split_ifs <;> rfl
  · rfl

theorem answers_advance (hbusy : engine.advance.phase ≠ .idle) : engine.advance.answers = engine.answers := by
  cases @passage_advance engine with
  | kept _ _ hanswers => exact hanswers
  | joined request goal hmove => cases hmove
  | cleared hmove => cases hmove
  | taken _ _ _ _ _ _ hanswers => exact hanswers
  | dropped _ _ _ _ _ hphase => exact absurd hphase hbusy
  | answered _ _ _ hphase => exact absurd hphase hbusy

/-- The answer that is given at the end of an action: none by a jump that goes on. -/
def replies (run : Run) (result : ActionResult) : List (Ticket × ActionResult) :=
  match result, run.walk with
  | .ok _, some _ => []
  | result, _ => [(run.job.ticket, result)]

private theorem answers_conclude (engine : Engine) (run : Run) (result : ActionResult) :
    (engine.conclude run result).answers = engine.answers ++ replies run result := by
  unfold conclude replies
  cases result with
  | error error => rfl
  | ok value =>
    cases run.walk with
    | none => rfl
    | some walk => exact (List.append_nil _).symm

/-! ### A request at rest -/

def requestOf (operation : Operation) (filter : Option Scope) : Request :=
  match operation with
  | .redo => .redo filter
  | _ => .undo filter

theorem goalFor_requestOf (engine : Engine) (operation : Operation) (filter : Option Scope) :
    engine.goalFor (requestOf operation filter) =
      (engine.checkFilter filter).map fun _ => goalOf operation filter := by
  cases operation <;> rfl

/-- Whether a request for an undo or a redo is taken depends on neither the stacks nor the operation. -/
theorem exists_taken_iff (hlistening : engine.isListening = true) (operation : Operation) (filter : Option Scope) :
    (∃ ticket, (engine.submit (requestOf operation filter)).1 = .ok ticket) ↔
      engine.isAccepting = true ∧ engine.checkFilter filter = .ok () := by
  rw [submit_eq hlistening]
  unfold replyTo
  rw [goalFor_requestOf]
  cases engine.isAccepting <;> cases engine.checkFilter filter <;> simp [Except.map]

theorem advance_submit (hlistening : engine.isListening = true) (hsettled : engine.isSettled = true)
    {request : Request} {ticket : Ticket} (htaken : (engine.submit request).1 = .ok ticket) :
    ∃ goal waiting nextTicket running, engine.goalFor request = .ok goal ∧
      (engine.submit request).2.unanswered = [⟨ticket, engine.generation, goal⟩] ∧
      (engine.submit request).2.phase = .idle ∧
      (engine.submit request).2.advance =
        { engine with
          waiting, nextTicket, running, phase := .choosing ⟨ticket, engine.generation, goal⟩ none } := by
  obtain ⟨hidle, hqueue⟩ := idle_of_isSettled hsettled
  rw [submit_eq hlistening] at htaken ⊢
  unfold replyTo at htaken
  unfold arrivalOf
  dsimp only at htaken ⊢
  split_ifs at htaken ⊢
  cases hgoal : engine.goalFor request with
  | error error =>
    rw [hgoal] at htaken
    cases htaken
  | ok goal =>
    rw [hgoal] at htaken
    obtain rfl : engine.nextTicket = ticket := Except.ok.inj htaken
    refine ⟨goal, engine.waiting ++ waitingEntry engine.nextTicket goal, engine.nextTicket + 1, engine.running + 1, rfl,
      ?_, hidle, ?_⟩
    · show engine.phase.job?.toList ++ (engine.queue ++ _) = _
      rw [hidle, hqueue]
      rfl
    · simp only [receive, advance, hidle, take, hqueue, List.nil_append, if_true]
      rfl

private theorem submit_refused_at_rest (hlistening : engine.isListening = true) (hsettled : engine.isSettled = true)
    {request : Request} {error : EngineError} (hrefused : (engine.submit request).1 = .error error) :
    (engine.submit request).2.isSettled = true := by
  refine isSettled_of_unanswered ?_
  rw [submit_refused hlistening hrefused, unanswered_of_isSettled hsettled]

end Engine

namespace Host

variable {World : Type} {host : Host World} {engine : Engine} {world : World} {job : Job} {run : Run}

open Engine

variable (host) in
theorem numbered_turn (hnumbered : engine.Numbered) (world : World) : (host.turn engine world).1.Numbered := by
  rw [turn_eq_applyAll]
  exact hnumbered.applyAll _

variable (host) in
private theorem reachable_turnUntil (hreachable : engine.Reachable) (stop : Engine → Bool) (bound : Nat)
    (world : World) : (host.turnUntil stop bound (engine, world)).1.Reachable := by
  obtain ⟨moves, hmoves⟩ := turnUntil_eq_applyAll host stop bound engine world
  rw [hmoves]
  exact hreachable.applyAll moves

variable (host) in
theorem reachable_carryOut (hreachable : engine.Reachable) (directive : Directive) (world : World) :
    (host.carryOut (engine, world) directive).1.Reachable :=
  reachable_turnUntil host (hreachable.applyAll [directive.move]) _ _ world

/-! ### Up to the answer -/

/-- Turns lead from a state in which a job is open to another, which it may have been answered in. -/
inductive Completes (host : Host World) (job : Job) : Engine × World → Engine × World → Prop where
  | here (state : Engine × World) : Completes host job state state
  | turn {engine : Engine} {world : World} {last : Engine × World} (hopen : job ∈ engine.unanswered)
      (hrest : Completes host job (host.turn engine world) last) : Completes host job (engine, world) last

/-- Turns up to a condition end where a job is answered, if the condition holds there and not before. -/
theorem Completes.turnUntil_eq {state last : Engine × World} (hcompletes : Completes host job state last)
    (hnumbered : state.1.Numbered) {stop : Engine → Bool} {bound : Nat}
    (hopen : ∀ engine : Engine, engine.Numbered → job ∈ engine.unanswered → stop engine = false)
    (hlast : stop last.1 = true)
    (hends : stop (host.turnUntil stop bound state).1 = true ∨ (host.turnUntil stop bound state).1.isSettled = true) :
    host.turnUntil stop bound state = last := by
  induction hcompletes generalizing bound with
  | here state =>
    cases bound with
    | zero => rfl
    | succ bound => rw [turnUntil, if_pos hlast]
  | @turn engine world last hjob hrest ih =>
    have hbusy := hopen engine hnumbered hjob
    cases bound with
    | zero =>
      -- Out of turns while the job is open: neither end has been reached.
      rcases hends with hstop | hsettled
      · rw [turnUntil, hbusy] at hstop
        cases hstop
      · rw [turnUntil] at hsettled
        rw [unanswered_of_isSettled hsettled] at hjob
        cases hjob
    | succ bound =>
      rw [turnUntil, if_neg (by simp [hbusy])] at hends ⊢
      exact ih (numbered_turn host hnumbered world) hlast hends

private theorem Completes.numbered {state last : Engine × World} (hcompletes : Completes host job state last)
    (hnumbered : state.1.Numbered) : last.1.Numbered := by
  induction hcompletes with
  | here state => exact hnumbered
  | turn hopen hrest ih => exact ih (numbered_turn host hnumbered _)

theorem answer?_of_last {ticket : Ticket} {result : ActionResult} {answers : List (Ticket × ActionResult)}
    (hnumbered : engine.Numbered) (hanswers : engine.answers = answers ++ [(ticket, result)]) :
    engine.answer? ticket = some result := by
  refine hnumbered.answer?_eq_some ?_
  rw [hanswers]
  exact List.mem_append_right _ List.mem_cons_self

theorem Completes.awaited {last : Engine × World} {result : ActionResult}
    (hcompletes : Completes host job (engine, world) last) (hworking : engine.Working) (hnumbered : engine.Numbered)
    (hanswers : last.1.answers = engine.answers ++ [(job.ticket, result)]) :
    host.await job.ticket engine world = last ∧ last.1.answer? job.ticket = some result := by
  have hanswer := answer?_of_last (hcompletes.numbered hnumbered) hanswers
  refine ⟨hcompletes.turnUntil_eq hnumbered ?_ (by rw [hanswer]; rfl)
    (answered_await host hworking job.ticket world), hanswer⟩
  intro engine hnumbered hopen
  rw [hnumbered.answer?_eq_none hopen]
  rfl

theorem Completes.settle_eq {last : Engine × World} (hcompletes : Completes host job (engine, world) last)
    (hworking : engine.Working) (hnumbered : engine.Numbered) (hsettled : last.1.isSettled = true) :
    host.settle engine world = last := by
  refine hcompletes.turnUntil_eq hnumbered ?_ hsettled (.inl (isSettled_settle host hworking world))
  intro engine _ hopen
  by_contra hrest
  rw [unanswered_of_isSettled (by simpa using hrest)] at hopen
  cases hopen

theorem Completes.after_step {last : Engine × World} (hjob : engine.phase.job? = some job)
    (hrun : engine.phase.run? = none) (hrest : Completes host job (engine.advance, world) last) :
    Completes host job (engine, world) last := by
  refine .turn (mem_unanswered_of_job hjob) ?_
  rw [turn_of_no_run hrun]
  exact hrest

private theorem settle_of_settled (hsettled : engine.isSettled = true) (world : World) :
    host.settle engine world = (engine, world) := by
  unfold settle
  cases turnBound engine with
  | zero => rfl
  | succ bound => rw [turnUntil, if_pos hsettled]

/-! ### What is run -/

variable (host) in
private theorem answers_performed (hphase : engine.phase = .acting run) (world : World) :
    (host.turn engine world).1.answers = engine.answers ++
      replies run ((host.perform run.step world).outcome.settle run.step.command.text) := by
  have hreports : ∀ (events : List ProgressEvent) (engine : Engine),
      (events.foldl (fun engine event => engine.report run.number event) engine).answers = engine.answers := by
    intro events
    induction events with
    | nil => exact fun _ => rfl
    | cons event events ih => exact fun engine => (ih _).trans (answers_report ..)
  obtain ⟨-, -, hstill⟩ := foldl_report run.number (host.perform run.step world).reports engine
  unfold turn
  rw [hphase]
  dsimp only
  rw [finish_eq (hstill.trans hphase), answers_conclude]
  exact congrArg (· ++ _) (hreports _ engine)

abbrev Logbook := List (Step × ActionResult)

def logged (host : Host World) : Host (World × Logbook) where
  perform step world :=
    let done := host.perform step world.1
    { world := (done.world, world.2 ++ [(step, done.outcome.settle step.command.text)])
      reports := done.reports, outcome := done.outcome }

/-- A logbook changes nothing else. -/
theorem shownBy_logged (host : Host World) : ShownBy Prod.fst host.logged host := fun _ _ => rfl

structure Entered (host : Host World) (engine : Engine) (world : World × Logbook) (run : Run) (result : ActionResult) :
    Prop where
  verdict : ∀ error, result = .error error → error.isCommandFailure = true
  log : (host.logged.turn engine world).2.2 = world.2 ++ [(run.step, result)]
  framed : engine.Framed (host.logged.turn engine world).1
  answers : (host.logged.turn engine world).1.answers = engine.answers ++ replies run result
  history : (host.logged.turn engine world).1.history =
    if Outcome.succeeded result then (engine.takeEffect run).1 else engine.history
  phase : (host.logged.turn engine world).1.phase =
    if Outcome.succeeded result then
      (match run.walk with
        | some walk => .resting run.job walk
        | none => .idle)
    else .idle

variable (host) in
theorem exists_entered (hphase : engine.phase = .acting run) (world : World × Logbook) :
    ∃ result, host.Entered engine world run result := by
  have hperformed := host.logged.performed hphase world
  refine ⟨(host.perform run.step world.1).outcome.settle run.step.command.text, ?_⟩
  exact
    { verdict := fun _ => Outcome.isCommandFailure_of_settle
      log := congrArg Prod.snd hperformed.outside
      framed := hperformed.framed
      answers := host.logged.answers_performed hphase world
      history := hperformed.history
      phase := hperformed.phase }

theorem Entered.history_of_move {world : World × Logbook} {result : ActionResult}
    (hentered : host.Entered engine world run result) (hcurrent : engine.generation = run.job.generation)
    (hmove : run.step.operation ≠ .execute) :
    (host.logged.turn engine world).1.history =
      if Outcome.succeeded result then
        (engine.history.moveCursor run.step.stack run.step.command.id run.step.operation.direction).1
      else engine.history := by
  rw [hentered.history, takeEffect_of_move hcurrent hmove]

/-! ### An undo or a redo -/

/-- What comes of an undo or a redo: there is nothing to do, or one action is run. -/
inductive Served (engine : Engine) (operation : Operation) (filter : Option Scope) (ticket : Ticket) (log : Logbook)
    (after : Engine) : Prop where
  | missing (hnone : engine.history.target operation.direction filter = none) (hlog : log = [])
      (hhistory : after.history = engine.history)
      (hanswers : after.answers = engine.answers ++ [(ticket, .error (missingOf operation))])
  | performed (candidate : History.Candidate) (result : ActionResult)
      (htarget : engine.history.target operation.direction filter = some candidate)
      (hlog : log = [(⟨candidate.command, candidate.stack, operation⟩, result)])
      (hresult : result ≠ .error (missingOf operation))
      (hhistory : after.history =
        if Outcome.succeeded result then
          (engine.history.moveCursor candidate.stack candidate.command.id operation.direction).1
        else engine.history)
      (hanswers : after.answers = engine.answers ++ [(ticket, result)])

private theorem Served.of_eq {ready after : Engine} {operation : Operation} {filter : Option Scope} {ticket : Ticket}
    {log : Logbook} (hserved : Served ready operation filter ticket log after) (hhistory : ready.history = engine.history)
    (hanswers : ready.answers = engine.answers) : Served engine operation filter ticket log after := by
  cases hserved with
  | missing hnone hlog hafter hreply =>
    rw [hhistory] at hnone hafter
    rw [hanswers] at hreply
    exact .missing hnone hlog hafter hreply
  | performed candidate result htarget hlog hresult hafter hreply =>
    rw [hhistory] at htarget hafter
    rw [hanswers] at hreply
    exact .performed candidate result htarget hlog hresult hafter hreply

variable (host) in
private theorem exists_completes_move (hsteady : engine.Steady) (hphase : engine.phase = .choosing job none)
    (hcurrent : engine.generation = job.generation) {operation : Operation} (hmove : operation ≠ .execute)
    {filter : Option Scope} (hgoal : job.goal = goalOf operation filter) (world : World × Logbook) :
    ∃ last log, Completes host.logged job (engine, world) last ∧ last.2.2 = world.2 ++ log ∧ engine.Framed last.1 ∧
      last.1.phase = .idle ∧ Served engine operation filter job.ticket log last.1 := by
  have hjob : engine.phase.job? = some job := by rw [hphase]; rfl
  have hrun : engine.phase.run? = none := by rw [hphase]; rfl
  rcases stepped_moveChosen hsteady hphase hmove hgoal with
    ⟨hnone, hstepped⟩ | ⟨candidate, ⟨number, job, _, _, previous⟩, htarget, rfl, rfl, rfl, hstepped⟩
  · refine ⟨(engine.advance, world), [], .after_step hjob hrun (.here _), (List.append_nil _).symm, hstepped.framed,
      hstepped.phase, .missing hnone rfl hstepped.history ?_⟩
    rw [advance_moveChosen hphase hmove hgoal, beginMove, hnone]
    rfl
  · obtain ⟨result, hentered⟩ := host.exists_entered hstepped.phase world
    have hstill : engine.advance.answers = engine.answers := answers_advance (by simp [hstepped.phase])
    have hacting : engine.advance.phase.job? = some job := by rw [hstepped.phase]; rfl
    refine ⟨host.logged.turn engine.advance world, _,
      .after_step hjob hrun (.turn (mem_unanswered_of_job hacting) (.here _)), hentered.log, hstepped.framed.trans hentered.framed, ?_, .performed candidate result htarget rfl ?_ ?_ ?_⟩
    · rw [hentered.phase]
      split_ifs <;> rfl
    · intro hmissing
      have hverdict := hentered.verdict _ hmissing
      cases operation <;> cases hverdict
    · rw [hentered.history_of_move (hstepped.framed.generation.trans hcurrent) hmove, hstepped.history]
    · rw [hentered.answers, hstill]
      cases result <;> rfl

/-- An undo or a redo of an engine at rest, carried out to its end. -/
structure Carried (host : Host World) (engine : Engine) (world : World × Logbook) (operation : Operation)
    (filter : Option Scope) (ticket : Ticket) (log : Logbook) : Prop where
  entered : (host.logged.carryOut (engine, world) (.request (requestOf operation filter))).2.2 = world.2 ++ log
  settled : (host.logged.carryOut (engine, world) (.request (requestOf operation filter))).1.isSettled = true
  registry : (host.logged.carryOut (engine, world) (.request (requestOf operation filter))).1.registry = engine.registry
  accepting : (host.logged.carryOut (engine, world) (.request (requestOf operation filter))).1.isAccepting =
    engine.isAccepting
  served : Served engine operation filter ticket log
    (host.logged.carryOut (engine, world) (.request (requestOf operation filter))).1

variable (host) in
theorem exists_carried (hreachable : engine.Reachable) (hsettled : engine.isSettled = true) {operation : Operation}
    (hmove : operation ≠ .execute) {filter : Option Scope} {ticket : Ticket}
    (htaken : (engine.submit (requestOf operation filter)).1 = .ok ticket) (world : World × Logbook) :
    ∃ log, host.Carried engine world operation filter ticket log := by
  obtain ⟨goal, waiting, nextTicket, running, hgoal, hunanswered, hidle, hadvance⟩ :=
    advance_submit hreachable.listening hsettled htaken
  rw [goalFor_requestOf] at hgoal
  obtain rfl := eq_of_checked hgoal
  have hsubmitted : (engine.submit (requestOf operation filter)).2.Reachable := hreachable.applyAll [.submit _]
  have htaking : (engine.submit (requestOf operation filter)).2.advance.Reachable := hsubmitted.applyAll [.advance]
  obtain ⟨last, log, hcompletes, hlog, hframed, hdone, hserved⟩ := exists_completes_move host htaking.steady
    (by rw [hadvance]) (by rw [hadvance]) hmove rfl world
  have hqueue : last.1.queue = [] := by
    rw [hframed.queue, hadvance]
    exact (idle_of_isSettled hsettled).2
  -- Before the choice there is one more turn, in which the worker takes the job.
  have hlast : host.logged.carryOut (engine, world) (.request (requestOf operation filter)) = last := by
    refine Completes.settle_eq (.turn (hunanswered ▸ List.mem_cons_self) ?_) hsubmitted.working hsubmitted.numbered
      (isSettled_of_idle hdone hqueue)
    rw [← turn_of_no_run (by rw [hidle]; rfl)] at hcompletes
    exact hcompletes
  refine ⟨log, ?_⟩
  constructor
  case entered => rw [hlast, hlog]
  case settled => rw [hlast, isSettled_of_idle hdone hqueue]
  case registry => rw [hlast, hframed.registry, hadvance]
  case accepting => rw [hlast, hframed.accepting, hadvance]
  case served =>
    rw [hlast]
    exact hserved.of_eq (by rw [hadvance]) (by rw [hadvance])

theorem carryOut_refused (hreachable : engine.Reachable) (hsettled : engine.isSettled = true) {request : Request}
    {error : EngineError} (hrefused : (engine.submit request).1 = .error error) (world : World) :
    host.carryOut (engine, world) (.request request) = ((engine.submit request).2, world) :=
  settle_of_settled (submit_refused_at_rest hreachable.listening hsettled hrefused) world

end Host

end Retrace
