import Retrace.Proofs.Turns

/-!
# Tickets

Every accepted job has a ticket of its own, later jobs have larger ones, and the worker takes and answers
the jobs in this order. `Passage` lists what a move can do to the jobs; the rest of the theory of jobs is
proved over this list.
-/

namespace Retrace

theorem Outcome.isCommandFailure_of_settle {command : String} {outcome : Outcome} {error : EngineError}
    (hfailed : outcome.settle command = .error error) : error.isCommandFailure = true := by
  cases outcome with
  | brokeOff reason => exact Except.error.inj hfailed ▸ rfl
  | returned result =>
    cases result with
    | ok value => cases hfailed
    | error cause =>
      have hverdict : (if cause.isCommandFailure then .error cause
          else .error (.executionFailed command cause.message) : ActionResult) = .error error := hfailed
      split_ifs at hverdict with hkind
      · exact Except.error.inj hverdict ▸ hkind
      · exact Except.error.inj hverdict ▸ rfl

private theorem Outcome.settle_ne_cancelled (command : String) (outcome : Outcome) :
    outcome.settle command ≠ .error .cancelled :=
  fun hcancelled => Bool.false_ne_true (isCommandFailure_of_settle hcancelled)

namespace Engine

variable {engine after : Engine} {move : Move} {job : Job} {run : Run}

def unanswered (engine : Engine) : List Job := engine.phase.job?.toList ++ engine.queue

inductive Passage (engine : Engine) (move : Move) (after : Engine) : Prop where
  | kept (hjob : after.phase.job? = engine.phase.job?) (hqueue : after.queue = engine.queue)
      (hanswers : after.answers = engine.answers) (hgeneration : after.generation = engine.generation)
      (hnumber : engine.nextTicket ≤ after.nextTicket) (hrunning : after.running = engine.running)
  | joined (request : Request) (goal : Goal) (hmove : move = .submit request) (hphase : after.phase = engine.phase)
      (hqueue : after.queue = engine.queue ++ [⟨engine.nextTicket, engine.generation, goal⟩])
      (hanswers : after.answers = engine.answers) (hgeneration : after.generation = engine.generation)
      (hnumber : after.nextTicket = engine.nextTicket + 1) (hrunning : after.running = engine.running + 1)
  | cleared (hmove : move = .clear) (hphase : after.phase = engine.phase) (hqueue : after.queue = engine.queue)
      (hanswers : after.answers = engine.answers) (hgeneration : after.generation = engine.generation + 1)
      (hnumber : after.nextTicket = engine.nextTicket) (hrunning : after.running = engine.running)
  | taken (job : Job) (hmove : move = .advance) (hidle : engine.phase = .idle)
      (hqueue : engine.queue = job :: after.queue)
      (hcurrent : job.generation = engine.generation) (hphase : after.phase = .choosing job none)
      (hanswers : after.answers = engine.answers) (hgeneration : after.generation = engine.generation)
      (hnumber : after.nextTicket = engine.nextTicket) (hrunning : after.running = engine.running)
  | dropped (job : Job) (hmove : move = .advance) (hidle : engine.phase = .idle)
      (hqueue : engine.queue = job :: after.queue)
      (hstale : job.generation ≠ engine.generation) (hphase : after.phase = .idle)
      (hanswers : after.answers = engine.answers ++ [(job.ticket, .error .cancelled)])
      (hgeneration : after.generation = engine.generation) (hnumber : after.nextTicket = engine.nextTicket)
      (hrunning : after.running = engine.running - 1)
  | answered (job : Job) (result : ActionResult) (hjob : engine.phase.job? = some job) (hphase : after.phase = .idle)
      (hqueue : after.queue = engine.queue) (hanswers : after.answers = engine.answers ++ [(job.ticket, result)])
      (hstale : result = .error .cancelled → job.generation ≠ engine.generation)
      (hgeneration : after.generation = engine.generation) (hnumber : after.nextTicket = engine.nextTicket)
      (hrunning : after.running = engine.running - 1)

/-! ### The steps of the worker -/

theorem passage_refl (engine : Engine) : engine.Passage move engine := .kept rfl rfl rfl rfl (Nat.le_refl _) rfl

/-- What no step of the worker but taking a job and answering one changes. -/
structure SameJobs (engine after : Engine) : Prop where
  queue : after.queue = engine.queue
  answers : after.answers = engine.answers
  generation : after.generation = engine.generation
  number : after.nextTicket = engine.nextTicket
  running : after.running = engine.running

theorem SameJobs.kept (hsame : engine.SameJobs after) (hjob : after.phase.job? = engine.phase.job?) :
    engine.Passage move after :=
  .kept hjob hsame.queue hsame.answers hsame.generation hsame.number.ge hsame.running

theorem passage_answer {ready : Engine} {result : ActionResult} (hsame : engine.SameJobs ready)
    (hjob : engine.phase.job? = some job)
    (hstale : result = .error .cancelled → job.generation ≠ engine.generation) :
    engine.Passage move (ready.answer job result) := by
  obtain ⟨hqueue, hanswers, hgeneration, hnumber, hrunning⟩ := hsame
  refine .answered job result hjob rfl hqueue ?_ hstale hgeneration hnumber ?_
  · rw [← hanswers]
    rfl
  · rw [← hrunning]
    rfl

theorem passage_conclude {ready : Engine} {result : ActionResult} (hsame : engine.SameJobs ready)
    (hjob : engine.phase.job? = some run.job) (hresult : result ≠ .error .cancelled) :
    engine.Passage move (ready.conclude run result) := by
  have hanswer : ∀ {ready}, engine.SameJobs ready → engine.Passage move (ready.answer run.job result) :=
    fun hsame => passage_answer hsame hjob fun hcancelled => absurd hcancelled hresult
  unfold conclude
  cases result with
  | error error => exact hanswer { hsame with }
  | ok value =>
    cases hwalk : run.walk with
    | none => exact hanswer { hsame with }
    | some walk => exact SameJobs.kept { hsame with } hjob.symm

private theorem passage_begin {ready : Engine} {walk : Option Walk} {step : Step} (hsame : engine.SameJobs ready)
    (hjob : engine.phase.job? = some job) : engine.Passage move (ready.begin job walk step) := by
  unfold begin
  dsimp only
  split_ifs
  · exact passage_conclude { hsame with } hjob (by simp)
  · exact SameJobs.kept { hsame with } hjob.symm

private theorem passage_choose {walk : Option Walk} (hphase : engine.phase = .choosing job walk) :
    engine.Passage move (engine.choose job walk) := by
  have hjob : engine.phase.job? = some job := by rw [hphase]; rfl
  have hsame : engine.SameJobs engine := ⟨rfl, rfl, rfl, rfl, rfl⟩
  have hanswer : ∀ result, result ≠ .error .cancelled → engine.Passage move (engine.answer job result) :=
    fun result hresult => passage_answer hsame hjob fun hcancelled => absurd hcancelled hresult
  have hmove : ∀ operation filter missing, missing ≠ .cancelled →
      engine.Passage move (engine.beginMove job operation filter missing) := by
    intro operation filter missing hmissing
    unfold beginMove
    split
    · exact hanswer _ (by simpa using hmissing)
    · exact passage_begin hsame hjob
  have hwalk : ∀ way : Walk, engine.Passage move { engine with phase := .choosing job (some way) } :=
    fun way => SameJobs.kept ⟨rfl, rfl, rfl, rfl, rfl⟩ hjob.symm
  unfold choose
  split
  · exact passage_begin ⟨rfl, rfl, rfl, rfl, rfl⟩ hjob
  · exact hmove _ _ _ (by simp)
  · exact hmove _ _ _ (by simp)
  · unfold beginJump
    split
    · exact hwalk _
    · split_ifs
      · exact hanswer _ (by simp)
      · exact hwalk _
  · unfold continueJump
    split
    · exact hanswer _ (by simp)
    · split_ifs
      · split
        · exact hanswer _ (by simp)
        · exact passage_begin hsame hjob
      · split
        · exact hanswer _ (by simp)
        · exact passage_begin hsame hjob
      · exact hanswer _ (by simp)

theorem passage_advance : engine.Passage .advance engine.advance := by
  unfold advance
  split
  · next hphase =>
    unfold take
    split
    · exact passage_refl engine
    · next job rest hqueue =>
      dsimp only
      split_ifs with hcurrent
      · exact .taken job rfl hphase hqueue hcurrent rfl rfl rfl rfl rfl
      · exact .dropped job rfl hphase hqueue hcurrent rfl rfl rfl rfl rfl
  · next job walk hphase => exact passage_choose hphase
  · exact passage_refl engine
  · next job walk hphase =>
    have hjob : engine.phase.job? = some job := by rw [hphase]; rfl
    unfold resume
    split_ifs with hcurrent
    · exact SameJobs.kept ⟨rfl, rfl, rfl, rfl, rfl⟩ hjob.symm
    · exact passage_answer ⟨rfl, rfl, rfl, rfl, rfl⟩ hjob fun _ => hcurrent

private theorem passage_finish (outcome : Outcome) : engine.Passage (.finish outcome) (engine.finish outcome) := by
  unfold finish
  split
  · next run hphase =>
    exact passage_conclude ⟨rfl, rfl, rfl, rfl, rfl⟩ (by rw [hphase]; rfl) (Outcome.settle_ne_cancelled _ outcome)
  · exact passage_refl engine

private theorem passage_submit (request : Request) : engine.Passage (.submit request) (engine.submit request).2 := by
  unfold submit
  split_ifs
  · dsimp only
    split
    · exact .kept rfl rfl rfl rfl (Nat.le_succ _) rfl
    · next goal hgoal =>
      unfold schedule
      dsimp only
      split_ifs
      · exact .joined request goal rfl rfl rfl rfl rfl rfl rfl
      · exact .kept rfl rfl rfl rfl (Nat.le_succ _) rfl
  · exact passage_refl engine

/-- **What a move can do to the jobs** is on the list. -/
theorem passage_apply (engine : Engine) (move : Move) : engine.Passage move (engine.apply move) := by
  have hsame : ∀ {after : Engine}, engine.SameJobs after → after.phase = engine.phase →
      engine.Passage move after := fun hsame hphase => hsame.kept (by rw [hphase])
  cases move with
  | submit request => exact passage_submit request
  | clear => exact .cleared rfl rfl rfl rfl rfl rfl rfl
  | setLimit limit => exact hsame ⟨rfl, rfl, rfl, rfl, rfl⟩ rfl
  | activate stack => exact hsame ⟨rfl, rfl, rfl, rfl, rfl⟩ rfl
  | route scope stack =>
    obtain ⟨routes, hroute⟩ := exists_route_eq engine scope stack
    show engine.Passage _ (engine.route scope stack).2
    rw [hroute]
    exact hsame ⟨rfl, rfl, rfl, rfl, rfl⟩ rfl
  | shutDown => exact hsame ⟨rfl, rfl, rfl, rfl, rfl⟩ rfl
  | advance => exact passage_advance
  | report number event =>
    show engine.Passage _ (engine.report number event)
    unfold report
    split
    · split_ifs
      · exact hsame ⟨rfl, rfl, rfl, rfl, rfl⟩ rfl
      · exact passage_refl engine
    · exact passage_refl engine
  | finish outcome => exact passage_finish outcome

/-! ### The order of the tickets -/

def tickets (engine : Engine) : List Ticket := engine.answers.map Prod.fst ++ engine.unanswered.map Job.ticket

/-- The tickets are given out in order, the jobs go through the queue in this order, and no job comes from
a later generation than the present one. -/
structure Numbered (engine : Engine) : Prop where
  increasing : engine.tickets.Pairwise (· < ·)
  given : ∀ ticket ∈ engine.tickets, ticket < engine.nextTicket
  dated : ∀ job ∈ engine.unanswered, job.generation ≤ engine.generation
  counted : engine.running = engine.unanswered.length

theorem unanswered_of_idle (hidle : engine.phase = .idle) : engine.unanswered = engine.queue := by
  rw [unanswered, hidle]
  rfl

theorem unanswered_of_job (hjob : engine.phase.job? = some job) : engine.unanswered = job :: engine.queue := by
  rw [unanswered, hjob]
  rfl

theorem isSettled_of_unanswered (hnothing : engine.unanswered = []) : engine.isSettled = true := by
  obtain ⟨hjob, hqueue⟩ := List.append_eq_nil_iff.mp hnothing
  cases hphase : engine.phase with
  | idle => simp [isSettled, hphase, hqueue]
  | _ =>
    rw [hphase] at hjob
    cases hjob

theorem idle_of_isSettled (hsettled : engine.isSettled = true) : engine.phase = .idle ∧ engine.queue = [] := by
  simpa [isSettled] using hsettled

theorem unanswered_of_isSettled (hsettled : engine.isSettled = true) : engine.unanswered = [] := by
  obtain ⟨hphase, hqueue⟩ := idle_of_isSettled hsettled
  rw [unanswered_of_idle hphase, hqueue]

theorem mem_unanswered_of_job (hjob : engine.phase.job? = some job) : job ∈ engine.unanswered := by
  rw [unanswered_of_job hjob]
  exact List.mem_cons_self

theorem mem_unanswered_of_queue (hjob : job ∈ engine.queue) : job ∈ engine.unanswered :=
  List.mem_append_right _ hjob

/-- What a move can do to the order of the jobs: nothing, or a job comes in at the end, or the first is
answered. -/
inductive Turnover (engine after : Engine) : Prop where
  | same (hunanswered : after.unanswered = engine.unanswered) (hanswers : after.answers = engine.answers)
      (hrunning : after.running = engine.running)
  | entered (goal : Goal) (hunanswered : after.unanswered = engine.unanswered ++ [⟨engine.nextTicket, engine.generation, goal⟩])
      (hanswers : after.answers = engine.answers) (hnumber : after.nextTicket = engine.nextTicket + 1)
      (hrunning : after.running = engine.running + 1)
  | left (job : Job) (result : ActionResult) (hunanswered : engine.unanswered = job :: after.unanswered)
      (hanswers : after.answers = engine.answers ++ [(job.ticket, result)])
      (hrunning : after.running = engine.running - 1)

theorem Passage.turnover (hpassage : engine.Passage move after) : engine.Turnover after := by
  cases hpassage with
  | kept hjob hqueue hanswers _ _ hrunning => exact .same (by rw [unanswered, unanswered, hjob, hqueue]) hanswers hrunning
  | joined request goal _ hphase hqueue hanswers _ hnumber hrunning =>
    refine .entered goal ?_ hanswers hnumber hrunning
    rw [unanswered, hphase, hqueue, ← List.append_assoc]
    rfl
  | cleared _ hphase hqueue hanswers _ _ hrunning =>
    exact .same (by rw [unanswered, unanswered, hphase, hqueue]) hanswers hrunning
  | taken job _ hidle hqueue _ hphase hanswers _ _ hrunning =>
    refine .same ?_ hanswers hrunning
    rw [unanswered_of_idle hidle, hqueue, unanswered, hphase]
    rfl
  | dropped job _ hidle hqueue _ hphase hanswers _ _ hrunning =>
    refine .left job _ ?_ hanswers hrunning
    rw [unanswered_of_idle hidle, unanswered_of_idle hphase, hqueue]
  | answered job result hjob hphase hqueue hanswers _ _ _ hrunning =>
    refine .left job result ?_ hanswers hrunning
    rw [unanswered_of_job hjob, unanswered_of_idle hphase, hqueue]

theorem Passage.nextTicket_le (hpassage : engine.Passage move after) : engine.nextTicket ≤ after.nextTicket := by
  cases hpassage with
  | kept hjob hqueue hanswers hgeneration hnumber => exact hnumber
  | joined request goal hmove hphase hqueue hanswers hgeneration hnumber => exact hnumber ▸ Nat.le_succ _
  | cleared hmove hphase hqueue hanswers hgeneration hnumber => exact hnumber.ge
  | taken job hmove hidle hqueue hcurrent hphase hanswers hgeneration hnumber => exact hnumber.ge
  | dropped job hmove hidle hqueue hstale hphase hanswers hgeneration hnumber => exact hnumber.ge
  | answered job result hjob hphase hqueue hanswers hstale hgeneration hnumber => exact hnumber.ge

theorem Passage.generation_le (hpassage : engine.Passage move after) : engine.generation ≤ after.generation := by
  cases hpassage with
  | kept hjob hqueue hanswers hgeneration => exact hgeneration.ge
  | joined request goal hmove hphase hqueue hanswers hgeneration => exact hgeneration.ge
  | cleared hmove hphase hqueue hanswers hgeneration => exact hgeneration ▸ Nat.le_succ _
  | taken job hmove hidle hqueue hcurrent hphase hanswers hgeneration => exact hgeneration.ge
  | dropped job hmove hidle hqueue hstale hphase hanswers hgeneration => exact hgeneration.ge
  | answered job result hjob hphase hqueue hanswers hstale hgeneration => exact hgeneration.ge

/-- An answer is never taken back. -/
theorem Passage.answers_extended (hpassage : engine.Passage move after) : engine.answers <+: after.answers := by
  cases hpassage.turnover with
  | same _ hanswers => rw [hanswers]
  | entered _ _ hanswers => rw [hanswers]
  | left _ _ _ hanswers => exact hanswers ▸ List.prefix_append ..

theorem Passage.unanswered_suffix (hpassage : engine.Passage move after) (hmove : ∀ request, move ≠ .submit request) :
    after.unanswered <:+ engine.unanswered := by
  cases hpassage with
  | joined request goal hsubmit => exact absurd hsubmit (hmove request)
  | kept hjob hqueue => rw [unanswered, unanswered, hjob, hqueue]
  | cleared _ hphase hqueue => rw [unanswered, unanswered, hphase, hqueue]
  | taken job _ hidle hqueue _ hphase =>
    have hjob : after.phase.job? = some job := by rw [hphase]; rfl
    rw [unanswered_of_idle hidle, hqueue, unanswered_of_job hjob]
  | dropped job _ hidle hqueue _ hphase =>
    rw [unanswered_of_idle hidle, unanswered_of_idle hphase, hqueue]
    exact List.suffix_cons ..
  | answered job result hjob hphase hqueue =>
    rw [unanswered_of_job hjob, unanswered_of_idle hphase, hqueue]
    exact List.suffix_cons ..

theorem answer?_of_prefix {ticket : Ticket} {result : ActionResult} (hextended : engine.answers <+: after.answers)
    (hanswer : engine.answer? ticket = some result) : after.answer? ticket = some result := by
  obtain ⟨more, hmore⟩ := hextended
  rw [answer?] at hanswer ⊢
  rw [← hmore, List.lookup_append, hanswer]
  rfl

theorem Turnover.tickets_eq (hturnover : engine.Turnover after) :
    after.tickets = engine.tickets ∨
      after.tickets = engine.tickets ++ [engine.nextTicket] ∧ after.nextTicket = engine.nextTicket + 1 := by
  cases hturnover with
  | same hunanswered hanswers => exact .inl (by rw [tickets, tickets, hunanswered, hanswers])
  | entered goal hunanswered hanswers hnumber =>
    refine .inr ⟨?_, hnumber⟩
    rw [tickets, tickets, hunanswered, hanswers]
    simp
  | left job result hunanswered hanswers =>
    refine .inl ?_
    rw [tickets, tickets, hunanswered, hanswers]
    simp

theorem Numbered.change (hnumbered : engine.Numbered) (hpassage : engine.Passage move after) : after.Numbered := by
  have hturnover := hpassage.turnover
  have hnumber := hpassage.nextTicket_le
  have hgeneration := hpassage.generation_le
  constructor
  case increasing =>
    rcases hturnover.tickets_eq with hsame | ⟨hmore, -⟩
    · rw [hsame]
      exact hnumbered.increasing
    · rw [hmore, List.pairwise_append]
      refine ⟨hnumbered.increasing, List.pairwise_singleton _ _, ?_⟩
      intro ticket hticket next hnext
      rw [List.mem_singleton.mp hnext]
      exact hnumbered.given ticket hticket
  case given =>
    intro ticket hticket
    rcases hturnover.tickets_eq with hsame | ⟨hmore, hnext⟩
    · rw [hsame] at hticket
      exact (hnumbered.given ticket hticket).trans_le hnumber
    · rw [hmore] at hticket
      rcases List.mem_append.mp hticket with hold | hnew
      · exact (hnumbered.given ticket hold).trans_le hnumber
      · rw [List.mem_singleton.mp hnew, hnext]
        exact Nat.lt_succ_self _
  case dated =>
    intro job hjob
    cases hturnover with
    | same hunanswered =>
      rw [hunanswered] at hjob
      exact (hnumbered.dated job hjob).trans hgeneration
    | entered goal hunanswered =>
      rw [hunanswered] at hjob
      rcases List.mem_append.mp hjob with hold | hnew
      · exact (hnumbered.dated job hold).trans hgeneration
      · rw [List.mem_singleton.mp hnew]
        exact hgeneration
    | left first result hunanswered =>
      have hold : job ∈ engine.unanswered := by
        rw [hunanswered]
        exact List.mem_cons_of_mem _ hjob
      exact (hnumbered.dated job hold).trans hgeneration
  case counted =>
    have hcounted := hnumbered.counted
    cases hturnover with
    | same hunanswered _ hrunning => rw [hunanswered, hrunning, hcounted]
    | entered goal hunanswered _ _ hrunning =>
      rw [hunanswered, hrunning, hcounted]
      simp
    | left job result hunanswered _ hrunning =>
      rw [hunanswered] at hcounted
      rw [hrunning, hcounted]
      simp

theorem Numbered.applyAll (hnumbered : engine.Numbered) (moves : List Move) : (engine.applyAll moves).Numbered := by
  induction moves generalizing engine with
  | nil => exact hnumbered
  | cons move moves ih => exact ih (hnumbered.change (engine.passage_apply move))

theorem Fresh.numbered (hfresh : engine.Fresh) : engine.Numbered := by
  obtain ⟨registry, routes, defaultStack, limit, capacity, rfl⟩ := hfresh
  constructor <;> simp [tickets, unanswered, Engine.start, Phase.job?]

theorem answers_extended_applyAll (engine : Engine) (moves : List Move) :
    engine.answers <+: (engine.applyAll moves).answers := by
  induction moves generalizing engine with
  | nil => exact List.prefix_refl _
  | cons move moves ih => exact (engine.passage_apply move).answers_extended.trans (ih (engine.apply move))

theorem tickets_prefix_applyAll (engine : Engine) (moves : List Move) :
    engine.tickets <+: (engine.applyAll moves).tickets := by
  induction moves generalizing engine with
  | nil => exact List.prefix_refl _
  | cons move moves ih =>
    refine List.IsPrefix.trans ?_ (ih (engine.apply move))
    rcases (engine.passage_apply move).turnover.tickets_eq with hsame | ⟨hmore, -⟩
    · rw [hsame]
    · exact hmore ▸ List.prefix_append ..

theorem unanswered_suffix_applyAll {moves : List Move} (engine : Engine)
    (hmoves : ∀ move ∈ moves, ∀ request, move ≠ .submit request) :
    (engine.applyAll moves).unanswered <:+ engine.unanswered := by
  induction moves generalizing engine with
  | nil => exact List.suffix_refl _
  | cons move moves ih =>
    have hnow := (engine.passage_apply move).unanswered_suffix (hmoves move List.mem_cons_self)
    exact (ih (engine.apply move) fun later hlater => hmoves later (List.mem_cons_of_mem _ hlater)).trans hnow

/-! ### Jobs and answers -/

namespace Numbered

variable (hnumbered : engine.Numbered)

include hnumbered

theorem not_answered (hjob : job ∈ engine.unanswered) {ticket : Ticket} {result : ActionResult}
    (hanswer : (ticket, result) ∈ engine.answers) : ticket < job.ticket := by
  have hincreasing := hnumbered.increasing
  rw [tickets, List.pairwise_append] at hincreasing
  exact hincreasing.2.2 ticket (List.mem_map_of_mem hanswer) job.ticket (List.mem_map_of_mem hjob)

theorem answer?_eq_none (hjob : job ∈ engine.unanswered) : engine.answer? job.ticket = none := by
  rw [answer?, List.lookup_eq_none_iff]
  rintro ⟨ticket, result⟩ hanswer
  have hless := hnumbered.not_answered hjob hanswer
  simpa using hless.ne'

theorem answer?_eq_some {ticket : Ticket} {result : ActionResult} (hanswer : (ticket, result) ∈ engine.answers) :
    engine.answer? ticket = some result := by
  have hincreasing := hnumbered.increasing
  rw [tickets, List.pairwise_append] at hincreasing
  replace hincreasing := hincreasing.1
  rw [answer?]
  generalize engine.answers = answers at hanswer hincreasing ⊢
  induction answers with
  | nil => cases hanswer
  | cons first rest ih =>
    rw [List.map_cons, List.pairwise_cons] at hincreasing
    rcases List.mem_cons.mp hanswer with hfirst | hrest
    · simp [← hfirst]
    · have hless := hincreasing.1 ticket (List.mem_map_of_mem hrest)
      have hne : (ticket == first.1) = false := by simpa using hless.ne'
      rw [List.lookup_cons, hne]
      exact ih hrest hincreasing.2

end Numbered

end Engine

end Retrace
