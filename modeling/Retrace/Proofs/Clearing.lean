import Retrace.Proofs.Rest

/-!
# What a clear separates

The generation of a job tells whether a clear came after its submission. The worker looks at it when it
takes a job, when an action ends and before a jump goes on, and this is enough: the jobs from before a
clear do nothing more to the history, those that wait are cancelled, and no other job is.
-/

namespace Retrace.Engine

variable {engine cleared after start : Engine} {move : Move} {job : Job} {run : Run}

/-! ### Jobs from before a clear -/

/-- How an engine has come on since a clear: `cleared` is its state just before. -/
structure Since (cleared engine : Engine) : Prop extends engine.Steady, engine.Numbered where
  numbered : cleared.Numbered
  later : cleared.nextTicket ≤ engine.nextTicket
  newer : cleared.generation < engine.generation
  stale : ∀ job ∈ engine.unanswered, job.ticket < cleared.nextTicket → job.generation ≤ cleared.generation
  current : ∀ job, engine.phase.job? = some job →
    job.generation = engine.generation ∨ ∀ id, engine.history.line id = []
  chosen : ∀ job way, engine.phase = .choosing job way → job.ticket < cleared.nextTicket →
    ∃ before, cleared.phase = .choosing job before
  acting : ∀ run, engine.phase = .acting run → run.job.ticket < cleared.nextTicket →
    cleared.phase = .acting run ∨
      (run.step.operation = .execute ∧ ∃ way, cleared.phase = .choosing run.job way)
  waiting : ∀ job ∈ cleared.queue, job ∈ engine.queue ∨ (job.ticket, .error .cancelled) ∈ engine.answers

/-- What a state knows of the jobs that are under way when it is cleared. -/
theorem since_clear (hsteady : engine.Steady) (hnumbered : engine.Numbered) : Since engine (engine.apply .clear) where
  toSteady := hsteady.change (hsteady.change_apply .clear)
  toNumbered := hnumbered.change (engine.passage_apply .clear)
  numbered := hnumbered
  later := Nat.le_refl _
  newer := Nat.lt_succ_self _
  stale := fun job hjob _ => hnumbered.dated job hjob
  current := by
    intro job hjob
    refine .inr fun id => ?_
    show engine.history.clear.line id = []
    rw [History.line, History.past_clear, History.future_clear]
    rfl
  chosen := fun job way hphase _ => ⟨way, hphase⟩
  acting := fun run hphase _ => .inl hphase
  waiting := fun job hjob => .inl hjob

private theorem Passage.generation_eq (hpassage : engine.Passage move after) :
    after.generation = engine.generation ∨ move = .clear ∧ after.unanswered = engine.unanswered := by
  cases hpassage with
  | kept _ _ _ hgeneration => exact .inl hgeneration
  | joined _ _ _ _ _ _ hgeneration => exact .inl hgeneration
  | cleared hmove hphase hqueue => exact .inr ⟨hmove, by rw [unanswered, unanswered, hphase, hqueue]⟩
  | taken _ _ _ _ _ _ _ hgeneration => exact .inl hgeneration
  | dropped _ _ _ _ _ _ _ hgeneration => exact .inl hgeneration
  | answered _ _ _ _ _ _ _ hgeneration => exact .inl hgeneration

private theorem Passage.mem_unanswered (hpassage : engine.Passage move after) (hjob : job ∈ after.unanswered) :
    job ∈ engine.unanswered ∨ job.generation = engine.generation := by
  cases hpassage.turnover with
  | same hunanswered => exact .inl (hunanswered ▸ hjob)
  | entered goal hunanswered =>
    rw [hunanswered] at hjob
    rcases List.mem_append.mp hjob with hbefore | hnew
    · exact .inl hbefore
    · exact .inr (List.mem_singleton.mp hnew ▸ rfl)
  | left first result hunanswered => exact .inl (hunanswered ▸ List.mem_cons_of_mem _ hjob)

private theorem Passage.mem_answers {ticket : Ticket} (hpassage : engine.Passage move after)
    (hanswer : (ticket, .error .cancelled) ∈ after.answers) :
    (ticket, .error .cancelled) ∈ engine.answers ∨
      ∃ job ∈ engine.unanswered, job.ticket = ticket ∧ job.generation ≠ engine.generation := by
  cases hpassage with
  | kept _ _ hanswers => exact .inl (hanswers ▸ hanswer)
  | joined _ _ _ _ _ hanswers => exact .inl (hanswers ▸ hanswer)
  | cleared _ _ _ hanswers => exact .inl (hanswers ▸ hanswer)
  | taken _ _ _ _ _ _ hanswers => exact .inl (hanswers ▸ hanswer)
  | dropped job _ _ hqueue hstale _ hanswers =>
    rw [hanswers] at hanswer
    rcases List.mem_append.mp hanswer with hbefore | hnew
    · exact .inl hbefore
    · obtain ⟨rfl, -⟩ := Prod.mk.inj (List.mem_singleton.mp hnew)
      exact .inr ⟨job, mem_unanswered_of_queue (hqueue ▸ List.mem_cons_self), rfl, hstale⟩
  | answered job result hjob _ _ hanswers hstale =>
    rw [hanswers] at hanswer
    rcases List.mem_append.mp hanswer with hbefore | hnew
    · exact .inl hbefore
    · obtain ⟨rfl, hresult⟩ := Prod.mk.inj (List.mem_singleton.mp hnew)
      exact .inr ⟨job, mem_unanswered_of_job hjob, rfl, hstale hresult.symm⟩

namespace Since

variable (hsince : Since cleared engine)

include hsince

theorem old_of_waiting (hjob : job ∈ cleared.queue) : job.ticket < cleared.nextTicket := by
  refine hsince.numbered.given job.ticket (List.mem_append_right _ ?_)
  exact List.mem_map_of_mem (mem_unanswered_of_queue hjob)

theorem ne_generation (hjob : job ∈ engine.unanswered) (hold : job.ticket < cleared.nextTicket) :
    job.generation ≠ engine.generation :=
  ((hsince.stale job hjob hold).trans_lt hsince.newer).ne

theorem line_eq_nil (hjob : engine.phase.job? = some job) (hold : job.ticket < cleared.nextTicket) (id : StackId) :
    engine.history.line id = [] := by
  rcases hsince.current job hjob with hcurrent | hempty
  · exact absurd hcurrent (hsince.ne_generation (mem_unanswered_of_job hjob) hold)
  · exact hempty id

/-- An old job starts nothing but the execution that it was about to start. -/
theorem execute_of_origin (hjob : engine.phase.job? = some run.job) (hold : run.job.ticket < cleared.nextTicket)
    (horigin : engine.Origin run) : run.step.operation = .execute := by
  cases horigin with
  | submitted hoperation => exact hoperation
  | recorded hmove hgoal hnext =>
    have hmem := History.mem_line_of_next hnext
    rw [hsince.line_eq_nil hjob hold] at hmem
    cases hmem

theorem apply (move : Move) : Since cleared (engine.apply move) := by
  have hchange := hsince.toSteady.change_apply move
  have hpassage := engine.passage_apply move
  have htransit := transit_apply hsince.toSteady move
  constructor
  case toSteady => exact hsince.toSteady.change hchange
  case toNumbered => exact hsince.toNumbered.change hpassage
  case numbered => exact hsince.numbered
  case later => exact hsince.later.trans hpassage.nextTicket_le
  case newer => exact hsince.newer.trans_le hpassage.generation_le
  case stale =>
    intro job hjob hold
    cases hpassage.turnover with
    | same hunanswered =>
      rw [hunanswered] at hjob
      exact hsince.stale job hjob hold
    | entered goal hunanswered =>
      rw [hunanswered] at hjob
      rcases List.mem_append.mp hjob with hbefore | hnew
      · exact hsince.stale job hbefore hold
      · rw [List.mem_singleton.mp hnew] at hold
        exact absurd hold (not_lt.mpr hsince.later)
    | left first result hunanswered =>
      refine hsince.stale job ?_ hold
      rw [hunanswered]
      exact List.mem_cons_of_mem _ hjob
  case current => exact hchange.current hsince.sound hsince.current
  case chosen =>
    intro job way hphase hold
    cases htransit with
    | same hsame => exact hsince.chosen job way (hsame ▸ hphase) hold
    | ended hended => rw [hended] at hphase; cases hphase
    | taken first hidle hqueue hcurrent htaken =>
      -- What the worker takes is up to date, and an old job is not.
      rw [htaken] at hphase
      obtain ⟨rfl, -⟩ := Phase.choosing.inj hphase
      have hwaiting := mem_unanswered_of_queue (hqueue ▸ List.mem_cons_self)
      exact absurd hcurrent (hsince.ne_generation hwaiting hold)
    | bound first walk hchoosing hbound =>
      rw [hbound] at hphase
      obtain ⟨rfl, -⟩ := Phase.choosing.inj hphase
      exact hsince.chosen first none hchoosing hold
    | started _ run _ hacting => rw [hacting] at hphase; cases hphase
    | rested run walk _ hresting => rw [hresting] at hphase; cases hphase
    | resumed first walk hresting hcurrent hresumed =>
      rw [hresumed] at hphase
      obtain ⟨rfl, -⟩ := Phase.choosing.inj hphase
      exact absurd hcurrent (hsince.ne_generation (mem_unanswered_of_job (by rw [hresting]; rfl)) hold)
  case acting =>
    intro run hphase hold
    cases htransit with
    | same hsame => exact hsince.acting run (hsame ▸ hphase) hold
    | started way begun hchoosing hacting =>
      rw [hacting] at hphase
      obtain rfl := Phase.acting.inj hphase
      have hjob : engine.phase.job? = some begun.job := by rw [hchoosing]; rfl
      rcases hchange.started (by rw [hacting]; rfl) with hrun | ⟨-, horigin⟩
      · rw [hchoosing] at hrun
        cases hrun
      · exact .inr ⟨hsince.execute_of_origin hjob hold horigin, hsince.chosen begun.job way hchoosing hold⟩
    | ended hended => rw [hended] at hphase; cases hphase
    | taken first _ _ _ htaken => rw [htaken] at hphase; cases hphase
    | bound first walk _ hbound => rw [hbound] at hphase; cases hphase
    | rested run walk _ hresting => rw [hresting] at hphase; cases hphase
    | resumed first walk _ _ hresumed => rw [hresumed] at hphase; cases hphase
  case waiting =>
    intro job hjob
    rcases hsince.waiting job hjob with hqueue | hanswer
    · cases hpassage with
      | kept _ hsame => exact .inl (hsame ▸ hqueue)
      | joined _ _ _ _ hmore => exact .inl (hmore ▸ List.mem_append_left _ hqueue)
      | cleared _ _ hsame => exact .inl (hsame ▸ hqueue)
      | answered _ _ _ _ hsame => exact .inl (hsame ▸ hqueue)
      | taken first _ _ hrest hcurrent =>
        rcases List.mem_cons.mp (hrest ▸ hqueue) with rfl | hlater
        · have hstale := hsince.ne_generation (mem_unanswered_of_queue hqueue) (hsince.old_of_waiting hjob)
          exact absurd hcurrent hstale
        · exact .inl hlater
      | dropped first _ _ hrest _ _ hanswers =>
        rw [hrest] at hqueue
        rcases List.mem_cons.mp hqueue with rfl | hlater
        · exact .inr (hanswers ▸ List.mem_append_right _ List.mem_cons_self)
        · exact .inl hlater
    · exact .inr (hpassage.answers_extended.subset hanswer)

theorem applyAll (moves : List Move) : Since cleared (engine.applyAll moves) := by
  induction moves generalizing engine with
  | nil => exact hsince
  | cons move moves ih => exact ih (hsince.apply move)

/-- The end of an old job's action has no effect. -/
theorem history_finish (hjob : engine.phase.job? = some job) (hold : job.ticket < cleared.nextTicket)
    (outcome : Outcome) : (engine.finish outcome).history = engine.history := by
  cases hphase : engine.phase with
  | acting run =>
    rw [hphase] at hjob
    obtain rfl := Option.some.inj hjob
    have hstale := hsince.ne_generation (mem_unanswered_of_job (by rw [hphase]; rfl)) hold
    rw [(finish_of_acting hphase outcome).2.1, takeEffect_of_stale hstale.symm, ite_self]
  | _ => simp only [finish, hphase]

theorem cancelled_settle (hjob : job ∈ cleared.queue) (hworking : engine.Working) {World : Type} (host : Host World)
    (world : World) : (host.settle engine world).1.answer? job.ticket = some (.error .cancelled) := by
  have hsettled := Host.isSettled_settle host hworking world
  obtain ⟨moves, hmoves⟩ : ∃ moves, (host.settle engine world).1 = engine.applyAll moves :=
    Host.turnUntil_eq_applyAll host _ _ engine world
  rw [hmoves] at hsettled ⊢
  have hlater := hsince.applyAll moves
  rcases hlater.waiting job hjob with hqueue | hanswer
  · rw [isSettled, Bool.and_eq_true, List.isEmpty_iff] at hsettled
    rw [hsettled.2] at hqueue
    cases hqueue
  · exact hlater.toNumbered.answer?_eq_some hanswer

end Since

/-! ### Commands in the stacks -/

variable {before later moves : List Move}

private theorem Fresh.since (hfresh : start.Fresh) (before later : List Move) :
    Since (start.applyAll before) (start.applyAll (before ++ .clear :: later)) := by
  rw [applyAll_append, applyAll_cons]
  exact (since_clear (hfresh.steady.applyAll before) (hfresh.numbered.applyAll before)).applyAll later

theorem Fresh.executed_since (hfresh : start.Fresh) {id : StackId} {command : Command}
    (hmem : command ∈ (start.applyAll (before ++ .clear :: later)).history.line id) :
    ∃ first outcome last run, later = first ++ .finish outcome :: last ∧
      (start.applyAll (before ++ .clear :: first)).phase = .acting run ∧ run.step = ⟨command, id, .execute⟩ ∧
      (start.applyAll before).nextTicket ≤ run.job.ticket := by
  induction later using List.reverseRecOn with
  | nil =>
    rw [applyAll_concat] at hmem
    change command ∈ (start.applyAll before).history.clear.line id at hmem
    rw [History.line, History.past_clear, History.future_clear] at hmem
    cases hmem
  | append_singleton later move ih =>
    have hsince := hfresh.since before later
    have hstood : command ∈ (start.applyAll (before ++ .clear :: later)).history.line id →
        ∃ first outcome last run, later ++ [move] = first ++ .finish outcome :: last ∧
          (start.applyAll (before ++ .clear :: first)).phase = .acting run ∧ run.step = ⟨command, id, .execute⟩ ∧
          (start.applyAll before).nextTicket ≤ run.job.ticket := by
      intro hstood
      obtain ⟨first, outcome, last, run, rfl, hrest⟩ := ih hstood
      exact ⟨first, outcome, last ++ [move], run, by simp, hrest⟩
    rw [← List.cons_append, ← List.append_assoc, applyAll_concat] at hmem
    have hchange := hsince.toSteady.change_apply move
    rcases hchange.shrunk_or_ended hsince.sound with hline | ⟨run, outcome, rfl, hphase, -, -⟩
    · exact hstood ((hline id).subset hmem)
    · cases hchange.flow hsince.sound with
      | shrunk hline => exact hstood ((hline id).subset hmem)
      | grown executed hacting hcurrent hoperation hmutating hover hline =>
        rcases List.mem_append.mp ((hline id).subset hmem) with hold | hnew
        · exact hstood hold
        · split_ifs at hnew with hid
          · obtain rfl := List.mem_singleton.mp hnew
            refine ⟨later, outcome, [], executed, rfl, hacting, ?_, ?_⟩
            · rw [hid, ← hoperation]
            · by_contra hold
              have hjob := mem_unanswered_of_job (show _ = some executed.job by rw [hacting]; rfl)
              exact hsince.ne_generation hjob (not_le.mp hold) hcurrent.symm
          · cases hnew

/-! ### Cancelled jobs -/

/-- A job that is out of date was under way at a clear, and so was a job that is cancelled. -/
structure Dated (start : Engine) (moves : List Move) : Prop where
  stale : ∀ job ∈ (start.applyAll moves).unanswered, job.generation ≠ (start.applyAll moves).generation →
    ∃ before later, moves = before ++ .clear :: later ∧ job ∈ (start.applyAll before).unanswered
  cancelled : ∀ ticket, (ticket, .error .cancelled) ∈ (start.applyAll moves).answers →
    ∃ before later job, moves = before ++ .clear :: later ∧ job ∈ (start.applyAll before).unanswered ∧
      job.ticket = ticket

theorem Fresh.dated (hfresh : start.Fresh) (moves : List Move) : Dated start moves := by
  induction moves using List.reverseRecOn with
  | nil =>
    obtain ⟨registry, routes, defaultStack, limit, capacity, rfl⟩ := hfresh
    constructor
    · intro job hjob
      cases hjob
    · intro ticket hanswer
      cases hanswer
  | append_singleton moves move ih =>
    have hpassage := (start.applyAll moves).passage_apply move
    rw [← applyAll_concat] at hpassage
    have hstale : ∀ job ∈ (start.applyAll moves).unanswered, job.generation ≠ (start.applyAll moves).generation →
        ∃ before later, moves ++ [move] = before ++ .clear :: later ∧ job ∈ (start.applyAll before).unanswered := by
      intro job hjob hgeneration
      obtain ⟨before, later, rfl, hunder⟩ := ih.stale job hjob hgeneration
      exact ⟨before, later ++ [move], by simp, hunder⟩
    constructor
    · intro job hjob hgeneration
      rcases hpassage.generation_eq with hsame | ⟨rfl, hunanswered⟩
      · rw [hsame] at hgeneration
        rcases hpassage.mem_unanswered hjob with hbefore | hnew
        · exact hstale job hbefore hgeneration
        · exact absurd hnew hgeneration
      · exact ⟨moves, [], rfl, hunanswered ▸ hjob⟩
    · intro ticket hanswer
      rcases hpassage.mem_answers hanswer with hbefore | ⟨job, hjob, rfl, hgeneration⟩
      · obtain ⟨before, later, job, rfl, hunder⟩ := ih.cancelled ticket hbefore
        exact ⟨before, later ++ [move], job, by simp, hunder⟩
      · obtain ⟨before, later, hmoves, hunder⟩ := hstale job hjob hgeneration
        exact ⟨before, later, job, hmoves, hunder, rfl⟩

end Retrace.Engine
