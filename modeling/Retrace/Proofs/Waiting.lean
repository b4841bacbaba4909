import Retrace.Proofs.Receipts

/-!
# The waiting list

The waiting list is a second account of what is in the queue: an entry is made when a command is submitted, taken out
when its action is started or when nobody takes jobs any more, and a clear wipes all of them while the discarded jobs
stay in the queue. `Listed` says that the two accounts agree, and `Told` compares the list with what is noted along a run.
-/

namespace Retrace.Engine

variable {engine after start : Engine} {job : Job} {jobs : List Job} {ticket : Ticket} {move : Move}

/-! ### What the queue asks for -/

def unstarted (engine : Engine) : List Job :=
  match engine.phase with
  | .choosing job none => job :: engine.queue
  | _ => engine.queue

def entriesOf (jobs : List Job) : List Waiting := jobs.flatMap fun job => waitingEntry job.ticket job.goal

/-- The entries for the jobs that no clear has discarded and of which no action has been started. -/
def due (engine : Engine) : List Waiting :=
  entriesOf (engine.unstarted.filter fun job => job.generation = engine.generation)

theorem ticket_of_mem_waitingEntry {goal : Goal} {entry : Waiting} (hentry : entry ∈ waitingEntry ticket goal) :
    entry.ticket = ticket := by
  cases goal with
  | execute command stack => rw [List.mem_singleton.mp hentry]
  | _ => cases hentry

private theorem ticket_of_mem_entriesOf {entry : Waiting} (hentry : entry ∈ entriesOf jobs) :
    ∃ job ∈ jobs, entry.ticket = job.ticket := by
  obtain ⟨job, hjob, hmem⟩ := List.mem_flatMap.mp hentry
  exact ⟨job, hjob, ticket_of_mem_waitingEntry hmem⟩

theorem entriesOf_append (first second : List Job) : entriesOf (first ++ second) = entriesOf first ++ entriesOf second :=
  List.flatMap_append

private theorem entriesOf_sublist (jobs : List Job) :
    ((entriesOf jobs).map Waiting.ticket).Sublist (jobs.map Job.ticket) := by
  induction jobs with
  | nil => exact List.Sublist.slnil
  | cons job jobs ih =>
    show ((waitingEntry job.ticket job.goal ++ entriesOf jobs).map Waiting.ticket).Sublist _
    rw [List.map_append]
    cases job.goal with
    | execute command stack => exact ih.cons_cons _
    | _ => exact ih.cons _

theorem withoutTicket_of_absent {entries : List Waiting} (habsent : ∀ entry ∈ entries, entry.ticket ≠ ticket) :
    withoutTicket ticket entries = entries := by
  refine List.filter_eq_self.mpr fun entry hentry => ?_
  simpa using habsent entry hentry

theorem withoutTicket_waitingEntry (ticket : Ticket) (goal : Goal) : withoutTicket ticket (waitingEntry ticket goal) = [] := by
  refine List.filter_eq_nil_iff.mpr fun entry hentry => ?_
  simp [ticket_of_mem_waitingEntry hentry]

theorem unstarted_suffix (engine : Engine) : engine.unstarted <:+ engine.unanswered := by
  unfold unstarted unanswered
  cases engine.phase with
  | idle => exact List.suffix_refl _
  | choosing job way =>
    cases way with
    | none => exact List.suffix_refl _
    | some walk => exact List.suffix_cons _ _
  | acting run => exact List.suffix_cons _ _
  | resting job walk => exact List.suffix_cons _ _

def Listed (engine : Engine) : Prop := engine.waiting = engine.due

/-! ### The steps of the worker -/

/-- The worker has dealt with the start of the job at hand: the jobs that are not started are those in the queue. -/
structure Attended (engine after : Engine) : Prop where
  unstarted : after.unstarted = engine.queue
  generation : after.generation = engine.generation
  waiting : after.waiting = engine.waiting

private theorem attended_answer (engine : Engine) (job : Job) (result : ActionResult) :
    engine.Attended (engine.answer job result) := ⟨rfl, rfl, rfl⟩

theorem attended_conclude (engine : Engine) (run : Run) (result : ActionResult) :
    engine.Attended (engine.conclude run result) := by
  cases result with
  | error error => exact ⟨rfl, rfl, rfl⟩
  | ok value => cases hwalk : run.walk <;> simp only [conclude, hwalk] <;> exact ⟨rfl, rfl, rfl⟩

theorem attended_begin (engine : Engine) (job : Job) (walk : Option Walk) (step : Step) :
    engine.Attended (engine.begin job walk step) := by
  unfold begin
  dsimp only
  split_ifs
  · have hconcluded := attended_conclude { engine with bus := engine.bus.publishAll (around step true) }
      ⟨engine.runs, job, walk, step, engine.statuses.get step.command.id⟩ (.ok .null)
    exact ⟨hconcluded.unstarted, hconcluded.generation, hconcluded.waiting⟩
  · exact ⟨rfl, rfl, rfl⟩

private theorem attended_choose (way : Option Walk) (hgoal : ∀ command stack, job.goal ≠ .execute command stack) :
    engine.Attended (engine.choose job way) := by
  have hanswer := attended_answer engine job
  have hbegin := attended_begin engine job
  have hmove : ∀ operation filter missing, engine.Attended (engine.beginMove job operation filter missing) := by
    intro operation filter missing
    unfold beginMove
    split
    · exact hanswer _
    · exact hbegin _ _
  unfold choose
  split
  · next command stack hexecute => exact absurd hexecute (hgoal command stack)
  · exact hmove _ _ _
  · exact hmove _ _ _
  · unfold beginJump
    split
    · exact ⟨rfl, rfl, rfl⟩
    · split_ifs
      · exact hanswer _
      · exact ⟨rfl, rfl, rfl⟩
  · unfold continueJump
    split
    · exact hanswer _
    · split_ifs
      · split
        · exact hanswer _
        · exact hbegin _ _
      · split
        · exact hanswer _
        · exact hbegin _ _
      · exact hanswer _

/-! ### The two accounts agree -/

namespace Numbered

variable (hnumbered : engine.Numbered)

include hnumbered

theorem increasing_unanswered : (engine.unanswered.map Job.ticket).Pairwise (· < ·) :=
  (List.pairwise_append.mp hnumbered.increasing).2.1

theorem lt_nextTicket (hjob : job ∈ engine.unstarted) : job.ticket < engine.nextTicket := by
  refine hnumbered.given job.ticket (List.mem_append_right _ (List.mem_map_of_mem ?_))
  exact engine.unstarted_suffix.subset hjob

theorem eq_of_ticket {other : Job} (hjob : job ∈ engine.unanswered) (hother : other ∈ engine.unanswered)
    (hsame : other.ticket = job.ticket) : other = job := by
  have hnodup : (engine.unanswered.map Job.ticket).Nodup := hnumbered.increasing_unanswered.imp Nat.ne_of_lt
  exact List.inj_on_of_nodup_map hnodup hother hjob hsame

theorem ticket_ne_of_queue {other : Job} (hjob : engine.phase.job? = some job) (hother : other ∈ engine.queue) :
    other.ticket ≠ job.ticket := by
  have hincreasing := hnumbered.increasing_unanswered
  rw [unanswered_of_job hjob, List.map_cons, List.pairwise_cons] at hincreasing
  exact (hincreasing.1 _ (List.mem_map_of_mem hother)).ne'

end Numbered

theorem Listed.exists_job (hlisted : engine.Listed) {entry : Waiting} (hentry : entry ∈ engine.waiting) :
    ∃ job ∈ engine.unstarted, job.generation = engine.generation ∧ entry ∈ waitingEntry job.ticket job.goal := by
  rw [hlisted] at hentry
  obtain ⟨job, hjob, hmem⟩ := List.mem_flatMap.mp hentry
  obtain ⟨hunstarted, hcurrent⟩ := List.mem_filter.mp hjob
  exact ⟨job, hunstarted, of_decide_eq_true hcurrent, hmem⟩

theorem Listed.frame (hlisted : engine.Listed) (hunstarted : after.unstarted = engine.unstarted)
    (hgeneration : after.generation = engine.generation) (hwaiting : after.waiting = engine.waiting) : after.Listed := by
  rw [Listed, hwaiting, hlisted, due, due, hunstarted, hgeneration]

theorem Listed.ne_ticket (hlisted : engine.Listed) (hnumbered : engine.Numbered) (hjob : engine.phase.job? = some job)
    (hgoal : ∀ command stack, job.goal ≠ .execute command stack) :
    ∀ entry ∈ engine.waiting, entry.ticket ≠ job.ticket := by
  intro entry hentry hticket
  obtain ⟨other, hother, -, hmem⟩ := hlisted.exists_job hentry
  have hsame := (ticket_of_mem_waitingEntry hmem).symm.trans hticket
  obtain rfl := hnumbered.eq_of_ticket (mem_unanswered_of_job hjob) (engine.unstarted_suffix.subset hother) hsame
  cases hexecute : other.goal with
  | execute command stack => exact hgoal command stack hexecute
  | _ =>
    rw [hexecute] at hmem
    cases hmem

/-- When the worker deals with the start of a job, the entry of its ticket goes. -/
theorem Listed.attended (hlisted : engine.Listed) (hnumbered : engine.Numbered) {way : Option Walk}
    (hphase : engine.phase = .choosing job way) :
    Attended { engine with waiting := withoutTicket job.ticket engine.waiting } engine.advance := by
  have hjob : engine.phase.job? = some job := by rw [hphase]; rfl
  rw [advance_of_choosing hphase]
  by_cases hexecute : ∃ command stack, job.goal = .execute command stack
  · obtain ⟨command, stack, hgoal⟩ := hexecute
    simp only [choose, hgoal]
    exact attended_begin ..
  · have hgoal : ∀ command stack, job.goal ≠ .execute command stack :=
      fun command stack hgoal => hexecute ⟨command, stack, hgoal⟩
    rw [withoutTicket_of_absent (hlisted.ne_ticket hnumbered hjob hgoal)]
    exact attended_choose way hgoal

theorem Numbered.withoutTicket_due (hnumbered : engine.Numbered) {way : Option Walk}
    (hphase : engine.phase = .choosing job way) : withoutTicket job.ticket engine.due =
      entriesOf (engine.queue.filter fun job => job.generation = engine.generation) := by
  have hjob : engine.phase.job? = some job := by rw [hphase]; rfl
  have hqueue : withoutTicket job.ticket (entriesOf (engine.queue.filter fun job => job.generation = engine.generation)) =
      entriesOf (engine.queue.filter fun job => job.generation = engine.generation) := by
    refine withoutTicket_of_absent fun entry hentry => ?_
    obtain ⟨other, hother, hticket⟩ := ticket_of_mem_entriesOf hentry
    rw [hticket]
    exact hnumbered.ticket_ne_of_queue hjob (List.mem_of_mem_filter hother)
  cases way with
  | some walk =>
    have hunstarted : engine.unstarted = engine.queue := by rw [unstarted, hphase]
    rw [due, hunstarted, hqueue]
  | none =>
    have hunstarted : engine.unstarted = job :: engine.queue := by rw [unstarted, hphase]
    rw [due, hunstarted, List.filter_cons]
    split_ifs
    · rw [← List.singleton_append, entriesOf_append, withoutTicket, List.filter_append]
      have hown : withoutTicket job.ticket (entriesOf [job]) = [] := by
        rw [entriesOf, List.flatMap_singleton, withoutTicket_waitingEntry]
      exact (congrArg₂ (· ++ ·) hown hqueue).trans (List.nil_append _)
    · exact hqueue

private theorem Listed.advance (hlisted : engine.Listed) (hnumbered : engine.Numbered) : engine.advance.Listed := by
  cases hphase : engine.phase with
  | idle =>
    have hunstarted : engine.unstarted = engine.queue := by rw [unstarted, hphase]
    simp only [Engine.advance, hphase, take]
    split
    · exact hlisted
    · next job rest hqueue =>
      split_ifs with hcurrent
      · refine hlisted.frame ?_ rfl rfl
        rw [hunstarted, hqueue]
        rfl
      · -- a discarded job has no entry
        show engine.waiting = entriesOf (rest.filter fun job => job.generation = engine.generation)
        rw [hlisted, due, hunstarted, hqueue, List.filter_cons_of_neg (by simpa using hcurrent)]
  | choosing job way =>
    have hattended := hlisted.attended hnumbered hphase
    rw [Listed, hattended.waiting, due, hattended.unstarted, hattended.generation, hlisted]
    exact hnumbered.withoutTicket_due hphase
  | acting run =>
    simp only [Engine.advance, hphase]
    exact hlisted
  | resting job walk =>
    have hunstarted : engine.unstarted = engine.queue := by rw [unstarted, hphase]
    simp only [Engine.advance, hphase, resume]
    split_ifs
    · exact hlisted.frame hunstarted.symm rfl rfl
    · exact hlisted.frame hunstarted.symm rfl rfl

private theorem Listed.finish (hlisted : engine.Listed) (outcome : Outcome) : (engine.finish outcome).Listed := by
  cases hphase : engine.phase with
  | acting run =>
    have hunstarted : engine.unstarted = engine.queue := by rw [unstarted, hphase]
    rw [finish_eq hphase]
    have hconcluded := attended_conclude { engine with
      statuses := engine.statuses.set run.step.command.id
        (run.step.command.verdict run.step.operation.direction run.previous outcome).2 } run
      (outcome.settle run.step.command.text)
    exact hlisted.frame (hconcluded.unstarted.trans hunstarted.symm) hconcluded.generation hconcluded.waiting
  | _ =>
    simp only [Engine.finish, hphase]
    exact hlisted

/-! ### Submissions and clears -/

def enqueued (engine : Engine) : Move → List Waiting
  | .submit (.execute command) =>
    match (engine.submit (.execute command)).1 with
    | .ok ticket => [⟨ticket, command.text, command.scope, engine.stackFor command⟩]
    | .error _ => []
  | _ => []

/-- The entry that was made for a new ticket is taken back, and only it. -/
theorem withoutTicket_noted (hbelow : ∀ entry ∈ engine.waiting, entry.ticket < engine.nextTicket) (goal : Goal) :
    withoutTicket engine.nextTicket (engine.waiting ++ waitingEntry engine.nextTicket goal) = engine.waiting := by
  have habsent : withoutTicket engine.nextTicket engine.waiting = engine.waiting :=
    withoutTicket_of_absent fun entry hentry => (hbelow entry hentry).ne
  rw [withoutTicket, List.filter_append]
  exact (congrArg₂ (· ++ ·) habsent (withoutTicket_waitingEntry ..)).trans (List.append_nil _)

/-- A submission is refused and takes at most a number, or it is accepted and joins the queue. -/
theorem submit_cases (hbelow : ∀ entry ∈ engine.waiting, entry.ticket < engine.nextTicket) (request : Request) :
    (∃ error nextTicket, engine.submit request = (.error error, { engine with nextTicket })) ∨
      ∃ goal, engine.goalFor request = .ok goal ∧ engine.submit request =
        (.ok engine.nextTicket, engine.receive ⟨engine.nextTicket + 1,
          [⟨engine.nextTicket, engine.generation, goal⟩], waitingEntry engine.nextTicket goal⟩) := by
  by_cases hlistening : engine.isListening = true
  · rw [submit_eq hlistening]
    unfold replyTo arrivalOf
    split_ifs
    · cases engine.goalFor request with
      | error error => exact .inl ⟨error, engine.nextTicket + 1, by simp [receive, Except.map]⟩
      | ok goal => exact .inr ⟨goal, rfl, rfl⟩
    · exact .inl ⟨.shutDown, engine.nextTicket, by simp [receive]⟩
  · unfold submit
    split_ifs
    · dsimp only
      split
      · next error _ => exact .inl ⟨error, engine.nextTicket + 1, rfl⟩
      · next goal _ =>
        have hback := withoutTicket_noted hbelow goal
        exact .inl ⟨.shutDown, engine.nextTicket + 1, by simp [schedule, hlistening, hback]⟩
    · exact .inl ⟨.shutDown, engine.nextTicket, rfl⟩

theorem enqueued_of_refused {request : Request} {error : EngineError} (hreply : (engine.submit request).1 = .error error) :
    engine.enqueued (.submit request) = [] := by
  cases request with
  | execute command => rw [enqueued, hreply]
  | _ => rfl

theorem enqueued_of_accepted {request : Request} {goal : Goal} (hgoal : engine.goalFor request = .ok goal)
    (hreply : (engine.submit request).1 = .ok ticket) : engine.enqueued (.submit request) = waitingEntry ticket goal := by
  cases request with
  | execute command =>
    rw [enqueued, hreply, eq_of_checked hgoal]
    rfl
  | undo filter => rw [eq_of_checked hgoal]; rfl
  | redo filter => rw [eq_of_checked hgoal]; rfl
  | jump target => rw [← Except.ok.inj hgoal]; rfl

private theorem unstarted_receive (engine : Engine) (arrival : Arrival) :
    (engine.receive arrival).unstarted = engine.unstarted ++ arrival.jobs := by
  unfold unstarted
  rw [phase_receive]
  split <;> rfl

theorem Listed.below (hlisted : engine.Listed) (hnumbered : engine.Numbered) :
    ∀ entry ∈ engine.waiting, entry.ticket < engine.nextTicket := by
  intro entry hentry
  obtain ⟨job, hjob, -, hmem⟩ := hlisted.exists_job hentry
  rw [ticket_of_mem_waitingEntry hmem]
  exact hnumbered.lt_nextTicket hjob

theorem Listed.submit (hlisted : engine.Listed) (hnumbered : engine.Numbered) (request : Request) :
    (engine.submit request).2.Listed ∧
      (engine.submit request).2.waiting = engine.waiting ++ engine.enqueued (.submit request) := by
  rcases submit_cases (hlisted.below hnumbered) request with ⟨error, number, hsubmit⟩ | ⟨goal, hgoal, hsubmit⟩
  · rw [enqueued_of_refused (by rw [hsubmit]), hsubmit, List.append_nil]
    exact ⟨hlisted.frame rfl rfl rfl, rfl⟩
  · rw [enqueued_of_accepted hgoal (by rw [hsubmit]), hsubmit]
    refine ⟨?_, rfl⟩
    show engine.waiting ++ waitingEntry engine.nextTicket goal = entriesOf _
    rw [unstarted_receive, hlisted, due, List.filter_append, entriesOf_append]
    simp [receive, entriesOf]

private theorem Listed.clear (hnumbered : engine.Numbered) : engine.clear.Listed := by
  have hstale : engine.unstarted.filter (fun job => job.generation = engine.generation + 1) = [] := by
    refine List.filter_eq_nil_iff.mpr fun job hjob => ?_
    have hdated := hnumbered.dated job (engine.unstarted_suffix.subset hjob)
    simp only [decide_eq_true_eq]
    omega
  show [] = entriesOf (engine.unstarted.filter fun job => job.generation = engine.generation + 1)
  rw [hstale]
  rfl

theorem Listed.apply (hlisted : engine.Listed) (hnumbered : engine.Numbered) (move : Move) :
    (engine.apply move).Listed := by
  cases move with
  | submit request => exact (hlisted.submit hnumbered request).1
  | clear => exact Listed.clear hnumbered
  | setLimit limit => exact hlisted.frame rfl rfl rfl
  | activate stack => exact hlisted.frame rfl rfl rfl
  | route scope stack =>
    obtain ⟨routes, hroute⟩ := exists_route_eq engine scope stack
    show (engine.route scope stack).2.Listed
    rw [hroute]
    exact hlisted.frame rfl rfl rfl
  | shutDown => exact hlisted.frame rfl rfl rfl
  | advance => exact hlisted.advance hnumbered
  | report number event =>
    show (engine.report number event).Listed
    unfold report
    split
    · split_ifs
      · exact hlisted.frame rfl rfl rfl
      · exact hlisted
    · exact hlisted
  | finish outcome => exact hlisted.finish outcome

/-! ### What becomes of an entry -/

def launched (engine : Engine) (move : Move) : List Ticket := (engine.starts move).map fun run => run.job.ticket

def discarded (engine : Engine) : Move → List Ticket
  | .clear => engine.unstarted.map Job.ticket
  | _ => []

/-- Of some entries, those of commands that have been neither started nor discarded. -/
def remaining (entries : List Waiting) (started discarded : List Ticket) : List Waiting :=
  entries.filter fun entry => entry.ticket ∉ started ∧ entry.ticket ∉ discarded

theorem remaining_nil (entries : List Waiting) : remaining entries [] [] = entries := by simp [remaining]

private theorem remaining_single (entries : List Waiting) (ticket : Ticket) :
    remaining entries [ticket] [] = withoutTicket ticket entries := by
  refine List.filter_congr fun entry _ => ?_
  by_cases hsame : entry.ticket = ticket <;> simp [hsame]

private theorem remaining_of_absent {entries : List Waiting} {started : List Ticket}
    (habsent : ∀ entry ∈ entries, entry.ticket ∉ started) : remaining entries started [] = entries := by
  refine List.filter_eq_self.mpr fun entry hentry => ?_
  simpa using habsent entry hentry

theorem remaining_append (first second : List Waiting) (started discarded : List Ticket) :
    remaining (first ++ second) started discarded = remaining first started discarded ++ remaining second started discarded :=
  List.filter_append ..

theorem remaining_remaining (entries : List Waiting) (started more discarded further : List Ticket) :
    remaining (remaining entries started discarded) more further = remaining entries (started ++ more) (discarded ++ further) := by
  rw [remaining, remaining, List.filter_filter, remaining]
  refine List.filter_congr fun entry _ => ?_
  simp only [List.mem_append, ← Bool.decide_and, decide_eq_decide]
  tauto

def Accounts (engine : Engine) (move : Move) : Prop :=
  (engine.apply move).waiting =
    remaining engine.waiting (engine.launched move) (engine.discarded move) ++ engine.enqueued move

theorem accounts_aside (hwaiting : (engine.apply move).waiting = engine.waiting)
    (hrun : (engine.apply move).phase.run? = engine.phase.run?) (hdiscarded : engine.discarded move = [])
    (henqueued : engine.enqueued move = []) : engine.Accounts move := by
  rw [Accounts, hwaiting, launched, starts_eq_nil hrun, hdiscarded, henqueued, List.append_nil]
  exact (remaining_nil _).symm

/-- At the start of an execution its entry goes; at any other start there is none. -/
theorem Listed.accounts_choosing (hlisted : engine.Listed) (hnumbered : engine.Numbered) (hsteady : engine.Steady)
    {way : Option Walk} (hphase : engine.phase = .choosing job way) : engine.Accounts .advance := by
  have hjob : engine.phase.job? = some job := by rw [hphase]; rfl
  have hattended : engine.advance.waiting = withoutTicket job.ticket engine.waiting :=
    (hlisted.attended hnumbered hphase).waiting
  show engine.advance.waiting = remaining engine.waiting (engine.launched .advance) [] ++ []
  rw [hattended, List.append_nil]
  by_cases hexecute : ∃ command stack, job.goal = .execute command stack
  · obtain ⟨command, stack, hgoal⟩ := hexecute
    obtain ⟨run, rfl, -, -, hstepped⟩ := stepped_execute hphase hgoal
    have hstarts : engine.starts .advance = [run] := by
      unfold starts
      rw [hphase]
      show engine.advance.phase.run?.toList = [run]
      rw [hstepped.phase]
      rfl
    rw [launched, hstarts]
    exact (remaining_single ..).symm
  · have habsent := hlisted.ne_ticket hnumbered hjob fun command stack hgoal => hexecute ⟨command, stack, hgoal⟩
    rw [withoutTicket_of_absent habsent, remaining_of_absent]
    intro entry hentry hlaunched
    obtain ⟨run, hrun, hticket⟩ := List.mem_map.mp hlaunched
    have hsame := job_of_starts hsteady hrun
    rw [hjob] at hsame
    exact habsent entry hentry (by rw [Option.some.inj hsame, hticket])

private theorem Listed.accounts_clear (hlisted : engine.Listed) : engine.Accounts .clear := by
  show [] = remaining engine.waiting (engine.launched .clear) (engine.unstarted.map Job.ticket) ++ []
  rw [List.append_nil, remaining, eq_comm, List.filter_eq_nil_iff]
  intro entry hentry hremains
  obtain ⟨job, hjob, -, hmem⟩ := hlisted.exists_job hentry
  refine (of_decide_eq_true hremains).2 ?_
  rw [ticket_of_mem_waitingEntry hmem]
  exact List.mem_map_of_mem hjob

private theorem Listed.accounts_submit (hlisted : engine.Listed) (hnumbered : engine.Numbered) (request : Request) :
    engine.Accounts (.submit request) := by
  have hrun : (engine.apply (.submit request)).phase.run? = engine.phase.run? := by
    show (engine.submit request).2.phase.run? = _
    rw [(submit_frame engine request).2]
  show (engine.submit request).2.waiting = remaining engine.waiting (engine.launched (.submit request)) [] ++ _
  rw [(hlisted.submit hnumbered request).2, launched, starts_eq_nil hrun, List.map_nil, remaining_nil]

private theorem Listed.accounts_advance (hlisted : engine.Listed) (hnumbered : engine.Numbered)
    (hsteady : engine.Steady) : engine.Accounts .advance := by
  cases hphase : engine.phase with
  | choosing job way => exact hlisted.accounts_choosing hnumbered hsteady hphase
  | idle =>
    refine accounts_aside ?_ ?_ rfl rfl
    · show engine.advance.waiting = _
      simp only [Engine.advance, hphase, take]
      split
      · rfl
      · split_ifs <;> rfl
    · show engine.advance.phase.run? = _
      simp only [Engine.advance, hphase, take]
      split
      · rw [hphase]
      · split_ifs <;> rfl
  | acting run =>
    have hsame : engine.apply .advance = engine := by
      show engine.advance = engine
      simp only [Engine.advance, hphase]
    exact accounts_aside (by rw [hsame]) (by rw [hsame]) rfl rfl
  | resting job walk =>
    refine accounts_aside ?_ ?_ rfl rfl
    · show engine.advance.waiting = _
      simp only [Engine.advance, hphase, resume]
      split_ifs <;> rfl
    · show engine.advance.phase.run? = _
      simp only [Engine.advance, hphase, resume]
      split_ifs <;> rfl

private theorem accounts_report (engine : Engine) (number : Nat) (event : ProgressEvent) :
    engine.Accounts (.report number event) := by
  refine accounts_aside ?_ ?_ rfl rfl
  · show (engine.report number event).waiting = _
    unfold report
    split
    · split_ifs <;> rfl
    · rfl
  · show (engine.report number event).phase.run? = _
    rw [(report_frame engine number event).2]

private theorem accounts_finish (engine : Engine) (outcome : Outcome) : engine.Accounts (.finish outcome) := by
  cases hphase : engine.phase with
  | acting run =>
    have hwaiting : (engine.finish outcome).waiting = engine.waiting := by
      rw [finish_eq hphase]
      exact (attended_conclude _ run _).waiting
    have hstarts : engine.starts (.finish outcome) = [] := by
      unfold starts
      rw [hphase]
      rfl
    show (engine.finish outcome).waiting = remaining engine.waiting (engine.launched (.finish outcome)) [] ++ []
    rw [hwaiting, launched, hstarts, List.map_nil, remaining_nil, List.append_nil]
  | _ =>
    have hsame : engine.apply (.finish outcome) = engine := by
      show engine.finish outcome = engine
      simp only [Engine.finish, hphase]
    exact accounts_aside (by rw [hsame]) (by rw [hsame]) rfl rfl

/-- **What a move does to the waiting list**: what it starts or discards leaves the list, and what is accepted joins it
at its end. -/
theorem Listed.accounts (hlisted : engine.Listed) (hnumbered : engine.Numbered) (hsteady : engine.Steady) (move : Move) :
    engine.Accounts move := by
  cases move with
  | submit request => exact hlisted.accounts_submit hnumbered request
  | clear => exact hlisted.accounts_clear
  | setLimit limit => exact accounts_aside rfl rfl rfl rfl
  | activate stack => exact accounts_aside rfl rfl rfl rfl
  | route scope stack =>
    obtain ⟨routes, hroute⟩ := exists_route_eq engine scope stack
    have happly : engine.apply (.route scope stack) = { engine with routes } := hroute
    exact accounts_aside (by rw [happly]) (by rw [happly]) rfl rfl
  | shutDown => exact accounts_aside rfl rfl rfl rfl
  | advance => exact hlisted.accounts_advance hnumbered hsteady
  | report number event => exact accounts_report engine number event
  | finish outcome => exact accounts_finish engine outcome

/-! ### Whole runs -/

private theorem ticket_of_mem_enqueued (hbelow : ∀ entry ∈ engine.waiting, entry.ticket < engine.nextTicket)
    {entry : Waiting} (hentry : entry ∈ engine.enqueued move) : entry.ticket = engine.nextTicket := by
  cases move with
  | submit request =>
    rcases submit_cases hbelow request with ⟨error, number, hsubmit⟩ | ⟨goal, hgoal, hsubmit⟩
    · rw [enqueued_of_refused (by rw [hsubmit])] at hentry
      cases hentry
    · rw [enqueued_of_accepted hgoal (by rw [hsubmit])] at hentry
      exact ticket_of_mem_waitingEntry hentry
  | _ => cases hentry

/-- What is known of a run at its end, from the entries it has made and the tickets it has started and discarded. -/
structure Told (entries : List Waiting) (started discarded : List Ticket) (engine : Engine) : Prop
    extends engine.Steady, engine.Numbered where
  listed : engine.Listed
  waiting_eq : engine.waiting = remaining entries started discarded
  lt_of_started : ∀ ticket ∈ started, ticket < engine.nextTicket
  lt_of_discarded : ∀ ticket ∈ discarded, ticket < engine.nextTicket

namespace Told

variable {entries : List Waiting} {started discarded : List Ticket} (htold : Told entries started discarded engine)

include htold

private theorem lt_of_launched (hticket : ticket ∈ engine.launched move) : ticket < engine.nextTicket := by
  obtain ⟨run, hrun, rfl⟩ := List.mem_map.mp hticket
  have hjob := mem_unanswered_of_job (job_of_starts htold.toSteady hrun)
  exact htold.given run.job.ticket (List.mem_append_right _ (List.mem_map_of_mem hjob))

private theorem lt_of_dropped (hticket : ticket ∈ engine.discarded move) : ticket < engine.nextTicket := by
  cases move with
  | clear =>
    obtain ⟨job, hjob, rfl⟩ := List.mem_map.mp hticket
    exact htold.toNumbered.lt_nextTicket hjob
  | _ => cases hticket

theorem apply (move : Move) : Told (entries ++ engine.enqueued move) (started ++ engine.launched move)
    (discarded ++ engine.discarded move) (engine.apply move) := by
  have hpassage := engine.passage_apply move
  have hlater := hpassage.nextTicket_le
  have hstarted : ∀ ticket ∈ started ++ engine.launched move, ticket < engine.nextTicket := fun ticket hticket =>
    (List.mem_append.mp hticket).elim (htold.lt_of_started ticket) htold.lt_of_launched
  have hdiscarded : ∀ ticket ∈ discarded ++ engine.discarded move, ticket < engine.nextTicket := fun ticket hticket =>
    (List.mem_append.mp hticket).elim (htold.lt_of_discarded ticket) htold.lt_of_dropped
  constructor
  case toSteady => exact htold.toSteady.change (htold.toSteady.change_apply move)
  case toNumbered => exact htold.toNumbered.change hpassage
  case listed => exact htold.listed.apply htold.toNumbered move
  case waiting_eq =>
    -- the number of a new entry is larger than those of all that was started or discarded
    have hnew : remaining (engine.enqueued move) (started ++ engine.launched move)
        (discarded ++ engine.discarded move) = engine.enqueued move := by
      refine List.filter_eq_self.mpr fun entry hentry => ?_
      have hticket := ticket_of_mem_enqueued (htold.listed.below htold.toNumbered) hentry
      rw [decide_eq_true_eq, hticket]
      exact ⟨fun hmem => (hstarted _ hmem).false, fun hmem => (hdiscarded _ hmem).false⟩
    rw [htold.listed.accounts htold.toNumbered htold.toSteady move, htold.waiting_eq, remaining_remaining,
      remaining_append, hnew]
  case lt_of_started => exact fun ticket hticket => (hstarted ticket hticket).trans_le hlater
  case lt_of_discarded => exact fun ticket hticket => (hdiscarded ticket hticket).trans_le hlater

theorem applyAll (moves : List Move) : Told (entries ++ engine.along enqueued moves)
    (started ++ engine.along launched moves) (discarded ++ engine.along Engine.discarded moves)
    (engine.applyAll moves) := by
  induction moves generalizing engine entries started discarded with
  | nil =>
    simp only [along, List.append_nil]
    exact htold
  | cons move moves ih =>
    have hlater := ih (htold.apply move)
    simp only [List.append_assoc] at hlater
    exact hlater

private theorem abandon : Told entries started discarded engine.abandon :=
  { htold with
    toSteady := ⟨htold.sound, htold.mutating⟩
    toNumbered := ⟨htold.increasing, htold.given, htold.dated, htold.counted⟩ }

end Told

theorem Fresh.told (hfresh : start.Fresh) : Told [] [] [] start := by
  have hsteady := hfresh.steady
  have hnumbered := hfresh.numbered
  obtain ⟨registry, routes, defaultStack, limit, capacity, rfl⟩ := hfresh
  exact ⟨hsteady, hnumbered, rfl, rfl, List.forall_mem_nil _, List.forall_mem_nil _⟩

/-- What is said of the waiting list, where `entries` are those of all commands that were accepted, and the other two
lists are the tickets of the jobs that were started and of those that a clear discarded. -/
structure Truthful (entries : List Waiting) (started discarded : List Ticket) (engine : Engine) : Prop where
  /-- The list holds the accepted commands that have been neither started nor discarded. -/
  waiting : engine.waiting = remaining entries started discarded
  /-- They stand in the order of their tickets. -/
  ordered : (engine.waiting.map Waiting.ticket).Pairwise (· < ·)
  /-- The list agrees with the queue, in which the discarded jobs still stand. -/
  queued : engine.waiting = engine.due
  /-- The texts that are shown for a filter are those of the commands for the active stack that the filter selects. -/
  texts : ∀ filter : Scope, engine.queuedTexts filter =
    ((remaining entries started discarded).filter fun entry =>
      entry.stack = engine.history.active ∧ filter.selects entry.scope = true).map Waiting.text

private theorem Told.truthful {entries : List Waiting} {started discarded : List Ticket}
    (htold : Told entries started discarded engine) : Truthful entries started discarded engine where
  waiting := htold.waiting_eq
  ordered := by
    have hsublist : (engine.waiting.map Waiting.ticket).Sublist (engine.unanswered.map Job.ticket) := by
      rw [htold.listed]
      refine (entriesOf_sublist _).trans (List.Sublist.map _ ?_)
      exact List.filter_sublist.trans engine.unstarted_suffix.sublist
    exact htold.toNumbered.increasing_unanswered.sublist hsublist
  queued := htold.listed
  texts := by
    intro filter
    rw [queuedTexts, ← htold.waiting_eq]
    refine congrArg (List.map Waiting.text) (List.filter_congr fun entry _ => ?_)
    rw [Bool.decide_and, Bool.decide_eq_true, beq_eq_decide]

/-- **The waiting list tells the truth** in every state of every run, also when nobody takes jobs from the queue any
more. -/
theorem waiting_truthful (hfresh : start.Fresh) (before later : List Move) :
    Truthful (start.along enqueued before) (start.along launched before) (start.along discarded before)
        (start.applyAll before) ∧
      Truthful (start.along enqueued before ++ (start.applyAll before).abandon.along enqueued later)
        (start.along launched before ++ (start.applyAll before).abandon.along launched later)
        (start.along discarded before ++ (start.applyAll before).abandon.along discarded later)
        ((start.applyAll before).abandon.applyAll later) := by
  have htold : Told (start.along enqueued before) (start.along launched before) (start.along discarded before)
      (start.applyAll before) := hfresh.told.applyAll before
  exact ⟨htold.truthful, (htold.abandon.applyAll later).truthful⟩

def twoAreas : Engine := Engine.start ⟨["eu", "us"]⟩ [] sampleStack 0 16

/-- While a first command runs, one is submitted for each area, and a third one that names another stack. -/
def rush : List Move :=
  underway (.execute (sampleCommand 0)) ++
    [.submit (.execute ⟨1, "eu", .mutating, .areas 1#32, none⟩), .submit (.undo none),
      .submit (.execute ⟨2, "us", .mutating, .areas 2#32, none⟩),
      .submit (.execute ⟨3, "side", .query, .areas 1#32, some ⟨"side"⟩⟩)]

/-- Only the first two are bound for the active stack, and a clear discards all three. A fourth one, submitted when nobody
takes jobs any more, leaves no entry. -/
theorem waiting_truthful_rush :
    twoAreas.Fresh ∧
      Truthful (twoAreas.along enqueued rush) (twoAreas.along launched rush) (twoAreas.along discarded rush)
        (twoAreas.applyAll rush) ∧
      (twoAreas.applyAll rush).queuedTexts (.areas 1#32) = ["eu"] ∧
      (twoAreas.applyAll rush).queuedTexts .all = ["eu", "us"] ∧
      (twoAreas.applyAll (rush ++ [.activate (some ⟨"side"⟩)])).queuedTexts .all = ["side"] ∧
      (twoAreas.applyAll (rush ++ [.clear])).queuedTexts .all = [] ∧
      ((twoAreas.applyAll rush).abandon.applyAll
        [.submit (.execute (sampleCommand 4))]).queuedTexts .all = ["eu", "us"] := by
  have hfresh : twoAreas.Fresh := ⟨_, _, _, _, _, rfl⟩
  exact ⟨hfresh, (waiting_truthful hfresh rush []).1, rfl, rfl, rfl, rfl, rfl⟩

end Retrace.Engine
