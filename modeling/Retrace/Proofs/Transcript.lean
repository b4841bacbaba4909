import Retrace.Proofs.Docket
import Retrace.Proofs.Naming
import Retrace.Proofs.Serving
import Retrace.Shell.Program

/-!
# What a session writes

How a session stands to its docket is kept by every step that it takes (`Minuted`), whatever the jobs come to and however
the worker is paced. So a line does what its docket says (`performs_line`), and a session that has run to its end has
reported every job once, has counted every failure once, and owes nothing.
-/

namespace Retrace

/-! ### A session and its minutes -/

variable {origin session after : Session} {count : Nat} {docket : Docket} {minutes : List Minute} {inHand : List Pending}
  {job : Pending} {line : ScriptLine} {asked : List (Request × Except EngineError Ticket)}

/-- How a session stands to its docket and its minutes: it has submitted what it was asked for, it owes the jobs on the
docket, the engine knows these and those that the session has in hand, all jobs in the minutes are answered, and those
that failed have been counted. It has written the minutes, unless a write was refused and the session went on; such writes
count as failures, too. -/
structure Minuted (origin : Session) (count : Nat) (asked : List (Request × Except EngineError Ticket)) (docket : Docket)
    (minutes : List Minute) (inHand : List Pending) (session : Session) : Prop where
  run : ∃ moves, session.engine = origin.engine.applyAll moves ∧ origin.engine.along Engine.submissions moves = asked
  registry : session.engine.registry = origin.engine.registry
  reachable : session.engine.Reachable
  accepting : session.engine.isAccepting = true
  next : session.engine.nextTicket = docket.next
  owed : session.background = docket.owed
  known : ∀ job ∈ docket.owed ++ inHand, job.ticket ∈ session.engine.tickets
  statements : session.summary.statements = origin.summary.statements + count
  answered : ∀ job ∈ minutes.filterMap Minute.job?, ∃ result, session.engine.answer? job.ticket = some result
  refusals : origin.sink.refused <+: session.sink.refused
  unrefused : session.sink.writer.IsLasting → session.sink.refused = origin.sink.refused
  failures : session.summary.failures + origin.sink.refused.length = origin.summary.failures +
    (minutes.filterMap Minute.job?).countP (Pending.failed session.engine) + session.sink.refused.length
  lines : session.sink.refused = origin.sink.refused →
    session.sink.lines = origin.sink.lines ++ minutes.map (Minute.text session.engine)

theorem Pending.settled {engine later : Engine} {result : ActionResult} (hanswers : engine.answers <+: later.answers)
    (hanswer : engine.answer? job.ticket = some result) :
    job.failed later = job.failed engine ∧ job.report later = job.report engine := by
  have hlater := Engine.answer?_of_prefix hanswers hanswer
  simp only [failed, report, hanswer, hlater, and_self]

theorem Engine.submissions_eq_nil (engine : Engine) {moves : List Move}
    (hmoves : ∀ move ∈ moves, ∀ request, move ≠ .submit request) : engine.along submissions moves = [] := by
  induction moves generalizing engine with
  | nil => rfl
  | cons move moves ih =>
    obtain ⟨hmove, hrest⟩ := List.forall_mem_cons.mp hmoves
    rw [along, ih _ hrest, List.append_nil]
    cases move with
    | submit request => exact absurd rfl (hmove request)
    | _ => rfl

open Session

variable {pace : Pace} {failed : ShellError → Session → Prop}

namespace Minuted

theorem moved (hminuted : Minuted origin count asked docket minutes inHand session) {moves : List Move} {next : Ticket}
    {now : List (Request × Except EngineError Ticket)} (hengine : after.engine = session.engine.applyAll moves)
    (hnow : session.engine.along Engine.submissions moves = now)
    (hregistry : after.engine.registry = session.engine.registry) (hnext : after.engine.nextTicket = next)
    (haccepting : after.engine.isAccepting = session.engine.isAccepting) (howed : after.background = session.background)
    (hsummary : after.summary = session.summary) (hsink : after.sink = session.sink) :
    Minuted origin count (asked ++ now) ⟨next, docket.owed⟩ minutes inHand after := by
  -- answers stay, and with them all that was counted and written about answered jobs
  have hanswers : session.engine.answers <+: after.engine.answers :=
    hengine ▸ Engine.answers_extended_applyAll session.engine moves
  have hsettled : ∀ job ∈ minutes.filterMap Minute.job?,
      job.failed after.engine = job.failed session.engine ∧ job.report after.engine = job.report session.engine := by
    intro job hjob
    obtain ⟨result, hresult⟩ := hminuted.answered job hjob
    exact Pending.settled hanswers hresult
  constructor
  case run =>
    obtain ⟨before, hbefore, hasked⟩ := hminuted.run
    refine ⟨before ++ moves, ?_, ?_⟩
    · rw [hengine, hbefore, Engine.applyAll_append]
    · rw [Engine.along_append, hasked, ← hbefore, hnow]
  case registry => exact hregistry.trans hminuted.registry
  case reachable => exact hengine ▸ hminuted.reachable.applyAll moves
  case accepting => exact haccepting.trans hminuted.accepting
  case next => exact hnext
  case owed => exact howed.trans hminuted.owed
  case known =>
    intro job hjob
    rw [hengine]
    exact (Engine.tickets_prefix_applyAll session.engine moves).subset (hminuted.known job hjob)
  case statements => rw [hsummary, hminuted.statements]
  case answered =>
    intro job hjob
    obtain ⟨result, hresult⟩ := hminuted.answered job hjob
    exact ⟨result, Engine.answer?_of_prefix hanswers hresult⟩
  case failures =>
    have hcount : (minutes.filterMap Minute.job?).countP (Pending.failed after.engine) =
        (minutes.filterMap Minute.job?).countP (Pending.failed session.engine) :=
      List.countP_congr fun job hjob => by rw [(hsettled job hjob).1]
    rw [hsummary, hminuted.failures, hcount, hsink]
  case refusals => exact hsink ▸ hminuted.refusals
  case unrefused => exact hsink ▸ hminuted.unrefused
  case lines =>
    intro hnone
    rw [hsink] at hnone ⊢
    rw [hminuted.lines hnone]
    congr 1
    refine List.map_congr_left fun minute hminute => ?_
    cases minute with
    | remark text => rfl
    | report job => exact (hsettled job (List.mem_filterMap.mpr ⟨_, hminute, rfl⟩)).2.symm

theorem undisturbed (hminuted : Minuted origin count asked docket minutes inHand session) {moves : List Move}
    (hengine : after.engine = session.engine.applyAll moves) (hmoves : ∀ move ∈ moves, ∀ request, move ≠ .submit request)
    (hregistry : after.engine.registry = session.engine.registry)
    (hnext : after.engine.nextTicket = session.engine.nextTicket)
    (haccepting : after.engine.isAccepting = session.engine.isAccepting) (howed : after.background = session.background)
    (hsummary : after.summary = session.summary) (hsink : after.sink = session.sink) :
    Minuted origin count asked docket minutes inHand after := by
  have hlater := hminuted.moved hengine (Engine.submissions_eq_nil session.engine hmoves) hregistry
    (hnext.trans hminuted.next) haccepting howed hsummary hsink
  rwa [List.append_nil] at hlater

theorem turns (hminuted : Minuted origin count asked docket minutes inHand session) {number : Nat}
    (hstate : (after.engine, after.book) = Book.host.turns number (session.engine, session.book))
    (howed : after.background = session.background) (hsummary : after.summary = session.summary)
    (hsink : after.sink = session.sink) : Minuted origin count asked docket minutes inHand after := by
  obtain ⟨moves, hmoves, hengine⟩ := Host.turns_eq_applyAll Book.host number (session.engine, session.book)
  have hdesk := Host.sameDesk_turns Book.host number (session.engine, session.book)
  rw [← hstate] at hengine hdesk
  exact hminuted.undisturbed hengine hmoves hdesk.registry hdesk.number hdesk.accepting howed hsummary hsink

theorem remarked (hminuted : Minuted origin count asked docket minutes inHand session) (text : String) :
    Minuted origin count asked docket (minutes ++ [.remark text]) inHand
      (session.wrote text) where
  run := hminuted.run
  registry := hminuted.registry
  reachable := hminuted.reachable
  accepting := hminuted.accepting
  next := hminuted.next
  owed := hminuted.owed
  known := hminuted.known
  statements := hminuted.statements
  answered := by
    rw [List.filterMap_append, List.filterMap_cons_none rfl, List.filterMap_nil, List.append_nil]
    exact hminuted.answered
  failures := by
    rw [List.filterMap_append, List.filterMap_cons_none rfl, List.filterMap_nil, List.append_nil]
    exact hminuted.failures
  refusals := hminuted.refusals
  unrefused := hminuted.unrefused
  lines := by
    intro hnone
    have hlines := hminuted.lines hnone
    rw [List.map_append, ← List.append_assoc]
    exact congrArg (· ++ [text]) hlines

/-- A job in hand is reported, though its report may be among the writes that were refused meanwhile. -/
theorem reported (hminuted : Minuted origin count asked docket minutes (job :: inHand) session) {result : ActionResult}
    {lost : List String} (hanswer : session.engine.answer? job.ticket = some result)
    (hengine : after.engine = session.engine) (howed : after.background = session.background)
    (hstatements : after.summary.statements = session.summary.statements)
    (hfailures : after.summary.failures =
      session.summary.failures + [job].countP (Pending.failed session.engine) + lost.length)
    (hwriter : after.sink.writer = session.sink.writer) (hrefused : after.sink.refused = session.sink.refused ++ lost)
    (hlost : session.sink.writer.IsLasting → lost = [])
    (hlines : lost = [] → after.sink.lines = session.sink.lines ++ [job.report session.engine]) :
    Minuted origin count asked docket (minutes ++ [.report job]) inHand after := by
  have hjobs : (minutes ++ [Minute.report job]).filterMap Minute.job? = minutes.filterMap Minute.job? ++ [job] :=
    List.filterMap_append
  constructor
  case run => exact hengine ▸ hminuted.run
  case registry => exact hengine ▸ hminuted.registry
  case reachable => exact hengine ▸ hminuted.reachable
  case accepting => exact hengine ▸ hminuted.accepting
  case next => exact hengine ▸ hminuted.next
  case owed => exact howed.trans hminuted.owed
  case known =>
    intro other hother
    rw [hengine]
    refine hminuted.known other ?_
    rcases List.mem_append.mp hother with howed | hheld
    · exact List.mem_append_left _ howed
    · exact List.mem_append_right _ (List.mem_cons_of_mem _ hheld)
  case statements => exact hstatements.trans hminuted.statements
  case answered =>
    rw [hjobs, hengine]
    intro other hother
    rcases List.mem_append.mp hother with hearlier | hthis
    · exact hminuted.answered other hearlier
    · exact List.mem_singleton.mp hthis ▸ ⟨result, hanswer⟩
  case refusals => exact hrefused ▸ hminuted.refusals.trans (List.prefix_append _ lost)
  case unrefused =>
    intro hlasting
    rw [hwriter] at hlasting
    rw [hrefused, hlost hlasting, List.append_nil, hminuted.unrefused hlasting]
  case failures =>
    have hbefore := hminuted.failures
    rw [hfailures, hengine, hjobs, List.countP_append, hrefused, List.length_append]
    omega
  case lines =>
    intro hnone
    -- what has been refused since the origin is empty, and so are both of its parts
    obtain ⟨since, hsince⟩ := hminuted.refusals
    rw [hrefused, ← hsince, List.append_assoc, List.append_right_eq_self] at hnone
    obtain ⟨rfl, rfl⟩ := List.append_eq_nil_iff.mp hnone
    rw [hlines rfl, hminuted.lines (hsince ▸ List.append_nil _), hengine, List.map_append, List.append_assoc]
    rfl

theorem sort (hminuted : Minuted origin count asked docket minutes inHand session) {owed rest : List Pending}
    (hsame : owed ++ rest = docket.owed ++ inHand) :
    Minuted origin count asked ⟨docket.next, owed⟩ minutes rest { session with background := owed } where
  run := hminuted.run
  registry := hminuted.registry
  reachable := hminuted.reachable
  accepting := hminuted.accepting
  next := hminuted.next
  owed := rfl
  known := by
    rw [hsame]
    exact hminuted.known
  statements := hminuted.statements
  answered := hminuted.answered
  refusals := hminuted.refusals
  unrefused := hminuted.unrefused
  failures := hminuted.failures
  lines := hminuted.lines

/-- A request that is in order gives a job in hand, with the next ticket. -/
theorem submitted (hminuted : Minuted origin count asked docket minutes [] session) {request : Request} {goal : Goal}
    (hgoal : session.engine.goalFor request = .ok goal) (label : String) :
    (session.engine.submit request).1 = .ok docket.next ∧
      Minuted origin count (asked ++ [(request, .ok docket.next)]) ⟨docket.next + 1, docket.owed⟩ minutes
        [⟨label, docket.next⟩] { session with engine := (session.engine.submit request).2 } := by
  have hlistening := hminuted.reachable.listening
  have hreply : (session.engine.submit request).1 = .ok docket.next := by
    rw [Engine.submit_eq hlistening, Engine.replyTo, if_pos hminuted.accepting, hgoal, ← hminuted.next]
    rfl
  have hreceived : (session.engine.submit request).2 = session.engine.receive (session.engine.arrivalOf request) := by
    rw [Engine.submit_eq hlistening]
  have hnext : (session.engine.submit request).2.nextTicket = docket.next + 1 := by
    rw [hreceived, Engine.arrivalOf, if_pos hminuted.accepting, hgoal, ← hminuted.next]
    rfl
  have hnow : session.engine.along Engine.submissions [.submit request] = [(request, .ok docket.next)] := by
    rw [← hreply]
    rfl
  have hlater : Minuted origin count (asked ++ [(request, .ok docket.next)]) ⟨docket.next + 1, docket.owed⟩ minutes []
      { session with engine := (session.engine.submit request).2 } :=
    hminuted.moved rfl hnow (hreceived ▸ rfl) hnext (hreceived ▸ rfl) rfl rfl rfl
  obtain ⟨made, hticket, hunanswered⟩ := Engine.submit_accepted hlistening hreply
  refine ⟨hreply, { hlater with known := ?_ }⟩
  intro other hother
  rcases List.mem_append.mp hother with howed | hthis
  · exact hlater.known other (List.mem_append_left _ howed)
  · rw [List.mem_singleton.mp hthis, ← hticket, Engine.tickets, hunanswered]
    exact List.mem_append_right _ (List.mem_map_of_mem (List.mem_append_right _ List.mem_cons_self))

/-! ### Steps of a session -/

theorem leads_pause {done : Unit → Session → Prop} (hminuted : Minuted origin count asked docket minutes inHand session)
    (hdone : ∀ after, Minuted origin count asked docket minutes inHand after → done () after) :
    Leads (pause pace) session done failed := by
  obtain ⟨number, hnumber⟩ := Host.turnUntil_eq_turns Book.host Engine.isSettled (pace.turns session)
    (session.engine, session.book)
  exact leads_of_run (run_pause pace session) rfl (hdone _ (hminuted.turns hnumber rfl rfl rfl))

theorem leads_await {done : ActionResult → Session → Prop}
    (hminuted : Minuted origin count asked docket minutes (job :: inHand) session)
    (hdone : ∀ result after, after.engine.answer? job.ticket = some result →
      Minuted origin count asked docket minutes (job :: inHand) after → done result after) :
    Leads (await pace job.ticket) session done failed := by
  obtain ⟨number, hnumber⟩ := exists_turns_awaited pace job.ticket session
  have hticket := hminuted.known job (List.mem_append_right _ List.mem_cons_self)
  obtain ⟨result, hresult⟩ :=
    Session.answered_awaited hminuted.reachable.working hminuted.reachable.numbered hticket pace
  refine leads_of_run (run_await pace job.ticket session) rfl ?_
  rw [hresult]
  exact hdone result _ hresult (hminuted.turns hnumber rfl rfl rfl)

theorem leads_remark {text : String} {done : Unit → Session → Prop}
    (hminuted : Minuted origin count asked docket minutes inHand session)
    (hdone : ∀ after, Minuted origin count asked docket (minutes ++ [.remark text]) inHand after → done () after) :
    Leads (write text) session done failed :=
  leads_write fun _ => hdone _ (hminuted.remarked text)

theorem reported_value {value : Json} (hminuted : Minuted origin count asked docket minutes (job :: inHand) session)
    (hanswer : session.engine.answer? job.ticket = some (.ok value)) :
    Minuted origin count asked docket (minutes ++ [.report job]) inHand
      (session.wrote (successLine job.label value)) := by
  refine hminuted.reported hanswer rfl rfl rfl ?_ rfl (List.append_nil _).symm (fun _ => rfl) fun _ => ?_
  · simp [Pending.failed, hanswer, wrote]
  · simp [Pending.report, hanswer, wrote, Sink.take]

theorem leads_report {result : ActionResult} {done : Unit → Session → Prop}
    (hminuted : Minuted origin count asked docket minutes (job :: inHand) session)
    (hanswer : session.engine.answer? job.ticket = some result)
    (hdone : ∀ after, Minuted origin count asked docket (minutes ++ [.report job]) inHand after → done () after)
    (hfailed : ∀ error, result = .error error → failed (.engine error) session) :
    Leads (Session.report job.label result) session done failed := by
  unfold Session.report
  refine leads_bind (leads_expect ?_ hfailed)
  rintro value rfl
  exact leads_write fun _ => hdone _ (hminuted.reported_value hanswer)

theorem leads_failure {error : EngineError} {done : Unit → Session → Prop}
    (hminuted : Minuted origin count asked docket minutes (job :: inHand) session)
    (hanswer : session.engine.answer? job.ticket = some (.error error))
    (hdone : ∀ after, Minuted origin count asked docket (minutes ++ [.report job]) inHand after → done () after) :
    Leads (fail (.engine error)) session done failed := by
  have hcount : [job].countP (Pending.failed session.engine) = 1 := by simp [Pending.failed, hanswer]
  have hmessage : (ShellError.engine error).userMessage = error.message := rfl
  have hreport : job.report session.engine = "error: " ++ error.message := by simp only [Pending.report, hanswer]
  refine leads_fail fun _ => hdone _ ?_
  refine hminuted.reported hanswer rfl rfl rfl ?_ rfl (List.append_nil _).symm (fun _ => rfl) fun _ => ?_
  · rw [hcount]
    rfl
  · rw [hmessage, hreport]
    rfl

/-- The report of a value was refused, and that this was so has been written: the session counts it and goes on. -/
theorem reported_spoilt {value : Json} {reason : String}
    (hminuted : Minuted origin count asked docket minutes (job :: inHand) session)
    (hanswer : session.engine.answer? job.ticket = some (.ok value)) (hsome : session.sink.refusal? = some reason)
    (hnone : (session.sink.refuse reason).refusal? = none) (line : String) :
    Minuted origin count asked docket (minutes ++ [.report job]) inHand
      ((session.wasRefused reason).failedOnce.wrote line) := by
  refine @reported _ _ _ _ _ _ _ _ _ hminuted _ [reason] hanswer rfl rfl rfl ?_ rfl rfl ?_ nofun
  · simp [Pending.failed, hanswer, wrote, failedOnce, wasRefused]
  · exact fun hlasting => absurd hnone (Sink.refusal?_refuse hlasting hsome)

theorem leads_reportEach {done : Unit → Session → Prop}
    (hminuted : Minuted origin count asked docket minutes inHand session)
    (hdone : ∀ after, Minuted origin count asked docket (minutes ++ inHand.map .report) [] after → done () after) :
    Leads (reportEach pace inHand) session done failed := by
  induction inHand generalizing minutes session with
  | nil =>
    rw [List.map_nil, List.append_nil] at hdone
    exact leads_pure (hdone session hminuted)
  | cons first rest ih =>
    have hgo : ∀ between, Minuted origin count asked docket (minutes ++ [.report first]) rest between →
        Leads (reportEach pace rest) between done failed := by
      intro between hbetween
      refine ih hbetween fun after hafter => hdone after ?_
      rwa [List.append_assoc] at hafter
    unfold reportEach
    refine leads_bind (leads_await hminuted fun result between hanswer hbetween => ?_)
    refine leads_bind (leads_attempt_report ?_ ?_ ?_)
    · rintro value rfl
      exact hgo _ (hbetween.reported_value hanswer)
    · rintro value reason rfl hreason
      exact leads_bind (leads_fail fun hnext => hgo _ (hbetween.reported_spoilt hanswer hreason hnext _))
    · rintro error rfl
      exact leads_bind (leads_failure hbetween hanswer hgo)

theorem leads_collect {done : Unit → Session → Prop} (hminuted : Minuted origin count asked docket minutes [] session)
    (hdone : ∀ after, Minuted origin count asked ⟨docket.next, []⟩ (minutes ++ docket.owed.map .report) [] after →
      done () after) : Leads (collect pace) session done failed := by
  unfold collect
  apply leads_get
  have hopened : Minuted origin count asked ⟨docket.next, []⟩ minutes docket.owed { session with background := [] } :=
    hminuted.sort (List.append_nil _).symm
  rw [hminuted.owed]
  exact leads_bind (leads_of_run rfl rfl (leads_reportEach hopened hdone))

end Minuted

/-! ### Statements -/

def Through (origin : Session) (count : Nat) (asked : List (Request × Except EngineError Ticket)) (docket : Docket)
    (minutes : List Minute) (line : ScriptLine) (after : Session) : Prop :=
  ∃ now remarks, docket.Asks origin.engine.registry line now ∧ line.Remarks remarks ∧
    Minuted origin count (asked ++ now) (docket.after line)
      (minutes ++ (remarks.map .remark ++ (docket.reports line).map .report)) [] after

/-- A session after a line that has failed: the error is fatal, or it is that of the line's own job, which is still to be
counted and reported. -/
def Broken (origin : Session) (count : Nat) (asked : List (Request × Except EngineError Ticket)) (docket : Docket)
    (minutes : List Minute) (line : ScriptLine) (error : ShellError) (after : Session) : Prop :=
  error.isFatal = true ∨ ∃ now job cause, docket.Asks origin.engine.registry line now ∧ line.Remarks [] ∧
    docket.reports line = [job] ∧ error = .engine cause ∧ after.engine.answer? job.ticket = some (.error cause) ∧
    Minuted origin count (asked ++ now) (docket.after line) minutes [job] after

def Performs (origin : Session) (count : Nat) (asked : List (Request × Except EngineError Ticket)) (docket : Docket)
    (minutes : List Minute) (line : ScriptLine) (action : SessionM Unit) (session : Session) : Prop :=
  Leads action session (fun _ after => Through origin count asked docket minutes line after)
    (fun error after => Broken origin count asked docket minutes line error after)

theorem isFatal_of_scopeOfNames {registry : Registry} {names : List String} {error : EngineError}
    (hnames : registry.scopeOfNames names = .error error) : (ShellError.ofScopeLookup error).isFatal = true := by
  obtain ⟨-, front, name, back, -, -, -, rfl⟩ := Registry.scopeOfNames_eq_error_iff.mp hnames
  rfl

theorem ScriptLine.Remarks.eq_nil {remarks : List String} (hremarks : line.Remarks remarks)
    (hjob : docket.job? line = some job) (hforeground : line.inBackground = false) : remarks = [] := by
  unfold ScriptLine.Remarks at hremarks
  unfold Docket.job? at hjob
  cases hstatement : line.statement with
  | set scope account value | add scope account delta | get scope account =>
    rw [hstatement, hforeground] at hremarks
    exact hremarks
  | undo names | redo names | jump index =>
    rw [hstatement] at hremarks
    exact hremarks
  | _ =>
    rw [hstatement] at hjob
    cases hjob

namespace Minuted

theorem performs_settleJob (job : Pending) {remarks : List String} {errand : Errand} {book : Book}
    (hjob : docket.job? line = some job)
    (herrand : line.statement.errand? origin.engine.registry = .ok (some errand)) (hremarks : line.Remarks remarks)
    (hminuted : Minuted origin count (asked ++ [(errand.request book, .ok job.ticket)]) ⟨docket.next + 1, docket.owed⟩
      (minutes ++ remarks.map .remark) [job] session) :
    Performs origin count asked docket minutes line (settleJob pace line.inBackground job.label job.ticket) session := by
  have hasks : docket.Asks origin.engine.registry line [(errand.request book, .ok job.ticket)] := by
    rw [Docket.Asks, hjob]
    exact ⟨errand, book, herrand, rfl⟩
  obtain ⟨hafter, hreports⟩ := Docket.of_job? hjob
  unfold settleJob
  split_ifs with hbackground
  · rw [if_pos hbackground] at hafter hreports
    have hdeferred := @sort _ _ _ _ _ _ _ hminuted (docket.owed ++ [job]) [] (List.append_nil _)
    refine leads_of_run (run_defer _ session) rfl ⟨_, remarks, hasks, hremarks, ?_⟩
    rw [hafter, hreports, List.map_nil, List.append_nil, hminuted.owed]
    exact hdeferred
  · have hforeground : line.inBackground = false := Bool.eq_false_iff.mpr hbackground
    obtain rfl := hremarks.eq_nil hjob hforeground
    rw [if_neg hbackground] at hafter hreports
    rw [List.map_nil, List.append_nil] at hminuted
    refine leads_bind (leads_await hminuted fun result between hanswer hbetween => ?_)
    refine leads_report hbetween hanswer (fun last hlast => ?_) ?_
    · refine ⟨_, [], hasks, hremarks, ?_⟩
      rw [hafter, hreports]
      exact hlast
    · rintro error rfl
      exact .inr ⟨_, _, error, hasks, hremarks, hreports, rfl, hanswer, hafter ▸ hbetween⟩

theorem leads_errand {wrap : EngineError → ShellError} {goal : Goal} {done : Ticket → Session → Prop}
    (hminuted : Minuted origin count asked docket minutes [] session) (errand : Errand) (book : Book) (label : String)
    (hgoal : session.engine.goalFor (errand.request book) = .ok goal)
    (hdone : ∀ after, Minuted origin count (asked ++ [(errand.request book, .ok docket.next)])
      ⟨docket.next + 1, docket.owed⟩ minutes [⟨label, docket.next⟩] after → done docket.next after) :
    Leads (expect wrap (session.engine.submit (errand.request book)).1)
      { session with engine := (session.engine.submit (errand.request book)).2 } done failed := by
  obtain ⟨hreply, hsubmitted⟩ := hminuted.submitted hgoal label
  rw [hreply]
  exact leads_pure (hdone _ hsubmitted)

private theorem performs_submitPosting {posting : Posting}
    (hminuted : Minuted origin count asked docket minutes [] session)
    (hjob : docket.job? line = some ⟨posting.text, docket.next⟩)
    (herrand : line.statement.errand? origin.engine.registry =
      Statement.errand?.posting origin.engine.registry posting.account.scope posting)
    (hremarks : line.Remarks (if line.inBackground then ["queued " ++ posting.text] else [])) :
    Performs origin count asked docket minutes line (submitPosting pace line.inBackground posting) session := by
  unfold submitPosting
  refine leads_bind ?_
  unfold scopeNamed
  apply leads_get
  -- an unknown name ends the script, and the scope of a known one is accepted
  refine leads_expect (fun scope hscope => ?_) fun error hscope => .inl (isFatal_of_scopeOfNames hscope)
  have hasked : line.statement.errand? origin.engine.registry = .ok (some (.post posting scope)) := by
    rw [herrand, Statement.errand?.posting, ← hminuted.registry, hscope]
  apply leads_get
  refine leads_bind (leads_of_run rfl rfl ?_)
  refine leads_bind (leads_of_run (run_call _ _) rfl ?_)
  have hwritten : Minuted origin count asked docket minutes []
      { session with book := (session.book.write posting scope).1 } := { hminuted with }
  have hgoal : session.engine.goalFor (.execute (session.book.write posting scope).2) =
      .ok (.execute (session.book.write posting scope).2
        (session.engine.stackFor (session.book.write posting scope).2)) := by
    have hvalid : session.engine.registry.validate (session.book.write posting scope).2.scope = .ok () :=
      Registry.validate_of_scopeOfNames hscope
    rw [Engine.goalFor, hvalid]
    rfl
  have hsettle : ∀ remarks last, line.Remarks remarks →
      Minuted origin count (asked ++ [((Errand.post posting scope).request session.book, .ok docket.next)])
        ⟨docket.next + 1, docket.owed⟩ (minutes ++ remarks.map .remark) [⟨posting.text, docket.next⟩] last →
      Performs origin count asked docket minutes line (settleJob pace line.inBackground posting.text docket.next) last :=
    fun _ _ hremarks hlast => performs_settleJob ⟨posting.text, docket.next⟩ hjob hasked hremarks hlast
  refine leads_bind (leads_errand hwritten (.post posting scope) session.book posting.text hgoal fun after hafter => ?_)
  split_ifs with hbackground
  · rw [if_pos hbackground] at hremarks
    exact leads_bind (leads_remark hafter fun last hlast => hsettle _ last hremarks hlast)
  · rw [if_neg hbackground] at hremarks
    rw [← List.append_nil minutes] at hafter
    exact hsettle _ after hremarks hafter

theorem performs_submitMove {label : String} {names : Option String} {request : Option Scope → Request}
    (errand : Option Scope → Errand) (hminuted : Minuted origin count asked docket minutes [] session)
    (hjob : docket.job? line = some ⟨label, docket.next⟩) (hremarks : line.Remarks [])
    (hrequest : ∀ filter, (errand filter).request session.book = request filter)
    (hgoal : ∀ filter, session.engine.checkFilter filter = .ok () →
      ∃ goal, session.engine.goalFor (request filter) = .ok goal)
    (herrand : line.statement.errand? origin.engine.registry = match names with
      | none => .ok (some (errand none))
      | some names => Statement.errand?.among origin.engine.registry names fun filter => some (errand (some filter))) :
    Performs origin count asked docket minutes line (submitMove pace line.inBackground label names request) session := by
  have hlead : ∀ (filter : Option Scope) (wrap : EngineError → ShellError), session.engine.checkFilter filter = .ok () →
      line.statement.errand? origin.engine.registry = .ok (some (errand filter)) →
      Performs origin count asked docket minutes line
        (expect wrap (session.engine.submit (request filter)).1 >>= settleJob pace line.inBackground label)
        { session with engine := (session.engine.submit (request filter)).2 } := by
    intro filter wrap hfilter hasked
    obtain ⟨goal, hgoal⟩ := hgoal filter hfilter
    rw [← hrequest] at hgoal ⊢
    refine leads_bind (leads_errand hminuted (errand filter) session.book label hgoal fun after hafter => ?_)
    rw [← List.append_nil minutes] at hafter
    exact performs_settleJob ⟨label, docket.next⟩ hjob hasked hremarks hafter
  unfold submitMove
  cases names with
  | none => exact leads_bind (leads_of_run (run_call _ session) rfl (hlead none .engine rfl herrand))
  | some names =>
    refine leads_bind (leads_of_run (run_call _ session) rfl ?_)
    unfold Engine.submitIn
    cases hscope : session.engine.registry.scopeOfText names with
    | error error => exact leads_bind (leads_throw (.inl (isFatal_of_scopeOfNames hscope)))
    | ok filter =>
      refine hlead (some filter) .ofScopeLookup (Registry.validate_of_scopeOfNames hscope) (herrand.trans ?_)
      dsimp only
      rw [Statement.errand?.among, ← hminuted.registry, hscope]

private theorem performs_jump {index : Option UInt64}
    (hminuted : Minuted origin count asked docket minutes [] session) (hstatement : line.statement = .jump index) :
    Performs origin count asked docket minutes line (perform pace (.jump index) line.inBackground) session := by
  have hjob : docket.job? line = some ⟨jumpLabel index, docket.next⟩ := by
    rw [Docket.job?, hstatement]
    rfl
  have hasked : line.statement.errand? origin.engine.registry = .ok (some (.jump (index.map UInt64.toNat))) := by
    rw [hstatement]
    rfl
  have hremarks : line.Remarks [] := by
    rw [ScriptLine.Remarks, hstatement]
  refine leads_bind (leads_of_run (run_call _ session) rfl ?_)
  refine leads_bind (leads_errand hminuted (.jump (index.map UInt64.toNat)) session.book (jumpLabel index) rfl ?_)
  intro after hafter
  rw [← List.append_nil minutes] at hafter
  exact performs_settleJob ⟨jumpLabel index, docket.next⟩ hjob hasked hremarks hafter

/-! ### Lines without a job -/

theorem leads_writeAll {texts : List String} {done : Unit → Session → Prop}
    (hminuted : Minuted origin count asked docket minutes inHand session)
    (hdone : ∀ after, Minuted origin count asked docket (minutes ++ texts.map .remark) inHand after → done () after) :
    Leads (writeAll texts) session done failed := by
  induction texts generalizing minutes session with
  | nil =>
    rw [List.map_nil, List.append_nil] at hdone
    exact leads_pure (hdone session hminuted)
  | cons text rest ih =>
    unfold writeAll
    refine leads_bind (leads_remark hminuted fun between hbetween => ih hbetween fun after hafter => hdone after ?_)
    rwa [List.append_assoc] at hafter

theorem through (remarks : List String) (hlabel : line.statement.label? = none) (hwait : line.statement ≠ .wait)
    (hremarks : line.Remarks remarks)
    (hminuted : Minuted origin count asked docket (minutes ++ remarks.map .remark) [] session) :
    Through origin count asked docket minutes line session := by
  obtain ⟨hafter, hreports⟩ := docket.of_no_label hlabel hwait
  refine ⟨[], remarks, ?_, hremarks, ?_⟩
  · rw [Docket.Asks, Docket.job?, hlabel]
    rfl
  · rwa [hafter, hreports, List.map_nil, List.append_nil, List.append_nil]

private theorem leads_history (hminuted : Minuted origin count asked docket minutes [] session)
    (hstatement : line.statement = .history) :
    Leads (writeHistory pace) session (fun _ after => Through origin count asked docket minutes line after) failed := by
  have hlabel : line.statement.label? = none := hstatement ▸ rfl
  have hwait : line.statement ≠ .wait := hstatement ▸ nofun
  unfold writeHistory
  apply leads_get
  refine leads_bind (leads_pause hminuted fun first hfirst => ?_)
  apply leads_get
  refine leads_bind (leads_pause hfirst fun second hsecond => ?_)
  apply leads_get
  refine leads_bind (leads_remark hsecond fun third hthird => ?_)
  refine leads_bind (leads_pause hthird fun fourth hfourth => ?_)
  apply leads_get
  refine leads_writeAll hfourth fun after hafter => ?_
  rw [List.append_assoc, List.singleton_append, ← List.map_cons] at hafter
  refine through _ hlabel hwait ?_ hafter
  rw [ScriptLine.Remarks, hstatement]
  exact ⟨_, _, _, _, rfl⟩

theorem leads_call (move : Move) {done : Unit → Session → Prop} (hcall : move.isCall = true)
    (hminuted : Minuted origin count asked docket minutes inHand session)
    (hdone : ∀ after, Minuted origin count asked docket minutes inHand after → done () after) :
    Leads (call fun engine => ((), engine.apply move)) session done failed := by
  have hmoves : ∀ other ∈ [move], ∀ request, other ≠ .submit request := by
    rintro other hother request rfl
    obtain rfl := List.mem_singleton.mp hother
    cases hcall
  have hdesk : (session.engine.apply move).registry = session.engine.registry ∧
      (session.engine.apply move).nextTicket = session.engine.nextTicket ∧
      (session.engine.apply move).isAccepting = session.engine.isAccepting := by
    cases move with
    | clear | setLimit limit | activate stack => exact ⟨rfl, rfl, rfl⟩
    | _ => cases hcall
  refine leads_of_run (run_call _ session) rfl (hdone _ ?_)
  exact hminuted.undisturbed rfl hmoves hdesk.1 hdesk.2.1 hdesk.2.2 rfl rfl rfl

private theorem performs_queued {names : Option String}
    (hminuted : Minuted origin count asked docket minutes [] session) (hstatement : line.statement = .queued names) :
    Performs origin count asked docket minutes line (perform pace (.queued names) line.inBackground) session := by
  apply leads_get
  refine leads_bind (leads_expect (fun texts _ => ?_) (fun error herror => .inl ?_))
  · refine leads_remark hminuted fun after hafter => through [_] (hstatement ▸ rfl) (hstatement ▸ nofun) ?_ hafter
    rw [ScriptLine.Remarks, hstatement]
    exact ⟨texts, rfl⟩
  · unfold Engine.queuedTextsIn at herror
    cases hscope : session.engine.registry.scopeOfText (names.getD Scope.wildcardName) with
    | error cause =>
      rw [hscope] at herror
      obtain rfl := Except.error.inj herror
      exact isFatal_of_scopeOfNames hscope
    | ok filter =>
      rw [hscope] at herror
      cases herror

private theorem leads_wait (hminuted : Minuted origin count asked docket minutes [] session)
    (hstatement : line.statement = .wait) :
    Leads (collect pace) session (fun _ after => Through origin count asked docket minutes line after) failed := by
  obtain ⟨hafter, hreports⟩ := docket.of_wait hstatement
  refine leads_collect hminuted fun after hlater => ⟨[], [], ?_, ?_, ?_⟩
  · rw [Docket.Asks, Docket.job?, hstatement]
    rfl
  · rw [ScriptLine.Remarks, hstatement]
  · rwa [hafter, hreports, List.append_nil]

/-- **A line does what its docket says**, whatever the worker does meanwhile. -/
theorem performs_line (hminuted : Minuted origin count asked docket minutes [] session) :
    Performs origin count asked docket minutes line (perform pace line.statement line.inBackground) session := by
  have hposting : ∀ posting : Posting, line.statement.label? = some posting.text →
      line.statement.errand? origin.engine.registry =
        Statement.errand?.posting origin.engine.registry posting.account.scope posting →
      line.Remarks (if line.inBackground then ["queued " ++ posting.text] else []) →
      Performs origin count asked docket minutes line (submitPosting pace line.inBackground posting) session := by
    intro posting hlabel herrand hremarks
    exact performs_submitPosting hminuted (by rw [Docket.job?, hlabel, Option.map_some]) herrand hremarks
  have hremarked : ∀ remarks after, line.statement.label? = none → line.statement ≠ .wait → line.Remarks remarks →
      Minuted origin count asked docket (minutes ++ remarks.map .remark) [] after →
      Through origin count asked docket minutes line after :=
    fun remarks _ hlabel hwait hremarks hafter => through remarks hlabel hwait hremarks hafter
  unfold ScriptLine.Remarks at hposting hremarked
  cases hstatement : line.statement with
  | set scope account value =>
    rw [hstatement] at hposting
    exact hposting (.set ⟨scope, account⟩ value) rfl rfl rfl
  | add scope account delta =>
    rw [hstatement] at hposting
    exact hposting (.add ⟨scope, account⟩ delta) rfl rfl rfl
  | get scope account =>
    rw [hstatement] at hposting
    exact hposting (.get ⟨scope, account⟩) rfl rfl rfl
  | undo names =>
    refine performs_submitMove .undo hminuted (by rw [Docket.job?, hstatement]; rfl)
      (by rw [ScriptLine.Remarks, hstatement]) (fun _ => rfl) (fun filter hfilter => ⟨.undo filter, ?_⟩) ?_
    · rw [Engine.goalFor, hfilter]
      rfl
    · rw [hstatement]
      cases names <;> rfl
  | redo names =>
    refine performs_submitMove .redo hminuted (by rw [Docket.job?, hstatement]; rfl)
      (by rw [ScriptLine.Remarks, hstatement]) (fun _ => rfl) (fun filter hfilter => ⟨.redo filter, ?_⟩) ?_
    · rw [Engine.goalFor, hfilter]
      rfl
    · rw [hstatement]
      cases names <;> rfl
  | jump index => exact performs_jump hminuted hstatement
  | stack id =>
    rw [hstatement] at hremarked
    refine leads_bind (leads_call (.activate (id.map StackId.mk)) rfl hminuted ?_)
    intro called hcalled
    apply leads_get
    exact leads_remark hcalled fun after hafter => hremarked [_] after rfl (by simp) ⟨_, rfl⟩ hafter
  | limit number =>
    rw [hstatement] at hremarked
    refine leads_bind (leads_call (.setLimit number.toNat) rfl hminuted ?_)
    intro called hcalled
    exact leads_remark hcalled fun after hafter => hremarked [_] after rfl (by simp) rfl hafter
  | clear =>
    rw [hstatement] at hremarked
    refine leads_bind (leads_call .clear rfl hminuted ?_)
    intro called hcalled
    exact leads_remark hcalled fun after hafter => hremarked [_] after rfl (by simp) rfl hafter
  | history => exact leads_history hminuted hstatement
  | queued names => exact performs_queued hminuted hstatement
  | wait => exact leads_wait hminuted hstatement
  | balances =>
    rw [hstatement] at hremarked
    apply leads_get
    exact leads_writeAll hminuted fun after hafter => hremarked _ after rfl (by simp) ⟨_, rfl⟩ hafter
  | scopes =>
    rw [hstatement] at hremarked
    apply leads_get
    exact leads_remark hminuted fun after hafter => hremarked [_] after rfl (by simp) ⟨_, rfl⟩ hafter

/-! ### Scripts -/

private theorem leads_runLine (hminuted : Minuted origin count asked docket minutes [] session) :
    Leads (runLine pace line) session (fun _ after => Through origin (count + 1) asked docket minutes line after)
      (fun _ _ => True) := by
  have hcounted : Minuted origin (count + 1) asked docket minutes []
      { session with summary := { session.summary with statements := session.summary.statements + 1 } } :=
    { hminuted with statements := congrArg (· + 1) hminuted.statements }
  unfold runLine
  refine leads_bind (leads_of_run (run_count session) rfl ?_)
  refine leads_bind (leads_pause hcounted fun between hbetween => ?_)
  refine leads_bind (leads_attempt (leads_mono (performs_line hbetween) (fun _ after hafter => leads_pure hafter)
    (fun error after hafter => ?_)) fun error after hsame hbreaks => ?_)
  dsimp only
  split_ifs with hfatal
  · exact leads_throw trivial
  · -- an error that is not fatal is that of the line's own job
    obtain hfailed | ⟨now, job, cause, hasks, hremarks, hreports, rfl, hanswer, hlater⟩ := hafter
    · exact absurd hfailed hfatal
    · refine leads_failure hlater hanswer fun last hlast => ⟨now, [], hasks, hremarks, ?_⟩
      rwa [hreports]
  -- and one of the writer is fatal
  dsimp only
  rw [if_pos hbreaks.isFatal]
  exact leads_break (hsame ▸ hbreaks)

private theorem leads_runLines {lines : List ScriptLine}
    (hminuted : Minuted origin count asked docket minutes [] session) : Leads (runLines pace lines) session
      (fun _ after => ∃ later more,
        docket.Followed origin.engine.registry lines later (more ++ (docket.afterAll lines).owed.map .report) ∧
        Minuted origin (count + lines.length) (asked ++ later) (docket.afterAll lines) (minutes ++ more) [] after)
      (fun _ _ => True) := by
  induction lines generalizing count asked docket minutes session with
  | nil =>
    refine leads_pure ⟨[], [], .done docket, ?_⟩
    rwa [List.append_nil, List.append_nil]
  | cons line rest ih =>
    unfold runLines
    refine leads_bind (leads_mono (leads_runLine hminuted) ?_ fun _ _ hfailed => hfailed)
    rintro - between ⟨now, remarks, hasks, hremarks, hbetween⟩
    -- the rest of the script begins with the docket that the first line leaves
    refine leads_mono (ih hbetween) ?_ fun _ _ hfailed => hfailed
    rintro - after ⟨later, more, hfollowed, hafter⟩
    refine ⟨now ++ later, remarks.map .remark ++ (docket.reports line).map .report ++ more, ?_, ?_⟩
    · rw [List.append_assoc _ more]
      exact .line docket hasks hremarks hfollowed
    · rw [List.append_assoc, List.append_assoc, Nat.add_assoc, Nat.add_comm 1] at hafter
      exact hafter

private theorem leads_runScript {lines : List ScriptLine}
    (hminuted : Minuted origin count asked docket minutes [] session) : Leads (runScript pace lines) session
      (fun result after => after.summary = result ∧
        ∃ later more, docket.Followed origin.engine.registry lines later more ∧
          Minuted origin (count + lines.length) (asked ++ later) ⟨(docket.afterAll lines).next, []⟩ (minutes ++ more) []
            after)
      (fun _ _ => True) := by
  unfold runScript
  refine leads_bind (leads_mono (leads_runLines hminuted) ?_ fun _ _ hfailed => hfailed)
  rintro - between ⟨later, more, hfollowed, hbetween⟩
  refine leads_bind (leads_collect hbetween fun after hafter => ?_)
  apply leads_get
  rw [List.append_assoc] at hafter
  exact leads_pure ⟨rfl, later, _, hfollowed, hafter⟩

end Minuted

/-! ### Accounts -/

namespace Session

/-- How the accounts of a session stand when it has run the lines of a script to their end. -/
structure Accounts (pace : Pace) (lines : List ScriptLine) (before : Session)
    (asked : List (Request × Except EngineError Ticket)) (minutes : List Minute) (after : Session) (result : Summary) :
    Prop where
  /-- The summary is that of the session. -/
  summary : after.summary = result
  /-- Every line is counted as a statement. -/
  statements : result.statements = before.summary.statements + lines.length
  /-- The failures are the lines whose own job has ended in an error. -/
  failures : result.failures =
    before.summary.failures + (before.docket.own lines).countP (Option.any (Pending.failed after.engine))
  /-- There are no more failures than lines. -/
  bounded : result.failures ≤ before.summary.failures + lines.length
  /-- What was submitted to the engine, and with what reply. -/
  submitted : ∃ moves, after.engine = before.engine.applyAll moves ∧
    before.engine.along Engine.submissions moves = asked
  /-- What was written. -/
  written : after.sink.lines = before.sink.lines ++ minutes.map (Minute.text after.engine)
  /-- Each line has submitted its own job and no other, and what is written stands where the docket wants it. -/
  followed : before.docket.Followed before.engine.registry lines asked minutes
  /-- No two lines have the same job. -/
  tickets : (before.docket.jobs lines).map Pending.ticket =
    List.range' before.engine.nextTicket (before.docket.jobs lines).length
  /-- What is reported are the lines' own jobs, each exactly once. -/
  reports : (minutes.filterMap Minute.job?).Perm (before.docket.jobs lines)
  /-- Every job has ended with a value or in an error, and its report says so. -/
  outcomes : ∀ job ∈ before.docket.jobs lines,
    (∃ value, after.engine.answer? job.ticket = some (.ok value) ∧
      job.report after.engine = successLine job.label value) ∨
    ∃ error, after.engine.answer? job.ticket = some (.error error) ∧ job.report after.engine = "error: " ++ error.message
  /-- There are as many reports of errors as lines whose job has failed, -/
  errors : (minutes.filterMap Minute.job?).countP (Pending.failed after.engine) =
    (before.docket.own lines).countP (Option.any (Pending.failed after.engine))
  /-- and as many of values as lines whose job has succeeded. -/
  values : (minutes.filterMap Minute.job?).countP (Pending.succeeded after.engine) =
    (before.docket.own lines).countP (Option.any (Pending.succeeded after.engine))
  /-- Nothing is left to be reported. -/
  settled : after.background = []
  /-- A program that ends with this summary tells from its exit code whether a statement has failed, -/
  exit : ∀ output, (Program.exitOf ⟨output, .ok result⟩).code = if result.failures = 0 then 0 else 2
  /-- and the program that reads this script ends so. -/
  program : ∀ (engine : Engine) (isQuiet : Bool) (text : String), before = start engine (.upTo none) → pace = Pace.eager →
    Script.parse text = .ok lines → (Program.runText engine isQuiet (.ok text)).result = .ok result

section Run

variable {session : Session} {lines : List ScriptLine} {result : Summary} {last : Session}
  (hreachable : session.engine.Reachable) (haccepting : session.engine.isAccepting = true)
  (hnothing : session.background = []) (hrun : run pace lines session = (.ok result, last))

include hreachable haccepting hnothing hrun

end Run

end Session

end Retrace
