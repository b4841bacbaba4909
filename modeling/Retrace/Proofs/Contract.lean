import Mathlib.Tactic.SplitIfs
import Retrace.Session.Run

/-!
# Reasoning about sessions

What a session does is described by what holds when it ends, in either of the two ways in which it can end. An
error of its writer is a third way, after which nothing more is asked: no statement can go on from there.
-/

namespace Retrace

namespace Writer

/-- A writer that takes nothing more once it has refused a line. -/
def IsLasting (writer : Writer) : Prop :=
  ∀ number later, number ≤ later → writer.refusal? later = none → writer.refusal? number = none

/-- The errors in which a write can end. -/
def Breaks (writer : Writer) (error : ShellError) : Prop :=
  ∃ number reason, writer.refusal? number = some reason ∧ error = .inputOutput reason

variable {writer : Writer} {error : ShellError}

theorem isLasting_upTo (capacity : Option Nat) : (upTo capacity).IsLasting := by
  intro number later hle hlater
  cases capacity with
  | none => rfl
  | some capacity =>
    simp only [upTo, Option.any_some, decide_eq_true_eq, ite_eq_right_iff, reduceCtorEq, imp_false] at hlater ⊢
    omega

theorem breaks_upTo {capacity : Option Nat} (hbreaks : (upTo capacity).Breaks error) :
    capacity ≠ none ∧ error = .inputOutput closed := by
  obtain ⟨number, reason, hreason, rfl⟩ := hbreaks
  cases capacity with
  | none => cases hreason
  | some capacity =>
    unfold upTo at hreason
    dsimp only at hreason
    split_ifs at hreason
    exact ⟨nofun, congrArg _ (Option.some.inj hreason).symm⟩

theorem Breaks.isFatal (hbreaks : writer.Breaks error) : error.isFatal = true := by
  obtain ⟨number, reason, -, rfl⟩ := hbreaks
  rfl

end Writer

namespace Session

variable {α β : Type} {session : Session}

/-! ### How the steps of a session run -/

theorem run_bind (first : SessionM α) (next : α → SessionM β) (session : Session) :
    (first >>= next).run session =
      match first.run session with
      | (.ok value, between) => (next value).run between
      | (.error error, between) => (.error error, between) := by
  simp only [ExceptT.run, bind, ExceptT.bind, ExceptT.mk, StateT.bind]
  rcases first session with ⟨reply, between⟩
  cases reply <;> rfl

theorem run_get (next : Session → SessionM β) (session : Session) :
    (get >>= next).run session = (next session).run session :=
  rfl

private theorem run_tryCatch (action : SessionM α) (handle : ShellError → SessionM α) (session : Session) :
    (tryCatch action handle).run session =
      match action.run session with
      | (.ok value, after) => (.ok value, after)
      | (.error error, after) => (handle error).run after := by
  simp only [ExceptT.run, tryCatch, tryCatchThe, MonadExceptOf.tryCatch, ExceptT.tryCatch, ExceptT.mk, bind,
    StateT.bind]
  rcases action session with ⟨reply, after⟩
  cases reply <;> rfl

theorem run_attempt (action : SessionM Unit) (session : Session) :
    (attempt action).run session =
      match action.run session with
      | (.ok (), after) => (.ok none, after)
      | (.error error, after) => (.ok (some error), after) := by
  unfold attempt
  refine (run_tryCatch _ _ _).trans ?_
  rw [run_bind]
  rcases (action.run session : Except ShellError Unit × Session) with ⟨error | value, after⟩ <;> rfl

theorem run_call (make : Engine → α × Engine) (session : Session) :
    (call make).run session = (.ok (make session.engine).1, { session with engine := (make session.engine).2 }) :=
  rfl

theorem run_pause (pace : Pace) (session : Session) :
    (pause pace).run session =
      (.ok (), { session.withWorker (Book.host.turnUntil Engine.isSettled (pace.turns session)
        (session.engine, session.book)) with pauses := session.pauses + 1 }) :=
  rfl

def awaited (pace : Pace) (ticket : Ticket) (session : Session) : Session :=
  ((pause pace).run (session.withWorker (Book.host.await ticket session.engine session.book))).2

theorem run_await (pace : Pace) (ticket : Ticket) (session : Session) :
    (await pace ticket).run session =
      (.ok (((session.awaited pace ticket).engine.answer? ticket).getD (.error .cancelled)),
        session.awaited pace ticket) :=
  rfl

theorem run_defer (pending : Pending) (session : Session) :
    (defer pending).run session = (.ok (), { session with background := session.background ++ [pending] }) :=
  rfl

theorem run_count (session : Session) :
    count.run session =
      (.ok (), { session with summary := { session.summary with statements := session.summary.statements + 1 } }) :=
  rfl

/-! ### What holds at the end -/

/-- What holds when an action of a session has ended, unless it ended in an error of the writer. The writer is the
same throughout. -/
def Leads (action : SessionM α) (session : Session) (done : α → Session → Prop)
    (failed : ShellError → Session → Prop) : Prop :=
  (action.run session).2.sink.writer = session.sink.writer ∧
    match action.run session with
    | (.ok value, after) => done value after
    | (.error error, after) => session.sink.writer.Breaks error ∨ failed error after

variable {done : β → Session → Prop} {failed : ShellError → Session → Prop}

theorem leads_of_run {action : SessionM β} {value : β} {after : Session}
    (hrun : action.run session = (.ok value, after)) (hwriter : after.sink.writer = session.sink.writer)
    (hdone : done value after) : Leads action session done failed := by
  unfold Leads
  rw [hrun]
  exact ⟨hwriter, hdone⟩

theorem leads_pure {value : β} (hdone : done value session) : Leads (pure value) session done failed := ⟨rfl, hdone⟩

theorem leads_mono {action : SessionM β} {weaker : β → Session → Prop} {worse : ShellError → Session → Prop}
    (haction : Leads action session done failed) (hdone : ∀ value after, done value after → weaker value after)
    (hfailed : ∀ error after, failed error after → worse error after) : Leads action session weaker worse := by
  unfold Leads at haction ⊢
  refine ⟨haction.1, ?_⟩
  rcases hrun : (action.run session : Except ShellError β × Session) with ⟨error | value, after⟩
  · rw [hrun] at haction
    exact haction.2.imp_right (hfailed error after)
  · rw [hrun] at haction
    exact hdone value after haction.2

theorem leads_throw {error : ShellError} (hfailed : failed error session) :
    Leads (throw error : SessionM β) session done failed := ⟨rfl, .inr hfailed⟩

theorem leads_break {error : ShellError} (hbreaks : session.sink.writer.Breaks error) :
    Leads (throw error : SessionM β) session done failed := ⟨rfl, .inl hbreaks⟩

theorem leads_bind {first : SessionM α} {next : α → SessionM β}
    (hfirst : Leads first session (fun value between => Leads (next value) between done failed) failed) :
    Leads (first >>= next) session done failed := by
  unfold Leads at hfirst ⊢
  rw [run_bind]
  rcases hrun : (first.run session : Except ShellError α × Session) with ⟨error | value, between⟩
  · rw [hrun] at hfirst
    exact hfirst
  · rw [hrun] at hfirst
    obtain ⟨hsame, hlater, hrest⟩ := hfirst
    exact ⟨hlater.trans hsame, hsame ▸ hrest⟩

theorem leads_get {next : Session → SessionM β} (hnext : Leads (next session) session done failed) :
    Leads (get >>= next) session done failed :=
  leads_bind ⟨rfl, hnext⟩

theorem leads_expect {ε : Type} {wrap : ε → ShellError} {attempted : Except ε β}
    (hok : ∀ value, attempted = .ok value → done value session)
    (herror : ∀ error, attempted = .error error → failed (wrap error) session) :
    Leads (expect wrap attempted) session done failed := by
  cases attempted with
  | ok value => exact leads_pure (hok value rfl)
  | error error => exact leads_throw (herror error rfl)

/-- What a session has written when the next write is taken. -/
def wrote (session : Session) (line : String) : Session := { session with sink := session.sink.take line }

def wasRefused (session : Session) (reason : String) : Session :=
  { session with sink := session.sink.refuse reason }

theorem run_write_of_none {line : String} (hnone : session.sink.refusal? = none) :
    (write line).run session = (.ok (), session.wrote line) := by
  unfold write
  rw [run_get, hnone]
  rfl

theorem run_write_of_some {line reason : String} (hsome : session.sink.refusal? = some reason) :
    (write line).run session = (.error (.inputOutput reason), session.wasRefused reason) := by
  unfold write
  rw [run_get, hsome]
  rfl

private theorem breaks_of_refusal {reason : String} (hsome : session.sink.refusal? = some reason) :
    session.sink.writer.Breaks (.inputOutput reason) :=
  ⟨_, reason, hsome, rfl⟩

theorem leads_write {line : String} {done : Unit → Session → Prop}
    (hdone : session.sink.refusal? = none → done () (session.wrote line)) :
    Leads (write line) session done failed := by
  cases hnext : session.sink.refusal? with
  | none => exact leads_of_run (run_write_of_none hnext) rfl (hdone hnext)
  | some reason =>
    unfold Leads
    rw [run_write_of_some hnext]
    exact ⟨rfl, .inl (breaks_of_refusal hnext)⟩

/-- An error of the writer is caught like any other. -/
theorem leads_attempt {action : SessionM Unit} {done : Option ShellError → Session → Prop}
    (haction : Leads action session (fun _ after => done none after) (fun error after => done (some error) after))
    (hbroken : ∀ error after, after.sink.writer = session.sink.writer → session.sink.writer.Breaks error →
      done (some error) after) :
    Leads (attempt action) session done failed := by
  unfold Leads at haction ⊢
  rw [run_attempt]
  rcases hrun : (action.run session : Except ShellError Unit × Session) with ⟨error | value, after⟩
  · rw [hrun] at haction
    obtain ⟨hsame, hbreaks | hfailed⟩ := haction
    · exact ⟨hsame, hbroken error after hsame hbreaks⟩
    · exact ⟨hsame, hfailed⟩
  · rw [hrun] at haction
    exact haction

def failedOnce (session : Session) : Session :=
  { session with summary := { session.summary with failures := session.summary.failures + 1 } }

theorem run_countFailure (session : Session) :
    (modify fun session => { session with
      summary := { session.summary with failures := session.summary.failures + 1 } } : SessionM Unit).run session =
        (.ok (), session.failedOnce) :=
  rfl

theorem leads_fail {error : ShellError} {done : Unit → Session → Prop}
    (hdone : session.sink.refusal? = none → done () (session.failedOnce.wrote ("error: " ++ error.userMessage))) :
    Leads (fail error) session done failed := by
  unfold fail
  refine leads_bind (leads_of_run (run_countFailure session) rfl ?_)
  exact leads_write hdone

/-- Reporting a job ends in one of three ways: its line is written, its line is refused, or the job has failed. -/
theorem leads_attempt_report {label : String} {result : ActionResult} {done : Option ShellError → Session → Prop}
    (hvalue : ∀ value, result = .ok value → done none (session.wrote (successLine label value)))
    (hrefused : ∀ value reason, result = .ok value → session.sink.refusal? = some reason →
      done (some (.inputOutput reason)) (session.wasRefused reason))
    (herror : ∀ error, result = .error error → done (some (.engine error)) session) :
    Leads (attempt (report label result)) session done failed := by
  unfold Leads
  rw [run_attempt]
  cases result with
  | error error => exact ⟨rfl, herror error rfl⟩
  | ok value =>
    have hreport : (report label (.ok value)).run session = (write (successLine label value)).run session := rfl
    rw [hreport]
    cases hnext : session.sink.refusal? with
    | none =>
      rw [run_write_of_none hnext]
      exact ⟨rfl, hvalue value rfl⟩
    | some reason =>
      rw [run_write_of_some hnext]
      exact ⟨rfl, hrefused value reason rfl hnext⟩

end Session

/-- What a lasting writer has refused, it goes on to refuse. -/
theorem Sink.refusal?_refuse {sink : Sink} (hlasting : sink.writer.IsLasting) {reason : String}
    (hsome : sink.refusal? = some reason) : (sink.refuse reason).refusal? ≠ none := by
  intro hnone
  have hle : sink.lines.length + sink.refused.length ≤
      (sink.refuse reason).lines.length + (sink.refuse reason).refused.length := by
    simp only [refuse, List.length_append]
    omega
  rw [refusal?, hlasting _ _ hle hnone] at hsome
  cases hsome

end Retrace
