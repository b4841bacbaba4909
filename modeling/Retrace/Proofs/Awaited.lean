import Retrace.Proofs.Background
import Retrace.Proofs.Bookkeeping

/-!
# Statements that are waited for

A session that waits for each of its statements is at rest before the next. What a statement makes of the engine
and the book then depends on nothing else, not on the pace of the worker and not on whether the sink takes the
line about it.
-/

namespace Retrace

def Statement.done (statement : Statement) (state : Engine × Book) : Engine × Book :=
  match statement.errand? state.1.registry with
  | .ok (some errand) => Book.settled (errand.place state)
  | _ => state

def Statement.outcome (statement : Statement) (state : Engine × Book) : Engine × Book :=
  match statement with
  | clear => Book.host.carryOut state .clear
  | stack id => Book.host.carryOut state (.activate (id.map StackId.mk))
  | limit count => Book.host.carryOut state (.setLimit count.toNat)
  | statement => statement.done state

inductive Comes (state : Engine × Book) : Engine × Book → Prop where
  | nothing : Comes state state
  | placed (errand : Errand) : Comes state (Book.settled (errand.place state))
  | called (directive : Directive) (hcall : ∀ request, directive ≠ .request request) :
      Comes state (Book.host.carryOut state directive)

theorem Statement.comes (statement : Statement) (state : Engine × Book) : Comes state (statement.outcome state) := by
  unfold Statement.outcome
  split
  · exact .called .clear nofun
  · exact .called (.activate _) nofun
  · exact .called (.setLimit _) nofun
  · unfold Statement.done
    split
    · exact .placed _
    · exact .nothing

namespace Book

variable {state after : Engine × Book}

theorem carryOut_eq_settled (state : Engine × Book) (directive : Directive) :
    Book.host.carryOut state directive = settled (state.1.apply directive.move, state.2) :=
  rfl

theorem settled_place (errand : Errand) (state : Engine × Book) :
    settled (errand.place state) =
      Book.host.carryOut (state.1, errand.written state.2) (.request (errand.request state.2)) :=
  (carryOut_eq_settled (state.1, errand.written state.2) (.request (errand.request state.2))).symm

/-- Whatever a directive does, it does not touch what the order of engine and book rests on. -/
theorem InOrder.call (horder : InOrder state) {directive : Directive} (hcall : ∀ request, directive ≠ .request request) :
    InOrder (state.1.apply directive.move, state.2) where
  working := horder.working.apply directive.move
  numbered := horder.numbered.change (state.1.passage_apply directive.move)
  listening := by
    cases directive with
    | request request => exact absurd rfl (hcall request)
    | clear => exact horder.listening
    | setLimit limit => exact horder.listening
    | activate stack => exact horder.listening
    | route scope stack =>
      show (state.1.route scope stack).2.isListening = true
      unfold Engine.route
      split
      · exact horder.listening
      · split_ifs <;> exact horder.listening
  below := by
    refine horder.below.change horder.working.sound (horder.working.toSteady.change_apply directive.move) ?_
    have hnone : directive.move.command? = none := by
      cases directive with
      | request request => exact absurd rfl (hcall request)
      | _ => rfl
    rw [hnone]
    exact nofun

private theorem InOrder.after_settling (horder : InOrder state) : InOrder (Book.settled state) := by
  obtain ⟨number, hnumber⟩ := settled_eq_turns state
  rw [hnumber]
  exact horder.turns number

private theorem length_settled (state : Engine × Book) :
    (settled state).2.entries.length = state.2.entries.length := by
  obtain ⟨number, hnumber⟩ := settled_eq_turns state
  rw [hnumber, length_turns]

/-- Everything is settled again after a statement, and the book has not lost an entry. -/
theorem InOrder.comes (horder : InOrder state) (hsettled : state.1.isSettled = true) (hcomes : Comes state after) :
    InOrder after ∧ after.1.isSettled = true ∧ state.2.entries.length ≤ after.2.entries.length := by
  have hdone : ∀ ready, InOrder ready → state.2.entries.length ≤ ready.2.entries.length →
      InOrder (Book.settled ready) ∧ (Book.settled ready).1.isSettled = true ∧
        state.2.entries.length ≤ (Book.settled ready).2.entries.length := by
    intro ready hready hlength
    rw [length_settled]
    exact ⟨hready.after_settling, hready.isSettled_settled, hlength⟩
  cases hcomes with
  | nothing => exact ⟨horder, hsettled, Nat.le_refl _⟩
  | placed errand =>
    refine hdone _ (horder.place errand) ?_
    cases errand <;> simp [Errand.place, Errand.written, write]
  | called directive hcall =>
    rw [carryOut_eq_settled]
    exact hdone _ (horder.call hcall) (Nat.le_refl _)

end Book

namespace Session

variable {α β : Type} {pace : Pace} {session between : Session} {state : Engine × Book}

def desk (session : Session) : Engine × Book × List Pending := (session.engine, session.book, session.background)

/-! ### Actions that only write -/

/-- An action that leaves everything but the sink and the counts alone. -/
def Quiet (action : SessionM α) : Prop := ∀ session, (action.run session).2.desk = session.desk

theorem quiet_pure (value : α) : Quiet (pure value : SessionM α) := fun _ => rfl

theorem quiet_throw (error : ShellError) : Quiet (throw error : SessionM α) := fun _ => rfl

theorem quiet_bind {first : SessionM α} {next : α → SessionM β} (hfirst : Quiet first)
    (hnext : ∀ value, Quiet (next value)) : Quiet (first >>= next) := by
  intro session
  have hbetween := hfirst session
  rw [run_bind]
  rcases hrun : (first.run session : Except ShellError α × Session) with ⟨error | value, between⟩
  · rw [hrun] at hbetween
    exact hbetween
  · rw [hrun] at hbetween
    exact (hnext value between).trans hbetween

theorem quiet_write (line : String) : Quiet (write line) := by
  intro session
  unfold write
  rw [run_get]
  cases session.sink.refusal? <;> rfl

theorem quiet_writeAll (lines : List String) : Quiet (writeAll lines) := by
  induction lines with
  | nil => exact quiet_pure ()
  | cons line rest ih => exact quiet_bind (quiet_write line) fun _ => ih

theorem quiet_expect {ε : Type} (wrap : ε → ShellError) (attempted : Except ε α) : Quiet (expect wrap attempted) := by
  cases attempted with
  | ok value => exact quiet_pure value
  | error error => exact quiet_throw _

private theorem quiet_report (label : String) (result : ActionResult) : Quiet (Session.report label result) :=
  quiet_bind (quiet_expect _ _) fun _ => quiet_write _

private theorem quiet_fail (error : ShellError) : Quiet (fail error) :=
  quiet_bind (fun _ => rfl) fun _ => quiet_write _

/-! ### Sessions at rest -/

/-- A session with nothing under way and nothing left for later. -/
structure AtRest (session : Session) : Prop where
  order : Book.InOrder (session.engine, session.book)
  settled : session.engine.isSettled = true
  nothing : session.background = []

/-- An action that ends, in whatever way, with a state of the engine and the book and with nothing left for later. -/
def Ends (action : SessionM α) (session : Session) (state : Engine × Book) : Prop :=
  (action.run session).2.desk = (state.1, state.2, [])

theorem ends_quiet {action : SessionM α} (hquiet : Quiet action) (hdesk : session.desk = (state.1, state.2, [])) :
    Ends action session state :=
  (hquiet session).trans hdesk

theorem ends_bind {first : SessionM α} {next : α → SessionM β} {value : α}
    (hfirst : first.run session = (.ok value, between)) (hnext : Ends (next value) between state) :
    Ends (first >>= next) session state := by
  unfold Ends
  rw [run_bind, hfirst]
  exact hnext

theorem ends_bind_error {first : SessionM α} {next : α → SessionM β} {error : ShellError}
    (hfirst : first.run session = (.error error, between)) (hdesk : between.desk = (state.1, state.2, [])) :
    Ends (first >>= next) session state := by
  unfold Ends
  rw [run_bind, hfirst]
  exact hdesk

def Fails (action : SessionM α) (session : Session) : Prop := ∃ error, (action.run session).1 = .error error

theorem fails_bind {first : SessionM α} {next : α → SessionM β} {value : α}
    (hfirst : first.run session = (.ok value, between)) (hnext : Fails (next value) between) :
    Fails (first >>= next) session := by
  unfold Fails
  rw [run_bind, hfirst]
  exact hnext

theorem fails_bind_error {first : SessionM α} {next : α → SessionM β} {error : ShellError}
    (hfirst : first.run session = (.error error, between)) : Fails (first >>= next) session := by
  unfold Fails
  rw [run_bind, hfirst]
  exact ⟨error, rfl⟩

namespace AtRest

variable (hrest : session.AtRest)

include hrest

theorem unanswered_eq : session.engine.unanswered = [] := Engine.unanswered_of_isSettled hrest.settled

theorem desk_eq : session.desk = (session.engine, session.book, []) := by
  rw [desk, hrest.nothing]

theorem turns_eq (number : Nat) :
    Book.host.turns number (session.engine, session.book) = (session.engine, session.book) := by
  have hsettled : (session.engine, session.book).1.isSettled = true := hrest.settled
  exact Host.turns_of_settled hsettled number

end AtRest

theorem AtRest.of_desk {after : Session} (hrest : session.AtRest) (hdesk : after.desk = session.desk) : after.AtRest := by
  obtain ⟨hengine, hothers⟩ := Prod.mk.inj hdesk
  obtain ⟨hbook, hbackground⟩ := Prod.mk.inj hothers
  constructor
  · rw [hengine, hbook]
    exact hrest.order
  · rw [hengine]
    exact hrest.settled
  · rw [hbackground]
    exact hrest.nothing

/-- An action that leaves everything but the sink and the counts alone at rest. -/
def Still (action : SessionM α) : Prop := ∀ session : Session, session.AtRest → (action.run session).2.desk = session.desk

theorem still_of_quiet {action : SessionM α} (hquiet : Quiet action) : Still action := fun session _ => hquiet session

private theorem still_bind {first : SessionM α} {next : α → SessionM β} (hfirst : Still first)
    (hnext : ∀ value, Still (next value)) : Still (first >>= next) := by
  intro session hrest
  have hbetween := hfirst session hrest
  rw [run_bind]
  rcases hrun : (first.run session : Except ShellError α × Session) with ⟨error | value, between⟩
  · rw [hrun] at hbetween
    exact hbetween
  · rw [hrun] at hbetween
    exact (hnext value between (hrest.of_desk hbetween)).trans hbetween

theorem still_get {next : Session → SessionM β} (hnext : ∀ session, Still (next session)) : Still (get >>= next) :=
  fun session hrest => hnext session session hrest

theorem still_pause (pace : Pace) : Still (pause pace) := by
  intro session hrest
  obtain ⟨number, hnumber⟩ := Host.turnUntil_eq_turns Book.host Engine.isSettled (pace.turns session)
    (session.engine, session.book)
  rw [hrest.turns_eq] at hnumber
  rw [run_pause, hnumber]
  rfl

private theorem background_awaited (pace : Pace) (ticket : Ticket) (session : Session) :
    (session.awaited pace ticket).background = session.background :=
  rfl

/-- A job that is alone and waited for leaves everything done, and the session has its answer. -/
theorem awaited_eq {job : Job} (horder : Book.InOrder (session.engine, session.book))
    (hjob : session.engine.unanswered = [job]) (pace : Pace) :
    ((session.awaited pace job.ticket).engine, (session.awaited pace job.ticket).book) =
      Book.settled (session.engine, session.book) := by
  have hticket : job.ticket ∈ session.engine.tickets := by
    rw [Engine.tickets, hjob]
    exact List.mem_append_right _ List.mem_cons_self
  obtain ⟨result, hresult⟩ := answered_awaited horder.working horder.numbered hticket pace
  obtain ⟨number, hnumber⟩ := exists_turns_awaited pace job.ticket session
  have hlater := horder.turns number
  rw [hnumber]
  refine horder.eq_settled (Engine.isSettled_of_unanswered ?_)
  rw [← hnumber] at hlater ⊢
  refine List.eq_nil_iff_forall_not_mem.mpr fun other hother => ?_
  -- only the one job could be left, and it has an answer
  have hmem : other ∈ (session.engine, session.book).1.unanswered := by
    refine Book.unanswered_turns number ?_
    rw [← hnumber]
    exact hother
  rw [show (session.engine, session.book).1.unanswered = [job] from hjob] at hmem
  have hnone := hlater.numbered.answer?_eq_none hother
  rw [List.mem_singleton.mp hmem, hresult] at hnone
  cases hnone

private theorem ends_settleJob {job : Job} (horder : Book.InOrder (session.engine, session.book))
    (hjob : session.engine.unanswered = [job]) (hnothing : session.background = []) (label : String) :
    Ends (settleJob pace false label job.ticket) session (Book.settled (session.engine, session.book)) := by
  unfold settleJob
  rw [if_neg (by simp)]
  refine ends_bind (run_await pace job.ticket session) (ends_quiet (quiet_report _ _) ?_)
  rw [desk, background_awaited, hnothing, ← awaited_eq horder hjob pace]

theorem fails_settleJob {job : Job} (horder : Book.InOrder (session.engine, session.book))
    (hjob : session.engine.unanswered = [job]) {error : EngineError}
    (hanswer : (Book.settled (session.engine, session.book)).1.answer? job.ticket = some (.error error)) (label : String) :
    Fails (settleJob pace false label job.ticket) session := by
  have hnow : (session.awaited pace job.ticket).engine.answer? job.ticket = some (.error error) := by
    rw [← hanswer, ← awaited_eq horder hjob pace]
  unfold settleJob
  rw [if_neg (by simp)]
  refine fails_bind (run_await pace job.ticket session) ?_
  rw [hnow]
  exact fails_bind_error rfl

theorem alone_of_reply (hrest : session.AtRest) {errand : Errand} {ticket : Ticket}
    (hreply : errand.reply (session.engine, session.book) = .ok ticket) :
    ∃ job : Job, job.ticket = ticket ∧ (errand.place (session.engine, session.book)).1.unanswered = [job] := by
  obtain ⟨job, hticket, hjob⟩ := Engine.submit_accepted hrest.order.listening hreply
  rw [hrest.unanswered_eq] at hjob
  exact ⟨job, hticket, hjob⟩

theorem ends_errand (hrest : session.AtRest) (errand : Errand) (wrap : EngineError → ShellError) (label : String) :
    Ends (expect wrap (errand.reply (session.engine, session.book)) >>= fun ticket => settleJob pace false label ticket)
      (session.withWorker (errand.place (session.engine, session.book)))
      (Book.settled (errand.place (session.engine, session.book))) := by
  have horder := hrest.order.place errand
  cases hreply : errand.reply (session.engine, session.book) with
  | ok ticket =>
    obtain ⟨job, rfl, halone⟩ := alone_of_reply hrest hreply
    generalize errand.place (session.engine, session.book) = placed at horder halone ⊢
    exact ends_bind rfl (@ends_settleJob pace (session.withWorker placed) job horder halone hrest.nothing label)
  | error error =>
    have hjobs := Engine.submit_refused hrest.order.listening hreply
    have hidle : (errand.place (session.engine, session.book)).1.isSettled = true :=
      Engine.isSettled_of_unanswered (hjobs.trans hrest.unanswered_eq)
    generalize errand.place (session.engine, session.book) = placed at horder hidle ⊢
    refine ends_bind_error rfl ?_
    rw [Book.settled_of_isSettled hidle, desk]
    exact congrArg (Prod.mk placed.1) (congrArg (Prod.mk placed.2) hrest.nothing)

theorem fails_errand (hrest : session.AtRest) {errand : Errand}
    (hfailed : ∀ ticket, errand.reply (session.engine, session.book) = .ok ticket →
      ∃ error, (Book.settled (errand.place (session.engine, session.book))).1.answer? ticket = some (.error error))
    (wrap : EngineError → ShellError) (label : String) :
    Fails (expect wrap (errand.reply (session.engine, session.book)) >>= fun ticket => settleJob pace false label ticket)
      (session.withWorker (errand.place (session.engine, session.book))) := by
  have horder := hrest.order.place errand
  cases hreply : errand.reply (session.engine, session.book) with
  | ok ticket =>
    obtain ⟨job, rfl, halone⟩ := alone_of_reply hrest hreply
    obtain ⟨error, hanswer⟩ := hfailed _ hreply
    generalize errand.place (session.engine, session.book) = placed at horder halone hanswer ⊢
    exact fails_bind rfl (@fails_settleJob pace (session.withWorker placed) job horder halone error hanswer label)
  | error error => exact fails_bind_error rfl

/-! ### Statements -/

private theorem still_writeHistory (pace : Pace) : Still (writeHistory pace) := by
  unfold writeHistory
  refine still_get fun _ => ?_
  refine still_bind (still_pause pace) fun _ => ?_
  refine still_get fun _ => ?_
  refine still_bind (still_pause pace) fun _ => ?_
  refine still_get fun _ => ?_
  refine still_bind (still_of_quiet (quiet_write _)) fun _ => ?_
  refine still_bind (still_pause pace) fun _ => ?_
  refine still_get fun _ => ?_
  exact still_of_quiet (quiet_writeAll _)

private theorem carryOut_at_once {directive : Directive}
    (hsettled : (state.1.apply directive.move).isSettled = true) :
    Book.host.carryOut state directive = (state.1.apply directive.move, state.2) := by
  have hdone : (state.1.apply directive.move, state.2).1.isSettled = true := hsettled
  rw [Book.carryOut_eq_settled, Book.settled_of_isSettled hdone]

theorem run_scopeNamed (name : String) (session : Session) :
    (scopeNamed name).run session = ((session.engine.registry.scope name).mapError .ofScopeLookup, session) := by
  unfold scopeNamed
  rw [run_get]
  cases session.engine.registry.scope name <;> rfl

section Perform

variable (hrest : session.AtRest)

include hrest

private theorem ends_submitPosting {posting : Posting} {state : Engine × Book}
    (hstate : state = match session.engine.registry.scope posting.account.scope with
      | .error _ => (session.engine, session.book)
      | .ok scope => Book.settled ((Errand.post posting scope).place (session.engine, session.book))) :
    Ends (submitPosting pace false posting) session state := by
  have hnamed := run_scopeNamed posting.account.scope session
  unfold submitPosting
  cases hscope : session.engine.registry.scope posting.account.scope with
  | error error =>
    rw [hscope] at hnamed hstate
    rw [hstate]
    exact ends_bind_error hnamed hrest.desk_eq
  | ok scope =>
    rw [hscope] at hnamed hstate
    rw [hstate]
    refine ends_bind hnamed ?_
    unfold Ends
    rw [run_get]
    refine ends_bind rfl ?_
    refine ends_bind (run_call _ _) ?_
    exact ends_errand hrest (.post posting scope) _ _

theorem fails_submitPosting {posting : Posting}
    (hfailed : ∀ scope, ∀ ticket, (Errand.post posting scope).reply (session.engine, session.book) = .ok ticket →
      ∃ error, (Book.settled ((Errand.post posting scope).place (session.engine, session.book))).1.answer? ticket =
        some (.error error)) :
    Fails (submitPosting pace false posting) session := by
  have hnamed := run_scopeNamed posting.account.scope session
  unfold submitPosting
  cases hscope : session.engine.registry.scope posting.account.scope with
  | error error =>
    rw [hscope] at hnamed
    exact fails_bind_error hnamed
  | ok scope =>
    rw [hscope] at hnamed
    refine fails_bind hnamed ?_
    unfold Fails
    rw [run_get]
    refine fails_bind rfl ?_
    refine fails_bind (run_call _ _) ?_
    exact fails_errand hrest (hfailed scope) _ _

theorem ends_request {errand : Errand} {request : Request} (hrequest : ∀ book, errand.request book = request)
    (hwritten : ∀ book, errand.written book = book) (wrap : EngineError → ShellError) (label : String) :
    Ends (expect wrap (session.engine.submit request).1 >>= fun ticket => settleJob pace false label ticket)
      { session with engine := (session.engine.submit request).2 }
      (Book.settled (errand.place (session.engine, session.book))) := by
  have hplace : errand.place (session.engine, session.book) = ((session.engine.submit request).2, session.book) := by
    rw [Errand.place, hrequest, hwritten]
  have hreply : errand.reply (session.engine, session.book) = (session.engine.submit request).1 := by
    rw [Errand.reply, hrequest]
  have hworker : { session with engine := (session.engine.submit request).2 } =
      session.withWorker (errand.place (session.engine, session.book)) := by
    rw [hplace]
    rfl
  rw [hworker, ← hreply]
  exact ends_errand hrest errand wrap label

private theorem ends_submitMove {label : String} {names : Option String} {request : Option Scope → Request}
    {done : Option Scope → Engine × Book} {state : Engine × Book}
    (hask : ∀ filter wrap, Ends
      (expect wrap (session.engine.submit (request filter)).1 >>= fun ticket => settleJob pace false label ticket)
      { session with engine := (session.engine.submit (request filter)).2 } (done filter))
    (hstate : state = match names with
      | none => done none
      | some names =>
        match session.engine.registry.scopeOfText names with
        | .error _ => (session.engine, session.book)
        | .ok filter => done (some filter)) :
    Ends (submitMove pace false label names request) session state := by
  rw [hstate]
  unfold submitMove
  cases names with
  | none => exact ends_bind (run_call _ session) (hask none _)
  | some names =>
    refine ends_bind (run_call _ session) ?_
    dsimp only
    unfold Engine.submitIn
    cases session.engine.registry.scopeOfText names with
    | error error => exact ends_bind_error rfl hrest.desk_eq
    | ok filter => exact hask (some filter) _

private theorem ends_posting {statement : Statement} (posting : Posting)
    (herrand : ∀ registry, statement.errand? registry =
      Statement.errand?.posting registry posting.account.scope posting) :
    Ends (submitPosting pace false posting) session (statement.done (session.engine, session.book)) := by
  refine ends_submitPosting hrest ?_
  rw [Statement.done, herrand, Statement.errand?.posting]
  cases session.engine.registry.scope posting.account.scope <;> rfl

private theorem ends_move {statement : Statement} {names : Option String} {label : String}
    {request : Option Scope → Request} {errand : Option Scope → Errand}
    (hrequest : ∀ filter book, (errand filter).request book = request filter)
    (hwritten : ∀ filter book, (errand filter).written book = book)
    (herrand : ∀ registry, statement.errand? registry = match names with
      | none => .ok (some (errand none))
      | some names => Statement.errand?.among registry names fun filter => some (errand (some filter))) :
    Ends (submitMove pace false label names request) session (statement.done (session.engine, session.book)) := by
  refine ends_submitMove hrest (fun filter wrap => ends_request hrest (hrequest filter) (hwritten filter) wrap label) ?_
  rw [Statement.done, herrand]
  cases names with
  | none => rfl
  | some names =>
    unfold Statement.errand?.among
    dsimp only
    cases session.engine.registry.scopeOfText names <;> rfl

theorem ends_called (directive : Directive) {next : Unit → SessionM Unit}
    (hsettled : (session.engine.apply directive.move).isSettled = true) (hnext : ∀ value, Quiet (next value)) :
    Ends (call (fun engine => ((), engine.apply directive.move)) >>= next) session
      (Book.host.carryOut (session.engine, session.book) directive) := by
  rw [carryOut_at_once hsettled]
  refine ends_bind (run_call _ session) (ends_quiet (hnext ()) ?_)
  exact congrArg (Prod.mk _) (congrArg (Prod.mk _) hrest.nothing)

/-- **A statement that is waited for** ends with what it makes of the engine and the book. -/
theorem ends_perform (statement : Statement) :
    Ends (perform pace statement false) session (statement.outcome (session.engine, session.book)) := by
  have hstill : ∀ {action : SessionM Unit}, Still action → Ends action session (session.engine, session.book) :=
    fun hstill => (hstill session hrest).trans hrest.desk_eq
  cases statement with
  | set scope account value => exact ends_posting hrest (.set ⟨scope, account⟩ value) fun _ => rfl
  | add scope account delta => exact ends_posting hrest (.add ⟨scope, account⟩ delta) fun _ => rfl
  | get scope account => exact ends_posting hrest (.get ⟨scope, account⟩) fun _ => rfl
  | undo names => exact ends_move hrest (fun _ _ => rfl) (fun _ _ => rfl) fun registry => by cases names <;> rfl
  | redo names => exact ends_move hrest (fun _ _ => rfl) (fun _ _ => rfl) fun registry => by cases names <;> rfl
  | jump index =>
    have hask : Ends
        (expect .engine (session.engine.submit (.jump (index.map UInt64.toNat))).1 >>= fun ticket =>
          settleJob pace false (jumpLabel index) ticket)
        { session with engine := (session.engine.submit (.jump (index.map UInt64.toNat))).2 }
        (Book.settled ((Errand.jump (index.map UInt64.toNat)).place (session.engine, session.book))) :=
      ends_request hrest (fun _ => rfl) (fun _ => rfl) _ _
    exact ends_bind (run_call _ session) hask
  | stack id =>
    refine ends_called hrest (.activate (id.map StackId.mk)) hrest.settled fun _ => ?_
    exact quiet_bind (fun _ => rfl) fun _ => quiet_write _
  | limit number => exact ends_called hrest (.setLimit number.toNat) hrest.settled fun _ => quiet_write _
  | clear => exact ends_called hrest .clear hrest.settled fun _ => quiet_write _
  | history => exact hstill (still_writeHistory pace)
  | queued names =>
    have hsame : (Statement.queued names).outcome (session.engine, session.book) = (session.engine, session.book) := by
      unfold Statement.outcome Statement.done Statement.errand? Statement.errand?.among
      dsimp only
      cases session.engine.registry.scopeOfText (names.getD Scope.wildcardName) <;> rfl
    rw [hsame]
    refine hstill (still_get fun session => still_of_quiet ?_)
    exact quiet_bind (quiet_expect _ _) fun _ => quiet_write _
  | wait =>
    show Ends (get >>= _) session (session.engine, session.book)
    unfold Ends
    rw [run_get, hrest.nothing]
    rfl
  | balances => exact hstill (still_get fun session => still_of_quiet (quiet_writeAll _))
  | scopes => exact hstill (still_get fun session => still_of_quiet (quiet_write _))

end Perform

/-! ### Lines -/

private theorem ends_attempt {action : SessionM Unit} (haction : Ends action session state)
    {next : Option ShellError → SessionM Unit} (hnext : ∀ error, Quiet (next error)) :
    Ends (attempt action >>= next) session state := by
  unfold Ends at haction ⊢
  rw [run_bind, run_attempt]
  rcases hrun : (action.run session : Except ShellError Unit × Session) with ⟨error | value, after⟩
  · rw [hrun] at haction
    exact (hnext (some error) after).trans haction
  · rw [hrun] at haction
    exact (hnext none after).trans haction

/-- **A line that is waited for** ends with what its statement makes of the engine and the book. -/
theorem ends_runLine (hrest : session.AtRest) {line : ScriptLine} (hwaited : line.inBackground = false) :
    Ends (runLine pace line) session (line.statement.outcome (session.engine, session.book)) := by
  have hperformed : ∀ paused : Session, paused.desk = session.desk →
      Ends (perform pace line.statement false) paused (line.statement.outcome (session.engine, session.book)) := by
    intro paused hdesk
    obtain ⟨hengine, hothers⟩ := Prod.mk.inj hdesk
    rw [← hengine, ← (Prod.mk.inj hothers).1]
    exact ends_perform (hrest.of_desk hdesk) line.statement
  have hcounted := hrest.of_desk (rfl : (count.run session).2.desk = session.desk)
  have hpaused : ((pause pace).run (count.run session).2).2.desk = session.desk := still_pause pace _ hcounted
  have hcount : count.run session = (.ok (), (count.run session).2) := rfl
  have hpause : (pause pace).run (count.run session).2 = (.ok (), ((pause pace).run (count.run session).2).2) := rfl
  unfold runLine
  rw [hwaited]
  refine ends_bind hcount (ends_bind hpause (ends_attempt (hperformed _ hpaused) ?_))
  rintro (_ | error)
  · exact quiet_pure ()
  · dsimp only
    split_ifs
    · exact quiet_throw error
    · exact quiet_fail error

theorem AtRest.of_ends (hrest : session.AtRest) {action : SessionM α} (statement : Statement)
    (hends : Ends action session (statement.outcome (session.engine, session.book))) : (action.run session).2.AtRest := by
  obtain ⟨horder, hsettled, -⟩ := hrest.order.comes hrest.settled (statement.comes (session.engine, session.book))
  obtain ⟨hengine, hothers⟩ := Prod.mk.inj hends
  obtain ⟨hbook, hbackground⟩ := Prod.mk.inj hothers
  constructor
  · rw [hengine, hbook]
    exact horder
  · rw [hengine]
    exact hsettled
  · exact hbackground

end Session

end Retrace
