import Retrace.Proofs.Contract
import Retrace.Proofs.Overtaking

/-!
# Background submission changes no outcome

An agenda is what a script asks for, taken down in order, with nothing done before its end. Whatever the worker
does meanwhile and however often the session waits, what a session comes to is what its agenda comes to, and
an agenda knows nothing of waiting.
-/

namespace Retrace

/-! ### Answers and turns -/

theorem Engine.Numbered.exists_answer {engine : Engine} (hnumbered : engine.Numbered) (hsettled : engine.isSettled = true)
    {ticket : Ticket} (hticket : ticket ∈ engine.tickets) : ∃ result, engine.answer? ticket = some result := by
  rw [Engine.tickets, Engine.unanswered_of_isSettled hsettled, List.map_nil, List.append_nil] at hticket
  obtain ⟨⟨ticket, result⟩, hanswer, rfl⟩ := List.mem_map.mp hticket
  exact ⟨result, hnumbered.answer?_eq_some hanswer⟩

namespace Book

variable {state : Engine × Book} {ticket : Ticket} {result : ActionResult}

def settled (state : Engine × Book) : Engine × Book := Book.host.settle state.1 state.2

theorem settled_eq_turns (state : Engine × Book) : ∃ number, settled state = Book.host.turns number state :=
  Host.turnUntil_eq_turns Book.host _ _ state

theorem settled_of_isSettled (hsettled : state.1.isSettled = true) : settled state = state := by
  obtain ⟨number, hnumber⟩ := settled_eq_turns state
  rw [hnumber, Host.turns_of_settled hsettled]

theorem unanswered_turns (number : Nat) {job : Job} (hjob : job ∈ (Book.host.turns number state).1.unanswered) :
    job ∈ state.1.unanswered := by
  obtain ⟨moves, hmoves, hturns⟩ := Host.turns_eq_applyAll Book.host number state
  rw [hturns] at hjob
  exact (Engine.unanswered_suffix_applyAll state.1 hmoves).subset hjob

theorem answer?_turns (number : Nat) (hanswer : state.1.answer? ticket = some result) :
    (Book.host.turns number state).1.answer? ticket = some result := by
  obtain ⟨moves, -, hturns⟩ := Host.turns_eq_applyAll Book.host number state
  rw [hturns]
  exact Engine.answer?_of_prefix (Engine.answers_extended_applyAll state.1 moves) hanswer

theorem tickets_turns (number : Nat) (hticket : ticket ∈ state.1.tickets) :
    ticket ∈ (Book.host.turns number state).1.tickets := by
  obtain ⟨moves, -, hturns⟩ := Host.turns_eq_applyAll Book.host number state
  rw [hturns]
  exact (Engine.tickets_prefix_applyAll state.1 moves).subset hticket

namespace InOrder

variable (horder : InOrder state)

include horder

theorem isSettled_settled : (settled state).1.isSettled = true :=
  Host.isSettled_settle Book.host horder.working state.2

theorem eq_settled {number : Nat} (hsettled : (Book.host.turns number state).1.isSettled = true) :
    Book.host.turns number state = settled state := by
  obtain ⟨enough, henough⟩ := settled_eq_turns state
  have hrest := horder.isSettled_settled
  rw [henough] at hrest ⊢
  exact Host.turns_eq_of_settled hsettled hrest

private theorem settled_turns (number : Nat) : settled (Book.host.turns number state) = settled state := by
  obtain ⟨more, hmore⟩ := settled_eq_turns (Book.host.turns number state)
  have hrest := (horder.turns number).isSettled_settled
  rw [hmore, ← Host.turns_add] at hrest ⊢
  exact horder.eq_settled hrest

theorem answer?_settled (number : Nat) (hanswer : (Book.host.turns number state).1.answer? ticket = some result) :
    (settled state).1.answer? ticket = some result := by
  obtain ⟨more, hmore⟩ := settled_eq_turns (Book.host.turns number state)
  rw [← horder.settled_turns number, hmore]
  exact answer?_turns more hanswer

private theorem exists_answer (hticket : ticket ∈ state.1.tickets) :
    ∃ result, (settled state).1.answer? ticket = some result := by
  obtain ⟨number, hnumber⟩ := settled_eq_turns state
  have hrest := horder.isSettled_settled
  rw [hnumber] at hrest ⊢
  exact (horder.turns number).numbered.exists_answer hrest (tickets_turns number hticket)

theorem answer?_place (errand : Errand) (hticket : ticket ∈ state.1.tickets) :
    (settled (errand.place state)).1.answer? ticket = (settled state).1.answer? ticket := by
  obtain ⟨result, hresult⟩ := horder.exists_answer hticket
  obtain ⟨number, hnumber⟩ := settled_eq_turns state
  rw [hresult]
  rw [hnumber] at hresult
  obtain ⟨more, hmore, -⟩ := horder.exists_turns_place number errand
  refine (horder.place errand).answer?_settled more ?_
  rw [← hmore]
  refine Engine.answer?_of_prefix ?_ hresult
  exact ((Book.host.turns number state).1.passage_apply (.submit _)).answers_extended

end InOrder

end Book

/-! ### Waiting for a job -/

namespace Session

theorem exists_turns_awaited (pace : Pace) (ticket : Ticket) (session : Session) :
    ∃ number, ((session.awaited pace ticket).engine, (session.awaited pace ticket).book) =
      Book.host.turns number (session.engine, session.book) := by
  obtain ⟨first, hfirst⟩ := Host.turnUntil_eq_turns Book.host (fun engine => (engine.answer? ticket).isSome)
    (Host.turnBound session.engine) (session.engine, session.book)
  let between := session.withWorker (Book.host.await ticket session.engine session.book)
  obtain ⟨second, hsecond⟩ := Host.turnUntil_eq_turns Book.host Engine.isSettled (pace.turns between)
    (between.engine, between.book)
  refine ⟨first + second, ?_⟩
  rw [Host.turns_add, ← hfirst]
  exact hsecond

theorem answered_awaited {session : Session} (hworking : session.engine.Working) (hnumbered : session.engine.Numbered)
    {ticket : Ticket} (hticket : ticket ∈ session.engine.tickets) (pace : Pace) :
    ∃ result, (session.awaited pace ticket).engine.answer? ticket = some result := by
  obtain ⟨first, hfirst⟩ := Host.turnUntil_eq_turns Book.host (fun engine => (engine.answer? ticket).isSome)
    (Host.turnBound session.engine) (session.engine, session.book)
  have hanswered : ∃ result, (Book.host.await ticket session.engine session.book).1.answer? ticket = some result := by
    rcases Host.answered_await Book.host hworking ticket session.book with hsome | hsettled
    · exact Option.isSome_iff_exists.mp hsome
    · obtain ⟨moves, -, hmoves⟩ := Host.turns_eq_applyAll Book.host first (session.engine, session.book)
      have hlater : (Book.host.await ticket session.engine session.book).1 = session.engine.applyAll moves := by
        rw [← hmoves, ← hfirst]
        rfl
      rw [hlater] at hsettled ⊢
      exact (hnumbered.applyAll moves).exists_answer hsettled
        ((Engine.tickets_prefix_applyAll session.engine moves).subset hticket)
  obtain ⟨result, hresult⟩ := hanswered
  let between := session.withWorker (Book.host.await ticket session.engine session.book)
  obtain ⟨second, hsecond⟩ := Host.turnUntil_eq_turns Book.host Engine.isSettled (pace.turns between)
    (between.engine, between.book)
  refine ⟨result, ?_⟩
  have hstill : (Book.host.turns second (between.engine, between.book)).1.answer? ticket = some result :=
    Book.answer?_turns second hresult
  rw [← hsecond] at hstill
  exact hstill

end Session

/-! ### The agenda of a script -/

def Errand.refusal : Errand → EngineError → ShellError
  | undo (some _) | redo (some _) => .ofScopeLookup
  | _ => .engine

/-- What a statement asks of the engine and the book, if anything. -/
def Statement.errand? (registry : Registry) : Statement → Except ShellError (Option Errand)
  | set scope account value => posting scope (.set ⟨scope, account⟩ value)
  | add scope account delta => posting scope (.add ⟨scope, account⟩ delta)
  | get scope account => posting scope (.get ⟨scope, account⟩)
  | undo none => .ok (some (.undo none))
  | redo none => .ok (some (.redo none))
  | undo (some names) => among names fun filter => some (.undo (some filter))
  | redo (some names) => among names fun filter => some (.redo (some filter))
  | jump index => .ok (some (.jump (index.map UInt64.toNat)))
  | queued names => among (names.getD Scope.wildcardName) fun _ => none
  | _ => .ok none
where
  posting (scope : String) (posting : Posting) : Except ShellError (Option Errand) :=
    match registry.scope scope with
    | .error error => .error (.ofScopeLookup error)
    | .ok scope => .ok (some (.post posting scope))
  among (names : String) (make : Scope → Option Errand) : Except ShellError (Option Errand) :=
    match registry.scopeOfText names with
    | .error error => .error (.ofScopeLookup error)
    | .ok filter => .ok (make filter)

def Statement.actsAtOnce : Statement → Bool
  | clear | stack _ | limit _ => true
  | _ => false

/-- What has been asked for, with nothing of it done, and which of it was accepted and refused. -/
structure Agenda where
  state : Engine × Book
  tickets : List Ticket
  refused : Nat
  statements : Nat

namespace Agenda

def start (engine : Engine) : Agenda := ⟨(engine, Book.empty), [], 0, 0⟩

def refuse (agenda : Agenda) (error : ShellError) : Except ShellError Agenda :=
  if error.isFatal then .error error else .ok { agenda with refused := agenda.refused + 1 }

def place (agenda : Agenda) (errand : Errand) : Except ShellError Agenda :=
  match errand.reply agenda.state with
  | .ok ticket => .ok { agenda with state := errand.place agenda.state, tickets := agenda.tickets ++ [ticket] }
  | .error error => { agenda with state := errand.place agenda.state }.refuse (errand.refusal error)

def take (agenda : Agenda) (statement : Statement) : Except ShellError Agenda :=
  match statement.errand? agenda.state.1.registry with
  | .error error => agenda.refuse error
  | .ok none => .ok agenda
  | .ok (some errand) => agenda.place errand

def note (agenda : Agenda) (statement : Statement) : Except ShellError Agenda :=
  { agenda with statements := agenda.statements + 1 }.take statement

def noteAll : Agenda → List Statement → Except ShellError Agenda
  | agenda, [] => .ok agenda
  | agenda, statement :: rest => do (← agenda.note statement).noteAll rest

/-- Whether a job fails in the end. -/
def fails (agenda : Agenda) (ticket : Ticket) : Bool :=
  ((Book.settled agenda.state).1.answer? ticket).any fun result => !Outcome.succeeded result

def failures (agenda : Agenda) (tickets : List Ticket) : Nat := tickets.countP agenda.fails

def summary (agenda : Agenda) : Summary := ⟨agenda.statements, agenda.refused + agenda.failures agenda.tickets⟩

end Agenda

/-! ### A session keeps its agenda -/

variable {agenda : Agenda} {session after : Session} {extra : List Ticket} {ticket : Ticket}

/-- How a session stands to its agenda: the worker has taken some turns, what is not done is left for later or
stands on a list of its own, and the failures so far are those of what has been reported, and the writes that were
refused and survived. -/
structure Keeps (agenda : Agenda) (session : Session) (extra : List Ticket) : Prop where
  order : Book.InOrder agenda.state
  state : ∃ number, (session.engine, session.book) = Book.host.turns number agenda.state
  statements : session.summary.statements = agenda.statements
  failures : session.summary.failures + agenda.failures (session.background.map Pending.ticket ++ extra) =
    agenda.refused + agenda.failures agenda.tickets + session.sink.refused.length
  unrefused : session.sink.writer.IsLasting → session.sink.refused = []
  accepted : ∀ ticket ∈ agenda.tickets, ticket ∈ agenda.state.1.tickets
  known : ∀ ticket ∈ session.background.map Pending.ticket ++ extra, ticket ∈ agenda.state.1.tickets
  owed : ∀ job ∈ session.engine.unanswered, job.ticket ∈ session.background.map Pending.ticket ++ extra

namespace Keeps

theorem turns (hkeeps : Keeps agenda session extra) {number : Nat}
    (hstate : (after.engine, after.book) = Book.host.turns number (session.engine, session.book))
    (hbackground : after.background = session.background) (hsummary : after.summary = session.summary)
    (hsink : after.sink = session.sink) : Keeps agenda after extra where
  order := hkeeps.order
  state := by
    obtain ⟨before, hbefore⟩ := hkeeps.state
    exact ⟨before + number, by rw [hstate, hbefore, Host.turns_add]⟩
  statements := hsummary ▸ hkeeps.statements
  failures := by
    rw [hsummary, hbackground, hsink]
    exact hkeeps.failures
  unrefused := hsink ▸ hkeeps.unrefused
  accepted := hkeeps.accepted
  known := hbackground ▸ hkeeps.known
  owed := by
    intro job hjob
    rw [hbackground]
    have hbefore : job ∈ (session.engine, session.book).1.unanswered := by
      refine Book.unanswered_turns number ?_
      rw [← hstate]
      exact hjob
    exact hkeeps.owed job hbefore

theorem wrote (hkeeps : Keeps agenda session extra) (line : String) : Keeps agenda (session.wrote line) extra :=
  { hkeeps with }

/-- A report that was refused is counted as a failure, if this itself can be reported. -/
theorem spoilt (hkeeps : Keeps agenda session extra) {reason : String} (hsome : session.sink.refusal? = some reason)
    (hnone : (session.sink.refuse reason).refusal? = none) (line : String) :
    Keeps agenda ((session.wasRefused reason).failedOnce.wrote line) extra where
  order := hkeeps.order
  state := hkeeps.state
  statements := hkeeps.statements
  failures := by
    have hfailures := hkeeps.failures
    simp only [Session.wrote, Session.failedOnce, Session.wasRefused, Sink.take, Sink.refuse, List.length_append,
      List.length_singleton]
    omega
  unrefused := fun hlasting => absurd hnone (@Sink.refusal?_refuse session.sink hlasting reason hsome)
  accepted := hkeeps.accepted
  known := hkeeps.known
  owed := hkeeps.owed

theorem sort (hkeeps : Keeps agenda session extra) {background : List Pending} {rest : List Ticket}
    (hsame : background.map Pending.ticket ++ rest = session.background.map Pending.ticket ++ extra) :
    Keeps agenda { session with background := background } rest where
  order := hkeeps.order
  state := hkeeps.state
  statements := hkeeps.statements
  failures := by
    rw [← hkeeps.failures, ← hsame]
  unrefused := hkeeps.unrefused
  accepted := hkeeps.accepted
  known := by
    rw [hsame]
    exact hkeeps.known
  owed := by
    rw [hsame]
    exact hkeeps.owed

theorem registry_eq (hkeeps : Keeps agenda session extra) : session.engine.registry = agenda.state.1.registry := by
  obtain ⟨number, hnumber⟩ := hkeeps.state
  have hsame := Host.sameDesk_turns Book.host number agenda.state
  rw [← hnumber] at hsame
  exact hsame.registry

theorem fails_eq (hkeeps : Keeps agenda session extra) {result : ActionResult}
    (hanswer : session.engine.answer? ticket = some result) : agenda.fails ticket = !Outcome.succeeded result := by
  obtain ⟨number, hnumber⟩ := hkeeps.state
  have hsettled : (Book.settled agenda.state).1.answer? ticket = some result := by
    refine hkeeps.order.answer?_settled number ?_
    rw [← hnumber]
    exact hanswer
  rw [Agenda.fails, hsettled, Option.any_some]

/-- A job that has been answered is no longer owed; if it failed, this is counted. -/
theorem drop (hkeeps : Keeps agenda session (ticket :: extra)) {result : ActionResult}
    (hanswer : session.engine.answer? ticket = some result) :
    Keeps agenda (if Outcome.succeeded result then session else session.failedOnce) extra := by
  have hfails := hkeeps.fails_eq hanswer
  have hfailures := hkeeps.failures
  obtain ⟨number, hnumber⟩ := hkeeps.state
  have hnumbered : session.engine.Numbered := by
    have horder := hkeeps.order.turns number
    rw [← hnumber] at horder
    exact horder.numbered
  have howed : ∀ job ∈ session.engine.unanswered,
      job.ticket ∈ session.background.map Pending.ticket ++ extra := by
    intro job hjob
    rcases List.mem_append.mp (hkeeps.owed job hjob) with hlater | hmem
    · exact List.mem_append_left _ hlater
    · rcases List.mem_cons.mp hmem with hthis | hother
      · have hnone := hnumbered.answer?_eq_none hjob
        rw [hthis, hanswer] at hnone
        cases hnone
      · exact List.mem_append_right _ hother
  have hknown : ∀ other ∈ session.background.map Pending.ticket ++ extra, other ∈ agenda.state.1.tickets := by
    intro other hother
    refine hkeeps.known other ?_
    rcases List.mem_append.mp hother with hlater | hmem
    · exact List.mem_append_left _ hlater
    · exact List.mem_append_right _ (List.mem_cons_of_mem _ hmem)
  simp only [Agenda.failures, List.countP_append, List.countP_cons, hfails] at hfailures
  cases hsucceeded : Outcome.succeeded result with
  | true =>
    refine ⟨hkeeps.order, hkeeps.state, hkeeps.statements, ?_, hkeeps.unrefused, hkeeps.accepted, hknown, howed⟩
    simp only [hsucceeded, Bool.not_true, Bool.false_eq_true, if_false] at hfailures
    simp only [Agenda.failures, List.countP_append, if_true]
    omega
  | false =>
    refine ⟨hkeeps.order, hkeeps.state, hkeeps.statements, ?_, hkeeps.unrefused, hkeeps.accepted, hknown, howed⟩
    simp only [hsucceeded, Bool.not_false, if_true] at hfailures
    simp only [Agenda.failures, List.countP_append, Bool.false_eq_true, if_false, Session.failedOnce]
    omega

section Place

variable {errand : Errand} (hkeeps : Keeps agenda session [])

include hkeeps

theorem listening : session.engine.isListening = true := by
  obtain ⟨number, hnumber⟩ := hkeeps.state
  have horder := hkeeps.order.turns number
  rw [← hnumber] at horder
  exact horder.listening

/-- What is asked for now might as well have been asked for before all turns. -/
theorem exists_turns_place (errand : Errand) :
    (∃ number, errand.place (session.engine, session.book) = Book.host.turns number (errand.place agenda.state)) ∧
      errand.reply (session.engine, session.book) = errand.reply agenda.state := by
  obtain ⟨number, hnumber⟩ := hkeeps.state
  obtain ⟨more, hplace, hreply⟩ := hkeeps.order.exists_turns_place number errand
  rw [hnumber]
  exact ⟨⟨more, hplace⟩, hreply⟩

omit hkeeps in
theorem mem_tickets_place (hticket : ticket ∈ agenda.state.1.tickets) : ticket ∈ (errand.place agenda.state).1.tickets :=
  (Engine.tickets_prefix_applyAll agenda.state.1 [.submit (errand.request agenda.state.2)]).subset hticket

theorem failures_place {next : Agenda} (hstate : next.state = errand.place agenda.state) {tickets : List Ticket}
    (hknown : ∀ ticket ∈ tickets, ticket ∈ agenda.state.1.tickets) :
    next.failures tickets = agenda.failures tickets := by
  refine List.countP_congr fun ticket hticket => ?_
  simp only [Agenda.fails, hstate, hkeeps.order.answer?_place errand (hknown ticket hticket)]

private theorem place_ok (hreply : errand.reply (session.engine, session.book) = .ok ticket) :
    ∃ next, agenda.place errand = .ok next ∧
      Keeps next (session.withWorker (errand.place (session.engine, session.book))) [ticket] := by
  obtain ⟨hstate, hsame⟩ := hkeeps.exists_turns_place errand
  obtain ⟨job, rfl, hunanswered⟩ := Engine.submit_accepted hkeeps.listening hreply
  have hwaits : job.ticket ∈ (errand.place agenda.state).1.tickets := by
    obtain ⟨other, hother, htickets⟩ := Engine.submit_accepted hkeeps.order.listening (hsame.symm.trans hreply)
    refine List.mem_append_right _ ?_
    rw [Errand.place, htickets, ← hother]
    exact List.mem_map_of_mem (List.mem_append_right _ List.mem_cons_self)
  have hfailures := hkeeps.failures
  have hknown := hkeeps.known
  rw [List.append_nil] at hfailures hknown
  let next : Agenda := { agenda with state := errand.place agenda.state, tickets := agenda.tickets ++ [job.ticket] }
  have hplaced : next.state = errand.place agenda.state := rfl
  have hlater := hkeeps.failures_place hplaced hknown
  have hbefore := hkeeps.failures_place hplaced hkeeps.accepted
  refine ⟨next, by simp only [Agenda.place, ← hsame, hreply, next], ?_⟩
  constructor
  case order => exact hkeeps.order.place errand
  case state => exact hstate
  case statements => exact hkeeps.statements
  case failures =>
    have hsplit : ∀ tickets, next.failures (tickets ++ [job.ticket]) = next.failures tickets + next.failures [job.ticket] :=
      fun tickets => List.countP_append
    show session.summary.failures + next.failures (session.background.map Pending.ticket ++ [job.ticket]) =
      agenda.refused + next.failures (agenda.tickets ++ [job.ticket]) + session.sink.refused.length
    rw [hsplit, hsplit, hlater, hbefore]
    omega
  case unrefused => exact hkeeps.unrefused
  case accepted =>
    intro ticket hticket
    rcases List.mem_append.mp hticket with hbefore | hnew
    · exact mem_tickets_place (hkeeps.accepted ticket hbefore)
    · exact List.mem_singleton.mp hnew ▸ hwaits
  case known =>
    intro ticket hticket
    rcases List.mem_append.mp hticket with hbefore | hnew
    · exact mem_tickets_place (hknown ticket hbefore)
    · exact List.mem_singleton.mp hnew ▸ hwaits
  case owed =>
    intro other hother
    change other ∈ (session.engine.submit _).2.unanswered at hother
    rw [hunanswered] at hother
    rcases List.mem_append.mp hother with hbefore | hnew
    · have hticket := hkeeps.owed other hbefore
      rw [List.append_nil] at hticket
      exact List.mem_append_left _ hticket
    · rw [List.mem_singleton.mp hnew]
      exact List.mem_append_right _ List.mem_cons_self

private theorem place_error {error : EngineError}
    (hreply : errand.reply (session.engine, session.book) = .error error) :
    if (errand.refusal error).isFatal then agenda.place errand = .error (errand.refusal error)
    else ∃ next, agenda.place errand = .ok next ∧
      Keeps next (session.withWorker (errand.place (session.engine, session.book))).failedOnce [] := by
  obtain ⟨hstate, hsame⟩ := hkeeps.exists_turns_place errand
  have hunanswered := Engine.submit_refused hkeeps.listening hreply
  have hplace : agenda.place errand = { agenda with state := errand.place agenda.state }.refuse (errand.refusal error) := by
    simp only [Agenda.place, ← hsame, hreply]
  rw [hplace, Agenda.refuse]
  split_ifs
  · rfl
  let next : Agenda := { agenda with state := errand.place agenda.state, refused := agenda.refused + 1 }
  have hplaced : next.state = errand.place agenda.state := rfl
  have hlater := hkeeps.failures_place hplaced hkeeps.known
  have hbefore := hkeeps.failures_place hplaced hkeeps.accepted
  refine ⟨next, rfl, ?_⟩
  constructor
  case order => exact hkeeps.order.place errand
  case state => exact hstate
  case statements => exact hkeeps.statements
  case failures =>
    have hfailures := hkeeps.failures
    show session.summary.failures + 1 + next.failures (session.background.map Pending.ticket ++ []) =
      agenda.refused + 1 + next.failures agenda.tickets + session.sink.refused.length
    rw [hlater, hbefore]
    omega
  case unrefused => exact hkeeps.unrefused
  case accepted => exact fun ticket hticket => mem_tickets_place (hkeeps.accepted ticket hticket)
  case known => exact fun ticket hticket => mem_tickets_place (hkeeps.known ticket hticket)
  case owed =>
    intro other hother
    change other ∈ (session.engine.submit _).2.unanswered at hother
    rw [hunanswered] at hother
    exact hkeeps.owed other hother

end Place

theorem answered_awaited (hkeeps : Keeps agenda session (ticket :: extra)) (pace : Pace) :
    ∃ result, (session.awaited pace ticket).engine.answer? ticket = some result := by
  obtain ⟨number, hnumber⟩ := hkeeps.state
  have horder : Book.InOrder (session.engine, session.book) := hnumber ▸ hkeeps.order.turns number
  refine Session.answered_awaited horder.working horder.numbered ?_ pace
  have hknown := hkeeps.known ticket (List.mem_append_right _ List.mem_cons_self)
  have htickets := Book.tickets_turns number hknown
  rw [← hnumber] at htickets
  exact htickets

end Keeps

open Session

variable {pace : Pace} {failed : ShellError → Session → Prop}

theorem leads_pause {done : Unit → Session → Prop} (hkeeps : Keeps agenda session extra)
    (hdone : ∀ after, after.background = session.background → Keeps agenda after extra → done () after) :
    Leads (pause pace) session done failed := by
  obtain ⟨number, hnumber⟩ := Host.turnUntil_eq_turns Book.host Engine.isSettled (pace.turns session)
    (session.engine, session.book)
  exact leads_of_run (run_pause pace session) rfl (hdone _ rfl (hkeeps.turns hnumber rfl rfl rfl))

theorem leads_await {done : ActionResult → Session → Prop} (hkeeps : Keeps agenda session (ticket :: extra))
    (hdone : ∀ result after, after.background = session.background →
      Keeps agenda (if Outcome.succeeded result then after else after.failedOnce) extra → done result after) :
    Leads (await pace ticket) session done failed := by
  obtain ⟨number, hnumber⟩ := exists_turns_awaited pace ticket session
  obtain ⟨result, hresult⟩ := hkeeps.answered_awaited pace
  have hlater : Keeps agenda (session.awaited pace ticket) (ticket :: extra) := hkeeps.turns hnumber rfl rfl rfl
  refine leads_of_run (run_await pace ticket session) rfl (hdone _ _ rfl ?_)
  rw [hresult]
  exact hlater.drop hresult

/-- Reporting a job writes a line, or gives the error for which it is counted among the failures. -/
theorem leads_report {label : String} {result : ActionResult} {done : Unit → Session → Prop}
    (hkeeps : Keeps agenda (if Outcome.succeeded result then session else session.failedOnce) extra)
    (hdone : ∀ after, after.background = session.background → Keeps agenda after extra → done () after)
    (hfailed : ∀ error, error.isFatal = false → Keeps agenda session.failedOnce extra → failed error session) :
    Leads (Session.report label result) session done failed := by
  unfold Session.report
  refine leads_bind (leads_expect ?_ ?_)
  · rintro value rfl
    exact leads_write fun _ => hdone _ rfl (Keeps.wrote hkeeps _)
  · rintro error rfl
    exact hfailed _ rfl hkeeps

private theorem leads_settleJob {inBackground : Bool} {label : String} {done : Unit → Session → Prop}
    (hkeeps : Keeps agenda session [ticket]) (hdone : ∀ after, Keeps agenda after [] → done () after)
    (hfailed : ∀ error after, error.isFatal = false → Keeps agenda after.failedOnce [] → failed error after) :
    Leads (settleJob pace inBackground label ticket) session done failed := by
  unfold settleJob
  split_ifs
  · have hdeferred : Keeps agenda { session with background := session.background ++ [⟨label, ticket⟩] } [] :=
      hkeeps.sort (by simp)
    exact leads_of_run (run_defer _ session) rfl (hdone _ hdeferred)
  · refine leads_bind (leads_await hkeeps fun result after _ hafter => ?_)
    exact leads_report hafter (fun last _ hlast => hdone last hlast) fun error hfatal hlast => hfailed error after hfatal hlast

private theorem leads_reportEach {pending : List Pending} {done : Unit → Session → Prop}
    (hkeeps : Keeps agenda session (pending.map Pending.ticket))
    (hdone : ∀ after, after.background = session.background → Keeps agenda after [] → done () after) :
    Leads (reportEach pace pending) session done failed := by
  induction pending generalizing session with
  | nil => exact leads_pure (hdone session rfl hkeeps)
  | cons first rest ih =>
    have hgo : ∀ between, between.background = session.background →
        Keeps agenda between (rest.map Pending.ticket) → Leads (reportEach pace rest) between done failed := by
      intro between hbackground hbetween
      exact ih hbetween fun after hsame => hdone after (hsame.trans hbackground)
    unfold reportEach
    refine leads_bind (leads_await hkeeps fun result between hbackground hbetween => ?_)
    refine leads_bind (leads_attempt_report ?_ ?_ ?_)
    · rintro value rfl
      exact hgo _ hbackground (Keeps.wrote hbetween _)
    · rintro value reason rfl hreason
      exact leads_bind (leads_fail fun hnext => hgo _ hbackground (Keeps.spoilt hbetween hreason hnext _))
    · rintro error rfl
      exact leads_bind (leads_fail fun _ => hgo _ hbackground (Keeps.wrote hbetween _))

theorem leads_collect {done : Unit → Session → Prop} (hkeeps : Keeps agenda session [])
    (hdone : ∀ after, after.background = [] → Keeps agenda after [] → done () after) :
    Leads (collect pace) session done failed := by
  unfold collect
  apply leads_get
  have hopened : Keeps agenda { session with background := [] } (session.background.map Pending.ticket) :=
    hkeeps.sort (by simp)
  exact leads_bind (leads_of_run rfl rfl (leads_reportEach hopened hdone))

/-! ### Statements -/

def Agrees (planned : Except ShellError Agenda) (after : Session) : Prop :=
  ∃ next, planned = .ok next ∧ Keeps next after []

/-- The same when a statement has failed: either this ends the script, or it is still to be counted. -/
def AgreesOnFailure (planned : Except ShellError Agenda) (error : ShellError) (after : Session) : Prop :=
  if error.isFatal then planned = .error error else Agrees planned after.failedOnce

theorem agreesOnFailure_refuse (hkeeps : Keeps agenda session []) (error : ShellError) :
    AgreesOnFailure (agenda.refuse error) error session := by
  unfold AgreesOnFailure Agenda.refuse
  split_ifs
  · rfl
  refine ⟨_, rfl, { hkeeps with failures := ?_ }⟩
  have hfailures := hkeeps.failures
  show session.summary.failures + 1 + agenda.failures (session.background.map Pending.ticket ++ []) =
    agenda.refused + 1 + agenda.failures agenda.tickets + session.sink.refused.length
  omega

theorem leads_reply (errand : Errand) {done : Ticket → Session → Prop} (hkeeps : Keeps agenda session [])
    (hdone : ∀ ticket next after, agenda.place errand = .ok next → Keeps next after [ticket] → done ticket after)
    (hfailed : ∀ error after, AgreesOnFailure (agenda.place errand) error after → failed error after) :
    Leads (expect errand.refusal (errand.reply (session.engine, session.book)))
      (session.withWorker (errand.place (session.engine, session.book))) done failed := by
  refine leads_expect (fun ticket hreply => ?_) (fun error hreply => ?_)
  · obtain ⟨next, hplace, hnext⟩ := hkeeps.place_ok hreply
    exact hdone ticket next _ hplace hnext
  · exact hfailed _ _ (hkeeps.place_error hreply)

theorem leads_settleJob_agrees {inBackground : Bool} {label : String} {planned : Except ShellError Agenda} {next : Agenda}
    (hplanned : planned = .ok next) (hnext : Keeps next session [ticket]) :
    Leads (settleJob pace inBackground label ticket) session (fun _ after => Agrees planned after)
      (fun error after => AgreesOnFailure planned error after) := by
  refine leads_settleJob hnext (fun after hafter => ⟨next, hplanned, hafter⟩) fun error after hfatal hafter => ?_
  rw [AgreesOnFailure, hfatal]
  exact ⟨next, hplanned, hafter⟩

private theorem leads_submitMove {inBackground : Bool} {label : String} {names : Option String}
    {request : Option Scope → Request} {planned : Except ShellError Agenda} (errand : Option Scope → Errand)
    (hkeeps : Keeps agenda session []) (hrequest : ∀ filter book, (errand filter).request book = request filter)
    (hwritten : ∀ filter book, (errand filter).written book = book)
    (hnone : (errand none).refusal = .engine) (hsome : ∀ filter, (errand (some filter)).refusal = .ofScopeLookup)
    (hplanned : planned = match names with
      | none => agenda.place (errand none)
      | some names => match agenda.state.1.registry.scopeOfText names with
        | .error error => agenda.refuse (.ofScopeLookup error)
        | .ok filter => agenda.place (errand (some filter))) :
    Leads (submitMove pace inBackground label names request) session (fun _ after => Agrees planned after)
      (fun error after => AgreesOnFailure planned error after) := by
  have hask : ∀ filter, (errand filter).place (session.engine, session.book) =
      ((session.engine.submit (request filter)).2, session.book) := by
    intro filter
    rw [Errand.place, hrequest, hwritten]
  have hreply : ∀ filter, (errand filter).reply (session.engine, session.book) =
      (session.engine.submit (request filter)).1 := by
    intro filter
    rw [Errand.reply, hrequest]
  have hlead : ∀ filter, planned = agenda.place (errand filter) →
      Leads (expect (errand filter).refusal (session.engine.submit (request filter)).1 >>= fun ticket =>
          settleJob pace inBackground label ticket)
        { session with engine := (session.engine.submit (request filter)).2 }
        (fun _ after => Agrees planned after) (fun error after => AgreesOnFailure planned error after) := by
    intro filter hfilter
    have hstate : { session with engine := (session.engine.submit (request filter)).2 } =
        session.withWorker ((errand filter).place (session.engine, session.book)) := by
      rw [hask]
      rfl
    rw [hstate, ← hreply]
    exact leads_bind (leads_reply (errand filter) hkeeps
      (fun ticket next after hnext hafter => leads_settleJob_agrees (hfilter.trans hnext) hafter)
      fun error after hafter => hfilter ▸ hafter)
  unfold submitMove
  cases names with
  | none =>
    have hplaced := hlead none hplanned
    rw [hnone] at hplaced
    exact leads_bind (leads_of_run (run_call _ session) rfl hplaced)
  | some names =>
    refine leads_bind (leads_of_run (run_call _ session) rfl ?_)
    dsimp only at hplanned ⊢
    rw [← hkeeps.registry_eq] at hplanned
    unfold Engine.submitIn
    cases hscope : session.engine.registry.scopeOfText names with
    | error error =>
      rw [hscope] at hplanned
      exact leads_bind (leads_throw (hplanned ▸ agreesOnFailure_refuse hkeeps _))
    | ok filter =>
      rw [hscope] at hplanned
      have hplaced := hlead (some filter) hplanned
      rw [hsome] at hplaced
      exact hplaced

private theorem leads_submitPosting {inBackground : Bool} {posting : Posting} {planned : Except ShellError Agenda}
    (hkeeps : Keeps agenda session [])
    (hplanned : planned = match agenda.state.1.registry.scope posting.account.scope with
      | .error error => agenda.refuse (.ofScopeLookup error)
      | .ok scope => agenda.place (.post posting scope)) :
    Leads (submitPosting pace inBackground posting) session (fun _ after => Agrees planned after)
      (fun error after => AgreesOnFailure planned error after) := by
  rw [← hkeeps.registry_eq] at hplanned
  unfold submitPosting
  refine leads_bind ?_
  unfold scopeNamed
  apply leads_get
  refine leads_expect (fun scope hscope => ?_) (fun error hscope => ?_)
  swap
  · rw [hscope] at hplanned
    exact hplanned ▸ agreesOnFailure_refuse hkeeps _
  rw [hscope] at hplanned
  apply leads_get
  refine leads_bind (leads_of_run rfl rfl ?_)
  refine leads_bind (leads_of_run (run_call _ _) rfl ?_)
  refine leads_bind (leads_reply (.post posting scope) hkeeps (fun ticket next after hnext hafter => ?_)
    (fun error after hafter => by rw [hplanned]; exact hafter))
  have hsettle : ∀ after, Keeps next after [ticket] →
      Leads (settleJob pace inBackground (session.book.write posting scope).2.text ticket) after
        (fun _ last => Agrees planned last) (fun error last => AgreesOnFailure planned error last) :=
    fun after hafter => leads_settleJob_agrees (hplanned.trans hnext) hafter
  split_ifs
  · exact leads_bind (leads_write fun _ => hsettle _ (Keeps.wrote hafter _))
  · exact hsettle after hafter

theorem leads_writeAll {lines : List String} {done : Unit → Session → Prop} (hkeeps : Keeps agenda session [])
    (hdone : ∀ after, Keeps agenda after [] → done () after) : Leads (writeAll lines) session done failed := by
  induction lines generalizing session with
  | nil => exact leads_pure (hdone session hkeeps)
  | cons line rest ih =>
    unfold writeAll
    exact leads_bind (leads_write fun _ => ih (Keeps.wrote hkeeps _))

private theorem leads_writeHistory {done : Unit → Session → Prop} (hkeeps : Keeps agenda session [])
    (hdone : ∀ after, Keeps agenda after [] → done () after) : Leads (writeHistory pace) session done failed := by
  unfold writeHistory
  apply leads_get
  refine leads_bind (leads_pause hkeeps fun first _ hfirst => ?_)
  apply leads_get
  refine leads_bind (leads_pause hfirst fun second _ hsecond => ?_)
  apply leads_get
  refine leads_bind (leads_write fun _ => ?_)
  refine leads_bind (leads_pause (Keeps.wrote hsecond _) fun third _ hthird => ?_)
  apply leads_get
  exact leads_writeAll hthird hdone

/-- **A statement takes a session to where it takes the agenda**, whether it is waited for or not and whatever
the worker does meanwhile. -/
theorem leads_perform {statement : Statement} (hkeeps : Keeps agenda session []) (hlater : statement.actsAtOnce = false)
    (inBackground : Bool) :
    Leads (perform pace statement inBackground) session (fun _ after => Agrees (agenda.take statement) after)
      (fun error after => AgreesOnFailure (agenda.take statement) error after) := by
  have hposting : ∀ posting : Posting, (∀ registry, statement.errand? registry =
      Statement.errand?.posting registry posting.account.scope posting) →
      Leads (submitPosting pace inBackground posting) session (fun _ after => Agrees (agenda.take statement) after)
        (fun error after => AgreesOnFailure (agenda.take statement) error after) := by
    intro posting herrand
    refine leads_submitPosting hkeeps ?_
    rw [Agenda.take, herrand, Statement.errand?.posting]
    cases agenda.state.1.registry.scope posting.account.scope <;> rfl
  have hquiet : agenda.take statement = .ok agenda → ∀ after, Keeps agenda after [] →
      Agrees (agenda.take statement) after := fun htake after hafter => ⟨agenda, htake, hafter⟩
  cases statement with
  | set scope account value => exact hposting (.set ⟨scope, account⟩ value) fun _ => rfl
  | add scope account delta => exact hposting (.add ⟨scope, account⟩ delta) fun _ => rfl
  | get scope account => exact hposting (.get ⟨scope, account⟩) fun _ => rfl
  | undo names =>
    refine leads_submitMove .undo hkeeps (fun _ _ => rfl) (fun _ _ => rfl) rfl (fun _ => rfl) ?_
    cases names with
    | none => rfl
    | some names =>
      rw [Agenda.take, Statement.errand?, Statement.errand?.among]
      dsimp only
      cases agenda.state.1.registry.scopeOfText names <;> rfl
  | redo names =>
    refine leads_submitMove .redo hkeeps (fun _ _ => rfl) (fun _ _ => rfl) rfl (fun _ => rfl) ?_
    cases names with
    | none => rfl
    | some names =>
      rw [Agenda.take, Statement.errand?, Statement.errand?.among]
      dsimp only
      cases agenda.state.1.registry.scopeOfText names <;> rfl
  | jump index =>
    refine leads_bind (leads_of_run (run_call _ session) rfl ?_)
    exact leads_bind (leads_reply (.jump (index.map UInt64.toNat)) hkeeps
      (fun ticket next after hnext hafter => leads_settleJob_agrees hnext hafter) fun error after hafter => hafter)
  | stack id => cases hlater
  | limit number => cases hlater
  | clear => cases hlater
  | history => exact leads_writeHistory hkeeps (hquiet rfl)
  | queued names =>
    apply leads_get
    have htake : agenda.take (.queued names) =
        match session.engine.registry.scopeOfText (names.getD Scope.wildcardName) with
        | .error error => agenda.refuse (.ofScopeLookup error)
        | .ok _ => .ok agenda := by
      rw [hkeeps.registry_eq, Agenda.take, Statement.errand?, Statement.errand?.among]
      cases agenda.state.1.registry.scopeOfText (names.getD Scope.wildcardName) <;> rfl
    refine leads_bind (leads_expect (fun texts htexts => ?_) (fun error htexts => ?_))
    · refine leads_write fun _ => hquiet ?_ _ (Keeps.wrote hkeeps _)
      unfold Engine.queuedTextsIn at htexts
      cases hscope : session.engine.registry.scopeOfText (names.getD Scope.wildcardName) with
      | error error =>
        rw [hscope] at htexts
        cases htexts
      | ok filter => rw [htake, hscope]
    · unfold Engine.queuedTextsIn at htexts
      cases hscope : session.engine.registry.scopeOfText (names.getD Scope.wildcardName) with
      | error cause =>
        rw [hscope] at htexts
        obtain rfl : cause = error := Except.error.inj htexts
        rw [htake, hscope]
        exact agreesOnFailure_refuse hkeeps _
      | ok filter =>
        rw [hscope] at htexts
        cases htexts
  | wait => exact leads_collect hkeeps fun after _ hafter => hquiet rfl after hafter
  | balances =>
    apply leads_get
    exact leads_writeAll hkeeps (hquiet rfl)
  | scopes =>
    apply leads_get
    exact leads_write fun _ => hquiet rfl _ (Keeps.wrote hkeeps _)

/-! ### Scripts -/

private theorem leads_runLine {line : ScriptLine} (hkeeps : Keeps agenda session [])
    (hlater : line.statement.actsAtOnce = false) :
    Leads (runLine pace line) session (fun _ after => Agrees (agenda.note line.statement) after)
      (fun error _ => agenda.note line.statement = .error error) := by
  have hcounted : Keeps { agenda with statements := agenda.statements + 1 }
      { session with summary := { session.summary with statements := session.summary.statements + 1 } } [] :=
    { hkeeps with statements := congrArg (· + 1) hkeeps.statements }
  unfold runLine
  refine leads_bind (leads_of_run (run_count session) rfl ?_)
  refine leads_bind (leads_pause hcounted fun between _ hbetween => ?_)
  refine leads_bind (leads_attempt (leads_mono (leads_perform hbetween hlater _) (fun _ after hafter => ?_)
    (fun error after hafter => ?_)) fun error after hsame hbreaks => ?_)
  · exact leads_pure hafter
  · unfold AgreesOnFailure at hafter
    dsimp only
    split_ifs with hfatal
    · rw [if_pos hfatal] at hafter
      exact leads_throw hafter
    · rw [if_neg hfatal] at hafter
      obtain ⟨next, hnext, hlast⟩ := hafter
      exact leads_fail fun _ => ⟨next, hnext, Keeps.wrote hlast _⟩
  · dsimp only
    rw [if_pos hbreaks.isFatal]
    exact leads_break (hsame ▸ hbreaks)

theorem Agenda.noteAll_cons (agenda : Agenda) (statement : Statement) (rest : List Statement) :
    agenda.noteAll (statement :: rest) = agenda.note statement >>= fun next => next.noteAll rest :=
  rfl

private theorem leads_runLines {lines : List ScriptLine} (hkeeps : Keeps agenda session [])
    (hlater : ∀ line ∈ lines, line.statement.actsAtOnce = false) :
    Leads (runLines pace lines) session
      (fun _ after => Agrees (agenda.noteAll (lines.map ScriptLine.statement)) after)
      (fun error _ => agenda.noteAll (lines.map ScriptLine.statement) = .error error) := by
  induction lines generalizing agenda session with
  | nil => exact leads_pure ⟨agenda, rfl, hkeeps⟩
  | cons line rest ih =>
    unfold runLines
    rw [List.map_cons, Agenda.noteAll_cons]
    refine leads_bind (leads_mono (leads_runLine hkeeps (hlater line List.mem_cons_self)) ?_ ?_)
    · rintro - between ⟨next, hnext, hbetween⟩
      rw [hnext]
      exact ih hbetween fun line hline => hlater line (List.mem_cons_of_mem _ hline)
    · intro error _ herror
      rw [herror]
      rfl

/-- Once nothing is left for later, the worker is done and every failure has been counted. -/
theorem Keeps.outcome (hkeeps : Keeps agenda session []) (hempty : session.background = []) :
    (session.sink.writer.IsLasting → session.summary = agenda.summary) ∧
      (session.engine, session.book) = Book.settled agenda.state := by
  have hfailures := hkeeps.failures
  have howed := hkeeps.owed
  rw [hempty] at hfailures howed
  have hnothing : session.engine.unanswered = [] :=
    List.eq_nil_iff_forall_not_mem.mpr fun job hjob => List.not_mem_nil (howed job hjob)
  constructor
  · intro hlasting
    rw [hkeeps.unrefused hlasting] at hfailures
    have hsummary : session.summary = ⟨session.summary.statements, session.summary.failures⟩ := rfl
    have hcount : session.summary.failures = agenda.refused + agenda.failures agenda.tickets := hfailures
    rw [hsummary, hcount, hkeeps.statements]
    rfl
  · obtain ⟨number, hnumber⟩ := hkeeps.state
    rw [hnumber]
    refine hkeeps.order.eq_settled ?_
    rw [← hnumber]
    exact Engine.isSettled_of_unanswered hnothing

private theorem leads_runScript {lines : List ScriptLine} (hkeeps : Keeps agenda session [])
    (hlater : ∀ line ∈ lines, line.statement.actsAtOnce = false) :
    Leads (runScript pace lines) session
      (fun summary after => ∃ next, agenda.noteAll (lines.map ScriptLine.statement) = .ok next ∧
        (after.sink.writer.IsLasting → summary = next.summary) ∧ (after.engine, after.book) = Book.settled next.state)
      (fun error _ => agenda.noteAll (lines.map ScriptLine.statement) = .error error) := by
  unfold runScript
  refine leads_bind (leads_mono (leads_runLines hkeeps hlater) ?_ fun error _ herror => herror)
  rintro - between ⟨next, hnext, hbetween⟩
  refine leads_bind (leads_collect hbetween fun after hempty hafter => ?_)
  apply leads_get
  obtain ⟨hsummary, hsettled⟩ := hafter.outcome hempty
  exact leads_pure ⟨next, hnext, hsummary, hsettled⟩

theorem keeps_start {engine : Engine} (hfresh : engine.Fresh) (writer : Writer) :
    Keeps (Agenda.start engine) (Session.start engine writer) [] where
  order := {
    working := hfresh.working
    numbered := hfresh.numbered
    listening := by
      obtain ⟨registry, routes, defaultStack, limit, capacity, rfl⟩ := hfresh
      rfl
    below := hfresh.below _ }
  state := ⟨0, rfl⟩
  statements := rfl
  failures := rfl
  unrefused := fun _ => rfl
  accepted := nofun
  known := nofun
  owed := by
    obtain ⟨registry, routes, defaultStack, limit, capacity, rfl⟩ := hfresh
    exact nofun

/-- **Background submission does not change the outcome.** Two scripts with the same statements, none of them a
`clear`, `stack` or `limit`, whatever their marks and however the worker is paced in each: if one of them runs to
its end, so does the other, unless its sink takes no more lines, and both leave the same summary, the same engine
and the same book. -/
theorem Session.run_eq_of_statements_eq {engine : Engine} (hfresh : engine.Fresh) {first second : List ScriptLine}
    (hsame : first.map ScriptLine.statement = second.map ScriptLine.statement)
    (hlater : ∀ line ∈ first, line.statement.actsAtOnce = false) (pace other : Pace) (capacity room : Option Nat)
    {summary : Summary} {last : Session}
    (hrun : run pace first (Session.start engine (.upTo capacity)) = (.ok summary, last))
    (hopen : room = none ∨ (run other second (Session.start engine (.upTo room))).1 ≠ .error (.inputOutput Writer.closed)) :
    ∃ final, run other second (Session.start engine (.upTo room)) = (.ok summary, final) ∧ final.engine = last.engine ∧
      final.book = last.book := by
  have hlaterSecond : ∀ line ∈ second, line.statement.actsAtOnce = false := by
    intro line hline
    have hmem : line.statement ∈ first.map ScriptLine.statement := hsame ▸ List.mem_map_of_mem hline
    obtain ⟨twin, htwin, hstatement⟩ := List.mem_map.mp hmem
    exact hstatement ▸ hlater twin htwin
  -- both runs are compared with the agenda of their common statements
  have hleft := @leads_runScript _ _ pace _ (keeps_start hfresh (.upTo capacity)) hlater
  have hright := @leads_runScript _ _ other _ (keeps_start hfresh (.upTo room)) hlaterSecond
  unfold run at hrun hopen ⊢
  unfold Leads at hleft hright
  rw [hrun] at hleft
  obtain ⟨hwriter, next, hnext, hsummary, hlast⟩ := hleft
  obtain rfl := hsummary (hwriter.symm ▸ Writer.isLasting_upTo capacity)
  rcases hother : (runScript other second).run (Session.start engine (.upTo room)) with ⟨error | summary, final⟩
  · rw [hother] at hright hopen
    obtain ⟨-, hbreaks | herror⟩ := hright
    · obtain ⟨hroom, rfl⟩ := Writer.breaks_upTo hbreaks
      exact absurd rfl (hopen.resolve_left hroom)
    · rw [← hsame, hnext] at herror
      cases herror
  · rw [hother] at hright
    obtain ⟨hwriter, twin, htwin, hsummary, hfinal⟩ := hright
    rw [← hsame, hnext] at htwin
    obtain rfl := Except.ok.inj htwin
    obtain rfl := hsummary (hwriter.symm ▸ Writer.isLasting_upTo room)
    have hstate := hfinal.trans hlast.symm
    exact ⟨final, rfl, congrArg Prod.fst hstate, congrArg Prod.snd hstate⟩

def tellerEngine : Engine := Engine.start ⟨["eu"]⟩ [] Engine.sampleStack 0 16

/-- A script of which two jobs fail, with every line submitted in the same way. -/
def sampleLines (inBackground : Bool) : List ScriptLine :=
  [.set "eu" "cash" 7, .add "eu" "cash" 5, .get "eu" "bank", .undo (some "eu"), .wait, .redo none, .redo none].map
    fun statement => ⟨1, statement, inBackground⟩

set_option maxRecDepth 100000 in
theorem Session.run_eq_of_statements_eq_sample :
    (run Pace.eager (sampleLines false) (start tellerEngine (.upTo none))).1 = .ok ⟨7, 2⟩ ∧
      ∃ final, run (Pace.held 3) (sampleLines true) (start tellerEngine (.upTo none)) = (.ok ⟨7, 2⟩, final) ∧
        final.engine = (run Pace.eager (sampleLines false) (start tellerEngine (.upTo none))).2.engine ∧
        final.book = (run Pace.eager (sampleLines false) (start tellerEngine (.upTo none))).2.book := by
  have hsummary : (run Pace.eager (sampleLines false) (start tellerEngine (.upTo none))).1 = .ok ⟨7, 2⟩ := by decide +kernel
  have hrun : run Pace.eager (sampleLines false) (start tellerEngine (.upTo none)) =
      (.ok ⟨7, 2⟩, (run Pace.eager (sampleLines false) (start tellerEngine (.upTo none))).2) := by
    rw [← hsummary]
  have hsame : (sampleLines false).map ScriptLine.statement = (sampleLines true).map ScriptLine.statement := rfl
  have hlater : ∀ line ∈ sampleLines false, line.statement.actsAtOnce = false := by decide
  exact ⟨hsummary, run_eq_of_statements_eq ⟨_, _, _, _, _, rfl⟩ hsame hlater _ _ _ _ hrun (.inl rfl)⟩

end Retrace
