import Retrace.Proofs.Awaited

/-!
# What the balances come to

In a script whose every line is waited for, and in which each account is written by the commands of one stack only,
the balances are known from the stacks: they are those from before the oldest command of the account's stack,
followed by what the applied commands of that stack make of them.
-/

namespace Retrace

def Owned (owner : Account → StackId) (engine : Engine) (book : Book) : Prop :=
  ∀ stack ∈ engine.history.stackList, ∀ command ∈ stack.commands, ∀ entry ∈ book.entries[command.id]?,
    owner entry.posting.account = stack.id

instance (owner : Account → StackId) (engine : Engine) (book : Book) : Decidable (Owned owner engine book) :=
  inferInstanceAs (Decidable (∀ stack ∈ engine.history.stackList, ∀ command ∈ stack.commands,
    ∀ entry ∈ book.entries[command.id]?, owner entry.posting.account = stack.id))

variable {owner : Account → StackId} {sheet : CommandId → Account → Option Int} {engine : Engine} {book : Book}
  {state after : Engine × Book} {id : StackId} {command : Command} {entry : Entry}

private theorem Owned.account_eq (howned : Owned owner engine book) (hmem : command ∈ engine.history.line id)
    (hentry : book.entries[command.id]? = some entry) : owner entry.posting.account = id := by
  unfold History.line History.past History.future at hmem
  cases hstack : engine.history.stack? id with
  | none =>
    rw [hstack] at hmem
    cases hmem
  | some stack =>
    rw [hstack] at hmem
    have hcommand : command ∈ stack.commands := by
      rw [← stack.appliedCommands_append_redoCommands]
      exact hmem
    rw [← History.id_of_stack? hstack]
    exact howned stack (History.mem_of_stack? hstack) command hcommand entry hentry

/-! ### Statements keep the books -/

/-- At rest every stack has its tally, and no undo or redo has failed. -/
structure Kept (owner : Account → StackId) (sheet : CommandId → Account → Option Int) (state : Engine × Book) :
    Prop where
  settled : state.1.isSettled = true
  faultless : state.1.Faultless
  tallied : ∃ reference, Follows state.1 reference ∧ reference.Tallied owner sheet state.2

/-- Where the audit of the reference machine finds no failure, there the engine goes, and it announces none. -/
theorem leads_of_audit {reference next : Reference} {last : Book} (directive : Directive)
    (hsettled : engine.isSettled = true) (hfaultless : engine.Faultless) (hfollows : Follows engine reference)
    (hmachine : Reference.carryOut Book.host.audited (reference, book, true) directive = (next, last, true)) :
    (Book.host.carryOut (engine, book) directive).1.isSettled = true ∧
      (Book.host.carryOut (engine, book) directive).1.Faultless ∧
      Follows (Book.host.carryOut (engine, book) directive).1 next ∧
      (Book.host.carryOut (engine, book) directive).2 = last := by
  have hrests : Rests (engine, (book, true)) (reference, (book, true)) :=
    ⟨(Engine.idle_of_isSettled hsettled).1, hfollows, rfl⟩
  have hafter := hrests.directive Book.host.audited directive
  obtain ⟨mark, haudited⟩ := @Host.carryOut_audited _ Book.host (engine, book) true directive
  have hannounced := @Host.faultless_carryOut _ Book.host _ hfaultless (book, true) directive
  rw [hmachine, haudited] at hafter
  rw [haudited] at hannounced
  obtain ⟨hlast, hmark⟩ := Prod.mk.inj hafter.world
  exact ⟨hafter.settled, hannounced hmark, hafter.follows, hlast⟩

namespace Kept

theorem sheets (hkept : Kept owner sheet state) : Kept owner (state.2.sheets sheet) state := by
  obtain ⟨reference, hfollows, htallied⟩ := hkept.tallied
  exact ⟨hkept.settled, hkept.faultless, reference, hfollows, htallied.sheets⟩

theorem congr (hkept : Kept owner sheet state) {other : CommandId → Account → Option Int}
    (hsame : ∀ number, number < state.2.entries.length → other number = sheet number) : Kept owner other state := by
  obtain ⟨reference, hfollows, htallied⟩ := hkept.tallied
  refine ⟨hkept.settled, hkept.faultless, reference, hfollows, fun id => ?_⟩
  exact (htallied id).congr fun command hmem => hsame _ ((htallied id).id_lt hmem)

private theorem exact_eq_replay (hkept : Kept owner sheet state) (account : Account) :
    state.2.ledger.exact account = state.2.replay (state.1.history.past (owner account)) account
      (match (state.1.history.line (owner account)).head? with
        | none => state.2.ledger.exact account
        | some oldest => sheet oldest.id account) := by
  obtain ⟨reference, hfollows, htallied⟩ := hkept.tallied
  rw [History.line, hfollows.past, hfollows.future]
  cases holdest : (reference.past (owner account) ++ reference.future (owner account)).head? with
  | none =>
    obtain ⟨hpast, -⟩ := List.append_eq_nil_iff.mp (List.head?_eq_none_iff.mp holdest)
    rw [hpast]
    rfl
  | some oldest => exact (htallied (owner account)).exact_eq_replay holdest rfl

theorem directive (hkept : Kept owner sheet state) {directive : Directive}
    (hnew : ∀ command, directive ≠ .request (.execute command)) :
    Kept owner sheet (Book.host.carryOut state directive) := by
  obtain ⟨reference, hfollows, htallied⟩ := hkept.tallied
  obtain ⟨next, last, hmachine, hnext⟩ := htallied.carryOut hnew
  obtain ⟨hsettled, hfaultless, hafter, hlast⟩ := leads_of_audit _ hkept.settled hkept.faultless hfollows hmachine
  exact ⟨hsettled, hfaultless, next, hafter, hlast ▸ hnext⟩

theorem post (hkept : Kept owner sheet state) (posting : Posting) (scope : Scope)
    (hlast : Book.host.carryOut (state.1, (state.2.write posting scope).1)
      (.request (.execute (state.2.write posting scope).2)) = after) (howned : Owned owner after.1 after.2) :
    Kept owner (state.2.sheets sheet) after := by
  obtain ⟨reference, hfollows, htallied⟩ := hkept.tallied
  have hwritten := htallied.sheets.write posting scope
  have hentry := Book.entries_write state.2 posting scope
  have hexecute := htallied.execute posting scope
  generalize (state.2.write posting scope).2 = command at hlast hentry hexecute
  generalize (state.2.write posting scope).1 = written at hlast hentry hexecute hwritten
  by_cases haccepts : reference.accepts (.execute command) = true
  · have hmachine : Reference.carryOut Book.host.audited (reference, written, true) (.request (.execute command)) =
        ((reference.execute Book.host command written).1, (reference.execute Book.host command written).2, true) :=
      (if_pos haccepts).trans (Reference.execute_audited ..)
    obtain ⟨hsettled, hfaultless, hafter, hbook⟩ := leads_of_audit _ hkept.settled hkept.faultless hfollows hmachine
    rw [hlast] at hsettled hfaultless hafter hbook
    refine ⟨hsettled, hfaultless, _, hafter, hbook ▸ hexecute fun hmem => ?_⟩
    -- the command is on the stack of the engine too, so its account belongs there
    obtain ⟨entered, hentered, hposting⟩ :=
      @Book.posting_run written _ ⟨command, reference.stackFor command, .execute⟩ hentry
    rw [← hafter.past] at hmem
    rw [show posting = entered.posting from hposting.symm]
    refine howned.account_eq (List.mem_append_left _ hmem) ?_
    rw [hbook]
    exact hentered
  · have hmachine : Reference.carryOut Book.host.audited (reference, written, true) (.request (.execute command)) =
        (reference, written, true) := if_neg haccepts
    obtain ⟨hsettled, hfaultless, hafter, hbook⟩ := leads_of_audit _ hkept.settled hkept.faultless hfollows hmachine
    rw [hlast] at hsettled hfaultless hafter hbook
    exact ⟨hsettled, hfaultless, _, hafter, hbook ▸ hwritten⟩

/-- **A statement keeps the books**, if the accounts of recorded commands belong to their stacks. -/
theorem comes (hkept : Kept owner sheet state) (hcomes : Comes state after) (howned : Owned owner after.1 after.2) :
    Kept owner (state.2.sheets sheet) after := by
  cases hcomes with
  | nothing => exact hkept.sheets
  | placed errand =>
    rw [Book.settled_place] at howned ⊢
    cases errand with
    | post posting scope => exact hkept.post posting scope rfl howned
    | _ => exact hkept.sheets.directive fun command => by simp [Errand.request]
  | called directive hcall => exact hkept.sheets.directive fun command => hcall (.execute command)

end Kept

/-! ### Executions that fail -/

private theorem Host.error_of_failed {World : Type} {host : Host World} {run : Run}
    (hphase : engine.phase = .acting run) {world : World} (hfailed : (host.run run.step world).1 = false) :
    ∃ error, (run.job.ticket, .error error) ∈ (host.turn engine world).1.answers := by
  obtain ⟨-, -, hstill⟩ := foldl_report run.number (host.perform run.step world).reports engine
  unfold Host.run at hfailed
  unfold Host.turn
  rw [hphase]
  dsimp only at hfailed ⊢
  rw [Engine.finish_eq (hstill.trans hphase)]
  cases hresult : (host.perform run.step world).outcome.settle run.step.command.text with
  | ok value =>
    rw [hresult] at hfailed
    cases hfailed
  | error error => exact ⟨error, List.mem_append_right _ List.mem_cons_self⟩

/-- **An execution that fails** is answered with an error, and no stack has changed. -/
theorem Book.failed_execution {reference : Reference} {goal : Goal} (hfollows : Follows engine reference)
    (hsettled : engine.isSettled = true) (horder : Book.InOrder ((engine.submit (.execute command)).2, book))
    (hgoal : engine.goalFor (.execute command) = .ok goal)
    (hfailed : ∀ id, Book.host.run ⟨command, id, .execute⟩ book = (false, book)) :
    (Book.settled ((engine.submit (.execute command)).2, book)).1.history = engine.history ∧
      (Book.settled ((engine.submit (.execute command)).2, book)).2 = book ∧
      ∃ error, (Book.settled ((engine.submit (.execute command)).2, book)).1.answer? engine.nextTicket =
        some (.error error) := by
  have hexecute : goal = .execute command (engine.stackFor command) := Engine.eq_of_checked hgoal
  obtain ⟨-, hidle, -, hphase, hkept, -, -, hnow⟩ := hfollows.taken (Engine.idle_of_isSettled hsettled).1 hgoal
  generalize (engine.submit (.execute command)).2 = placed at horder hidle hphase hkept hnow ⊢
  -- the job is taken, its action is started, and the action fails
  have hfirst : Book.host.turn placed book = (placed.advance, book) :=
    Host.turn_of_no_run (by rw [hidle]; rfl) book
  have hsecond : Book.host.turn placed.advance book = (placed.advance.advance, book) :=
    Host.turn_of_no_run (by rw [hphase]; rfl) book
  obtain ⟨run, hjob, -, hstep, hstepped⟩ := Engine.stepped_execute hphase hexecute
  have hresult := hfailed (engine.stackFor command)
  rw [← hstep] at hresult
  obtain ⟨error, herror⟩ := Host.error_of_failed hstepped.phase (congrArg Prod.fst hresult)
  obtain ⟨houtside, hframed, hhistory, hending⟩ := Host.performed Book.host hstepped.phase book
  have hnot : ¬ Outcome.succeeded
      ((Book.host.perform run.step book).outcome.settle run.step.command.text) = true := by
    rw [Bool.not_eq_true]
    exact congrArg Prod.fst hresult
  rw [if_neg hnot] at hhistory hending
  have hturns : Book.host.turns 3 (placed, book) = Book.host.turn placed.advance.advance book := by
    rw [Host.turns, hfirst, Host.turns, hsecond]
    rfl
  have hqueue : (Book.host.turn placed.advance.advance book).1.queue = [] :=
    hframed.queue.trans (hstepped.framed.queue.trans hnow.queue)
  have hdone : (Book.host.turns 3 (placed, book)).1.isSettled = true := by
    rw [hturns]
    exact Host.isSettled_of_idle hending hqueue
  have hlast := (horder.turns 3).numbered
  rw [← horder.eq_settled hdone, hturns]
  rw [hturns] at hlast
  refine ⟨hhistory.trans (hstepped.history.trans hkept), houtside.trans (congrArg Prod.snd hresult), error, ?_⟩
  rw [hjob] at herror
  exact hlast.answer?_eq_some herror

/-- **A posting that does not fit** fails and changes neither the ledger nor a stack. -/
theorem Kept.refused (hkept : Kept owner sheet state) (horder : Book.InOrder state) {posting : Posting} (scope : Scope)
    (hkind : posting.kind = .mutating) (hover : ¬ posting.Fits (state.2.ledger.exact posting.account)) :
    (Book.settled ((Errand.post posting scope).place state)).1.history = state.1.history ∧
      (Book.settled ((Errand.post posting scope).place state)).2.ledger = state.2.ledger ∧
      ∀ ticket, (Errand.post posting scope).reply state = .ok ticket →
        ∃ error, (Book.settled ((Errand.post posting scope).place state)).1.answer? ticket = some (.error error) := by
  obtain ⟨reference, hfollows, -⟩ := hkept.tallied
  have hplaced := horder.place (.post posting scope)
  have hcarried := Entry.carried ⟨posting, none⟩ state.2.ledger
  generalize heffect : (⟨posting, none⟩ : Entry).carryOut state.2.ledger = effect at hcarried
  have hfailed : ∀ id, Book.host.run ⟨(state.2.write posting scope).2, id, .execute⟩ (state.2.write posting scope).1 =
      (false, (state.2.write posting scope).1) := by
    cases hcarried with
    | refused _ _ reports command reason => exact Book.run_unchanged heffect rfl rfl
    | replaced _ value hvalue => exact absurd ⟨value, hvalue⟩ hover
    | looked hquery =>
      have hmutating : (⟨posting, none⟩ : Entry).posting.kind = .mutating := hkind
      rw [hquery] at hmutating
      cases hmutating
  have hreply : (Errand.post posting scope).reply state =
      (state.1.goalFor (.execute (state.2.write posting scope).2)).map fun _ => state.1.nextTicket := by
    unfold Errand.reply
    rw [Engine.submit_eq horder.listening]
    exact if_pos hfollows.accepting
  rw [hreply]
  cases hgoal : state.1.goalFor (.execute (state.2.write posting scope).2) with
  | ok goal =>
    obtain ⟨hhistory, hbook, hanswer⟩ := Book.failed_execution hfollows hkept.settled hplaced hgoal hfailed
    refine ⟨hhistory, (congrArg Book.ledger hbook).trans rfl, ?_⟩
    rintro ticket hticket
    rw [← Except.ok.inj hticket]
    exact hanswer
  | error error =>
    -- the engine refuses the command, and there is nothing to do
    rw [hgoal] at hreply
    have hnothing : ((Errand.post posting scope).place state).1.unanswered = [] :=
      (Engine.submit_refused horder.listening hreply).trans (Engine.unanswered_of_isSettled hkept.settled)
    rw [Book.settled_of_isSettled (Engine.isSettled_of_unanswered hnothing)]
    exact ⟨(Engine.submit_frame ..).1, rfl, nofun⟩

/-! ### Jumps there and back -/

private theorem wantedBy_currentIndex (hsound : engine.history.Sound) :
    Engine.wantedBy engine.currentIndex = (engine.history.past engine.history.active).length := by
  unfold Engine.currentIndex Engine.withActive History.activeStack
  cases hstack : engine.history.stack? engine.history.active with
  | none =>
    rw [History.past_of_none hstack]
    rfl
  | some stack =>
    rw [← (hsound.holds hstack).applied_eq]
    unfold Stack.currentIndex
    dsimp only
    split_ifs with hzero
    · exact hzero.symm
    · exact Nat.succ_pred_eq_of_ne_zero hzero

/-- **Jumping to where nothing is applied and back** leaves every balance as it was. -/
theorem Kept.jump_back (hkept : Kept owner sheet state) {target : Option Nat} (htarget : target = state.1.currentIndex)
    (account : Account) :
    (Book.host.carryOut (Book.host.carryOut state (.request (.jump none))) (.request (.jump target))).2.ledger.balance?
      account = state.2.ledger.balance? account := by
  obtain ⟨reference, hfollows, htallied⟩ := hkept.tallied
  obtain ⟨there, between, hthere, hnow⟩ := htallied.jump none
  obtain ⟨hsettled, hfaultless, hfollowed, hbetween⟩ :=
    leads_of_audit (.request (.jump none)) hkept.settled hkept.faultless hfollows hthere
  rw [← hbetween] at hthere hnow
  obtain ⟨back, last, hback, -⟩ := hnow.jump target
  obtain ⟨-, -, -, hlast⟩ := leads_of_audit (.request (.jump target)) hsettled hfaultless hfollowed hback
  have hwanted : Engine.wantedBy target = (reference.past reference.active).length := by
    rw [htarget, wantedBy_currentIndex hfollows.steady.sound, hfollows.past, hfollows.active]
  have hsame := htallied.jump_back hwanted hthere hback account
  rw [← hlast] at hsame
  exact hsame

/-! ### Scripts keep the books -/

namespace Session

variable {α : Type} {pace : Pace} {session : Session} {lines : List ScriptLine}

/-- What the ledger was just before the command of a number was carried out for the first time, or what it is in
the end if no command has the number. -/
def ledgerBefore (pace : Pace) (number : CommandId) : List ScriptLine → Session → Ledger
  | [], session => session.book.ledger
  | line :: rest, session =>
    let after := ((runLine pace line).run session).2
    if number < after.book.entries.length then session.book.ledger else ledgerBefore pace number rest after

def sheetsAfter (pace : Pace) (lines : List ScriptLine) (session : Session) (sheet : CommandId → Account → Option Int) :
    CommandId → Account → Option Int :=
  fun number => if number < session.book.entries.length then sheet number else (ledgerBefore pace number lines session).exact

structure InBooks (owner : Account → StackId) (sheet : CommandId → Account → Option Int) (session : Session) : Prop where
  rest : session.AtRest
  kept : Kept owner sheet (session.engine, session.book)

private theorem InBooks.of_ends (hbooks : session.InBooks owner sheet) {action : SessionM α} {statement : Statement}
    (hends : Ends action session (statement.outcome (session.engine, session.book)))
    (howned : Owned owner (action.run session).2.engine (action.run session).2.book) :
    (action.run session).2.InBooks owner (session.book.sheets sheet) ∧
      session.book.entries.length ≤ (action.run session).2.book.entries.length := by
  have hrest := hbooks.rest.of_ends statement hends
  have hcomes := statement.comes (session.engine, session.book)
  obtain ⟨hengine, hothers⟩ := Prod.mk.inj hends
  have hstate : statement.outcome (session.engine, session.book) =
      ((action.run session).2.engine, (action.run session).2.book) :=
    Prod.ext hengine.symm (Prod.mk.inj hothers).1.symm
  rw [hstate] at hcomes
  obtain ⟨-, -, hlength⟩ := hbooks.rest.order.comes hbooks.rest.settled hcomes
  exact ⟨⟨hrest, hbooks.kept.comes hcomes howned⟩, hlength⟩

theorem sheetsAfter_cons {line : ScriptLine}
    (hlength : session.book.entries.length ≤ ((runLine pace line).run session).2.book.entries.length) :
    sheetsAfter pace (line :: lines) session sheet =
      sheetsAfter pace lines ((runLine pace line).run session).2 (session.book.sheets sheet) := by
  funext number
  unfold sheetsAfter Book.sheets
  rw [ledgerBefore]
  by_cases hold : number < session.book.entries.length
  · rw [if_pos hold, if_pos (hold.trans_le hlength), if_pos hold]
  · rw [if_neg hold, if_neg hold]
    split_ifs <;> rfl

theorem run_runLines_cons (line : ScriptLine) :
    (runLines pace (line :: lines)).run session =
      match (runLine pace line).run session with
      | (.ok _, between) => (runLines pace lines).run between
      | (.error error, between) => (.error error, between) := by
  rw [runLines, run_bind]
  rcases ((runLine pace line).run session : Except ShellError Unit × Session) with ⟨error | value, between⟩ <;> rfl

private theorem run_runLines_single (line : ScriptLine) :
    ((runLines pace [line]).run session).2 = ((runLine pace line).run session).2 := by
  rw [run_runLines_cons]
  rcases ((runLine pace line).run session : Except ShellError Unit × Session) with ⟨error | value, between⟩ <;> rfl

/-- **A script keeps the books**, if in every state that a line leads to the accounts of the recorded commands belong
to their stacks. -/
theorem InBooks.runLines (hbooks : session.InBooks owner sheet) (hwaited : ∀ line ∈ lines, line.inBackground = false)
    (howned : ∀ before, before <+: lines → Owned owner ((Session.runLines pace before).run session).2.engine
      ((Session.runLines pace before).run session).2.book) :
    ((Session.runLines pace lines).run session).2.InBooks owner (sheetsAfter pace lines session sheet) := by
  induction lines generalizing session sheet with
  | nil => exact ⟨hbooks.rest, hbooks.kept.sheets⟩
  | cons line rest ih =>
    have hends := @ends_runLine pace session hbooks.rest line (hwaited line List.mem_cons_self)
    have hfirst := howned [line] ⟨rest, rfl⟩
    rw [run_runLines_single] at hfirst
    obtain ⟨hbetween, hlength⟩ := hbooks.of_ends hends hfirst
    rw [sheetsAfter_cons hlength]
    clear hends hfirst hlength
    rcases hrun : ((runLine pace line).run session : Except ShellError Unit × Session) with ⟨error | value, between⟩
    · -- the script ends here, and no entry is made any more
      rw [hrun] at hbetween
      rw [run_runLines_cons, hrun]
      exact ⟨hbetween.rest, hbetween.kept.congr fun number hnumber => if_pos hnumber⟩
    · rw [hrun] at hbetween
      rw [run_runLines_cons, hrun]
      refine ih hbetween (fun later hlater => hwaited later (List.mem_cons_of_mem _ hlater)) fun before hbefore => ?_
      have hlater := howned (line :: before) (List.cons_prefix_cons.mpr ⟨rfl, hbefore⟩)
      rw [run_runLines_cons, hrun] at hlater
      exact hlater

/-! ### What holds while the books are kept -/

def performed (pace : Pace) (statement : Statement) (session : Session) : Session :=
  ((perform pace statement false).run session).2

theorem performed_eq (hrest : session.AtRest) (statement : Statement) :
    (session.performed pace statement).AtRest ∧
      ((session.performed pace statement).engine, (session.performed pace statement).book) =
        statement.outcome (session.engine, session.book) := by
  have hends := @ends_perform pace session hrest statement
  obtain ⟨hengine, hothers⟩ := Prod.mk.inj hends
  exact ⟨hrest.of_ends statement hends, Prod.ext hengine (Prod.mk.inj hothers).1⟩

private theorem outcome_jump (index : Option UInt64) (state : Engine × Book) :
    (Statement.jump index).outcome state = Book.host.carryOut state (.request (.jump (index.map UInt64.toNat))) :=
  Book.settled_place (.jump (index.map UInt64.toNat)) state

private theorem InBooks.jump_back (hbooks : session.InBooks owner sheet) (pace : Pace) {index : Option UInt64}
    (hindex : index.map UInt64.toNat = session.engine.currentIndex) (account : Account) :
    ((session.performed pace (.jump none)).performed pace (.jump index)).book.ledger.balance? account =
      session.book.ledger.balance? account := by
  obtain ⟨hthere, hfirst⟩ := @performed_eq pace session hbooks.rest (.jump none)
  obtain ⟨-, hsecond⟩ := @performed_eq pace (session.performed pace (.jump none)) hthere (.jump index)
  rw [hfirst, outcome_jump, outcome_jump, Option.map_none] at hsecond
  have hsame := hbooks.kept.jump_back hindex account
  rw [← hsecond] at hsame
  exact hsame

private theorem InBooks.add_refused (hbooks : session.InBooks owner sheet) (pace : Pace) {scope account : String}
    {delta : Int64} (hover : ¬ (Posting.add ⟨scope, account⟩ delta).Fits (session.book.ledger.exact ⟨scope, account⟩)) :
    Fails (perform pace (.add scope account delta) false) session ∧
      (session.performed pace (.add scope account delta)).book.ledger = session.book.ledger ∧
      (session.performed pace (.add scope account delta)).engine.history = session.engine.history := by
  have hrefused := fun registered => hbooks.kept.refused hbooks.rest.order registered rfl hover
  obtain ⟨-, hstate⟩ := @performed_eq pace session hbooks.rest (.add scope account delta)
  have hsame : ((Statement.add scope account delta).outcome (session.engine, session.book)).2.ledger = session.book.ledger ∧
      ((Statement.add scope account delta).outcome (session.engine, session.book)).1.history = session.engine.history := by
    unfold Statement.outcome Statement.done Statement.errand? Statement.errand?.posting
    dsimp only
    cases session.engine.registry.scope scope with
    | error error => exact ⟨rfl, rfl⟩
    | ok registered =>
      dsimp only
      obtain ⟨hhistory, hledger, -⟩ := hrefused registered
      exact ⟨hledger, hhistory⟩
  rw [← hstate] at hsame
  dsimp only at hsame
  have hfails : Fails (submitPosting pace false (.add ⟨scope, account⟩ delta)) session :=
    fails_submitPosting hbooks.rest fun registered => (hrefused registered).2.2
  exact ⟨hfails, hsame⟩

/-! ### Sessions that have just started -/

theorem inBooks_start (hfresh : engine.Fresh) (writer : Writer) (owner : Account → StackId)
    (sheet : CommandId → Account → Option Int) : (start engine writer).InBooks owner sheet := by
  have horder := (keeps_start hfresh writer).order
  obtain ⟨registry, routes, defaultStack, limit, room, rfl⟩ := hfresh
  have hfollows := (rests_start registry routes defaultStack limit room Book.empty).follows
  exact ⟨⟨horder, rfl, rfl⟩, rfl, nofun, _, hfollows, fun id => Tally.nothing ..⟩

/-- The ledger on which a stack rests: as it was just before the oldest command of the stack was carried out for the
first time, or as it is if the stack is empty. -/
def ledgerBelow (pace : Pace) (id : StackId) (lines : List ScriptLine) (session : Session) : Ledger :=
  let last := ((runLines pace lines).run session).2
  match (last.engine.history.line id).head? with
  | none => last.book.ledger
  | some oldest => ledgerBefore pace oldest.id lines session

theorem exact_ledgerBelow (pace : Pace) (id : StackId) (lines : List ScriptLine) (engine : Engine)
    (writer : Writer) (account : Account) :
    (ledgerBelow pace id lines (start engine writer)).exact account =
      match (((runLines pace lines).run (start engine writer)).2.engine.history.line id).head? with
      | none => ((runLines pace lines).run (start engine writer)).2.book.ledger.exact account
      | some oldest => sheetsAfter pace lines (start engine writer) sheet oldest.id account := by
  unfold ledgerBelow
  dsimp only
  split
  · rfl
  · next oldest _ =>
    have hnew : ¬ oldest.id < (start engine writer).book.entries.length := Nat.not_lt_zero _
    unfold sheetsAfter
    rw [if_neg hnew]

/-- **The balances are known from the stacks.** In every run of a script whose lines are all waited for, and in which
each account is written only by commands recorded on one stack, after every line: the balance of an account is the
one from before the oldest command on its stack, followed by what the applied commands of that stack make of it in
exact integers; no undo or redo has failed; jumping to where nothing is applied and back restores every balance;
and an addition whose exact sum does not fit fails, and changes neither the ledger nor a stack. -/
theorem balances_of_applied (hfresh : engine.Fresh) (pace : Pace) (writer : Writer) {owner : Account → StackId}
    {lines : List ScriptLine} (hwaited : ∀ line ∈ lines, line.inBackground = false)
    (howned : ∀ before, before <+: lines → Owned owner ((runLines pace before).run (start engine writer)).2.engine
      ((runLines pace before).run (start engine writer)).2.book)
    {before : List ScriptLine} (hbefore : before <+: lines) :
    let session := ((runLines pace before).run (start engine writer)).2
    (∀ account, session.book.ledger.exact account =
        session.book.replay (session.engine.history.past (owner account)) account
          ((ledgerBelow pace (owner account) before (start engine writer)).exact account)) ∧
      session.engine.Faultless ∧
      (∀ index : Option UInt64, index.map UInt64.toNat = session.engine.currentIndex → ∀ account,
        ((session.performed pace (.jump none)).performed pace (.jump index)).book.ledger.balance? account =
          session.book.ledger.balance? account) ∧
      ∀ (scope account : String) (delta : Int64),
        let sum := (session.book.ledger.exact ⟨scope, account⟩).getD 0 + delta.toInt
        ¬ (-0x8000000000000000 ≤ sum ∧ sum < 0x8000000000000000) →
        Fails (perform pace (.add scope account delta) false) session ∧
          (session.performed pace (.add scope account delta)).book.ledger = session.book.ledger ∧
          (session.performed pace (.add scope account delta)).engine.history = session.engine.history := by
  intro session
  have hbooks : session.InBooks owner (sheetsAfter pace before (start engine writer) fun _ _ => none) := by
    refine (inBooks_start hfresh writer owner _).runLines (fun line hline => ?_) fun earlier hearlier => ?_
    · exact hwaited line (hbefore.subset hline)
    · exact howned earlier (hearlier.trans hbefore)
  refine ⟨fun account => ?_, hbooks.kept.faultless, fun index hindex => hbooks.jump_back pace hindex, ?_⟩
  · rw [exact_ledgerBelow]
    exact hbooks.kept.exact_eq_replay account
  intro scope account delta sum hrange
  refine hbooks.add_refused pace ?_
  rintro ⟨value, hvalue⟩
  have hsum : sum = value.toInt := Option.some.inj ((if_pos rfl).symm.trans hvalue)
  rw [hsum] at hrange
  exact hrange ⟨Int64.le_toInt value, Int64.toInt_lt value⟩

def branchEngine : Engine := Engine.start ⟨["eu", "us"]⟩ [⟨.areas 2#32, ⟨"american"⟩⟩] Engine.sampleStack 0 16

def branchOwner (account : Account) : StackId := if account.scope = "us" then ⟨"american"⟩ else Engine.sampleStack

/-- A script in which an addition overflows and the limit drops a command. -/
def branchLines : List ScriptLine :=
  [.set "eu" "cash" 3, .clear, .add "eu" "cash" 4, .add "us" "gold" 5, .add "eu" "cash" 0x7FFFFFFFFFFFFFFF, .limit 2,
    .add "eu" "cash" 1, .add "eu" "cash" 2, .undo none, .undo (some "us"), .redo (some "us"), .jump none,
    .jump (some 0)].map fun statement => ⟨1, statement, false⟩

def branchSession : Session := ((runLines Pace.eager branchLines).run (start branchEngine (.upTo none))).2

set_option maxRecDepth 100000 in
theorem balances_of_applied_sample :
    (ledgerBelow Pace.eager Engine.sampleStack branchLines (start branchEngine (.upTo none))).exact ⟨"eu", "cash"⟩ = some 7 ∧
      branchSession.book.ledger.exact ⟨"eu", "cash"⟩ =
        branchSession.book.replay (branchSession.engine.history.past Engine.sampleStack) ⟨"eu", "cash"⟩ (some 7) ∧
      branchSession.engine.Faultless ∧
      (∀ account, ((branchSession.performed Pace.eager (.jump none)).performed Pace.eager (.jump (some 0))).book.ledger.balance?
        account = branchSession.book.ledger.balance? account) ∧
      Fails (perform Pace.eager (.add "eu" "cash" 0x7FFFFFFFFFFFFFFF) false) branchSession := by
  have hwaited : ∀ line ∈ branchLines, line.inBackground = false := by decide
  have howned : ∀ before ∈ branchLines.inits,
      Owned branchOwner ((runLines Pace.eager before).run (start branchEngine (.upTo none))).2.engine
        ((runLines Pace.eager before).run (start branchEngine (.upTo none))).2.book := by decide +kernel
  have hbase : (ledgerBelow Pace.eager Engine.sampleStack branchLines (start branchEngine (.upTo none))).exact ⟨"eu", "cash"⟩ =
      some 7 := by decide +kernel
  have hindex : (some (0 : UInt64)).map UInt64.toNat = branchSession.engine.currentIndex := by decide +kernel
  have hrange : ¬ (-0x8000000000000000 ≤
        (branchSession.book.ledger.exact ⟨"eu", "cash"⟩).getD 0 + (0x7FFFFFFFFFFFFFFF : Int64).toInt ∧
      (branchSession.book.ledger.exact ⟨"eu", "cash"⟩).getD 0 + (0x7FFFFFFFFFFFFFFF : Int64).toInt < 0x8000000000000000) := by
    decide +kernel
  have hfresh : branchEngine.Fresh := ⟨_, _, _, _, _, rfl⟩
  obtain ⟨hbalances, hfaultless, hback, hover⟩ :=
    balances_of_applied hfresh Pace.eager (.upTo none) hwaited
      (fun before hbefore => howned before ((List.mem_inits ..).mpr hbefore)) (List.prefix_refl _)
  have hcash := hbalances ⟨"eu", "cash"⟩
  have howner : branchOwner ⟨"eu", "cash"⟩ = Engine.sampleStack := rfl
  rw [howner, hbase] at hcash
  -- the session is not to be run once more
  have hsession : ((runLines Pace.eager branchLines).run (start branchEngine (.upTo none))).2 = branchSession := rfl
  rw [hsession] at hcash hfaultless hback hover
  generalize branchSession = session at *
  exact ⟨hbase, hcash, hfaultless, hback _ hindex, (hover _ _ _ hrange).1⟩

end Session

end Retrace
