import Mathlib.Data.List.Chain
import Retrace.Ledger.Book
import Retrace.Proofs.Reference

/-!
# The balances behind a stack

Every command of a stack has a sheet: what the accounts held just before it was first carried out. When nobody
else writes the accounts of a stack, the sheet of each command in its line follows from the sheet of the one
before, and the ledger stands where the cursor stands. Carrying out a command or taking it back keeps this so,
and neither can fail.
-/

namespace Retrace

/-! ### Balances of one account -/

namespace Ordered

variable {κ ν : Type} [DecidableEq κ]

theorem lookup_cons (name key : κ) (value : ν) (entries : List (κ × ν)) :
    ((name, value) :: entries).lookup key = if key = name then some value else entries.lookup key := by
  rw [List.lookup_cons]
  by_cases hkey : key = name
  · rw [if_pos hkey, beq_iff_eq.mpr hkey]
  · rw [if_neg hkey, beq_eq_false_iff_ne.mpr hkey]

private theorem lookup_insert {before : κ → κ → Bool} (horder : IsKeyOrder before) (key : κ) (value : ν)
    (entries : List (κ × ν)) (other : κ) :
    (insert before key value entries).lookup other = if other = key then some value else entries.lookup other := by
  induction entries with
  | nil => rw [insert, lookup_cons]
  | cons first rest ih =>
    obtain ⟨name, old⟩ := first
    by_cases hbefore : before key name = true
    · rw [insert, if_pos hbefore, lookup_cons]
    rw [insert, if_neg hbefore]
    by_cases hafter : before name key = true
    · have hne : name ≠ key := by
        rintro rfl
        rw [horder.irrefl] at hafter
        cases hafter
      rw [if_pos hafter, lookup_cons, lookup_cons, ih]
      by_cases hother : other = name
      · rw [if_pos hother, if_neg (hother ▸ hne), if_pos hother]
      · rw [if_neg hother, if_neg hother]
    · obtain rfl : key = name := horder.eq_of_neither key name (by simpa using hbefore) (by simpa using hafter)
      rw [if_neg hafter, lookup_cons, lookup_cons]
      split_ifs <;> rfl

private theorem lookup_erase (key : κ) (entries : List (κ × ν)) (other : κ) :
    (erase key entries).lookup other = if other = key then none else entries.lookup other := by
  unfold erase
  induction entries with
  | nil => simp
  | cons first rest ih =>
    obtain ⟨name, old⟩ := first
    by_cases hname : name = key
    · rw [List.filter_cons_of_neg (by simpa using hname), ih, lookup_cons, hname]
      split_ifs <;> rfl
    · rw [List.filter_cons_of_pos (by simpa using hname), lookup_cons, lookup_cons, ih]
      by_cases hother : other = name
      · rw [if_pos hother, if_neg (hother ▸ hname), if_pos hother]
      · rw [if_neg hother, if_neg hother]

end Ordered

namespace Ledger

theorem balance?_put (ledger : Ledger) (account : Account) (balance : Option Int64) (other : Account) :
    (ledger.put account balance).balance? other = if other = account then balance else ledger.balance? other := by
  cases balance with
  | none => exact Ordered.lookup_erase ..
  | some value => exact Ordered.lookup_insert Account.isKeyOrder_before ..

def exact (ledger : Ledger) (account : Account) : Option Int := (ledger.balance? account).map Int64.toInt

theorem exact_put_self (ledger : Ledger) (account : Account) (balance : Option Int64) :
    (ledger.put account balance).exact account = balance.map Int64.toInt := by
  rw [exact, balance?_put, if_pos rfl]

theorem exact_put_of_ne {account other : Account} (hother : other ≠ account) (ledger : Ledger)
    (balance : Option Int64) : (ledger.put account balance).exact other = ledger.exact other := by
  rw [exact, balance?_put, if_neg hother, exact]

theorem balance?_eq_of_exact_eq {ledger after : Ledger} {account : Account}
    (hexact : after.exact account = ledger.exact account) : after.balance? account = ledger.balance? account :=
  Option.map_injective (fun _ _ hsame => Int64.toInt_inj.mp hsame) hexact

end Ledger

namespace Posting

variable {posting : Posting} {account : Account} {balance : Option Int}

def shift (posting : Posting) (account : Account) (balance : Option Int) : Option Int :=
  match posting with
  | set target value => if target = account then some value.toInt else balance
  | add target delta => if target = account then some (balance.getD 0 + delta.toInt) else balance
  | get _ => balance

theorem shift_of_ne (hne : account ≠ posting.account) : posting.shift account balance = balance := by
  cases posting with
  | set target value => exact if_neg hne.symm
  | add target delta => exact if_neg hne.symm
  | get target => rfl

def Fits (posting : Posting) (balance : Option Int) : Prop :=
  ∃ value : Int64, posting.shift posting.account balance = some value.toInt

end Posting

/-! ### Running an entry -/

namespace Entry

variable {entry : Entry} {ledger : Ledger}

inductive Carried (entry : Entry) (ledger : Ledger) : Effect → Prop where
  | refused (hkind : entry.posting.kind = .mutating) (hover : ¬ entry.posting.Fits (ledger.exact entry.posting.account))
      (reports : List ProgressEvent) (command reason : String) :
      Carried entry ledger (entry.refuse ledger reports command reason)
  | replaced (hkind : entry.posting.kind = .mutating) (value : Int64)
      (hvalue : entry.posting.shift entry.posting.account (ledger.exact entry.posting.account) = some value.toInt)
      (reports : List ProgressEvent) : Carried entry ledger (entry.replace ledger value reports)
  | looked (hkind : entry.posting.kind = .query) (result : ActionResult) :
      Carried entry ledger { ledger, entry, reports := [], result }

theorem carried (entry : Entry) (ledger : Ledger) : Carried entry ledger (entry.carryOut ledger) := by
  unfold carryOut
  obtain ⟨posting, replaced⟩ := entry
  cases posting with
  | set account new =>
    refine .replaced rfl new ?_ []
    simp [Posting.shift, Posting.account]
  | add account delta =>
    -- an account that is not there counts as zero
    have hcurrent : ((ledger.balance? account).getD 0).toInt = (ledger.exact account).getD 0 := by
      cases hbalance : ledger.balance? account <;> simp [Ledger.exact, hbalance]
    have hshift : (Posting.add account delta).shift account (ledger.exact account) =
        some ((ledger.exact account).getD 0 + delta.toInt) := if_pos rfl
    dsimp only
    rw [hcurrent]
    cases hsum : Text.int64OfInt? ((ledger.exact account).getD 0 + delta.toInt) with
    | none =>
      refine .refused rfl ?_ _ _ _
      rintro ⟨value, hvalue⟩
      rw [Option.some.inj (hshift.symm.trans hvalue), Text.int64OfInt?_toInt] at hsum
      cases hsum
    | some sum =>
      refine .replaced rfl sum ?_ _
      rw [Text.toInt_of_int64OfInt? hsum]
      exact hshift
  | get account =>
    dsimp only
    cases ledger.balance? account with
    | none => exact .looked rfl _
    | some value => exact .looked rfl _

theorem carryOut_of_fits (hkind : entry.posting.kind = .mutating)
    (hfits : entry.posting.Fits (ledger.exact entry.posting.account)) :
    ∃ value reports,
      entry.posting.shift entry.posting.account (ledger.exact entry.posting.account) = some value.toInt ∧
        entry.carryOut ledger = entry.replace ledger value reports := by
  have hcarried := entry.carried ledger
  generalize entry.carryOut ledger = effect at hcarried ⊢
  cases hcarried with
  | refused _ hover => exact absurd hfits hover
  | replaced _ value hvalue reports => exact ⟨value, reports, hvalue, rfl⟩
  | looked hquery =>
    rw [hkind] at hquery
    cases hquery

theorem posting_run (entry : Entry) (ledger : Ledger) (direction : Direction) :
    (entry.run ledger direction).entry.posting = entry.posting := by
  cases direction with
  | forward =>
    have hcarried := entry.carried ledger
    show (entry.carryOut ledger).entry.posting = _
    generalize entry.carryOut ledger = effect at hcarried ⊢
    cases hcarried <;> rfl
  | backward =>
    show (entry.takeBack ledger).entry.posting = _
    unfold Entry.takeBack
    dsimp only
    split <;> rfl

end Entry

/-! ### Running a command on a book -/

namespace Book

variable {book : Book} {entry : Entry} {step : Step}

private theorem succeeded_returned (result : ActionResult) (text : String) :
    Outcome.succeeded ((Outcome.returned result).settle text) = Outcome.succeeded result := by
  cases result with
  | ok value => rfl
  | error error =>
    unfold Outcome.settle
    dsimp only
    split_ifs <;> rfl

theorem run_eq (hentry : book.entries[step.command.id]? = some entry) :
    Book.host.run step book =
      (Outcome.succeeded (entry.run book.ledger step.operation.direction).result,
        ⟨(entry.run book.ledger step.operation.direction).ledger,
          book.entries.set step.command.id (entry.run book.ledger step.operation.direction).entry⟩) := by
  simp only [Host.run, host, perform, hentry, succeeded_returned]

theorem posting_run {step : Step} (hentry : book.entries[step.command.id]? = some entry) :
    ∃ last, (Book.host.run step book).2.entries[step.command.id]? = some last ∧ last.posting = entry.posting := by
  rw [Book.run_eq hentry]
  exact ⟨_, List.getElem?_set_self (List.getElem?_eq_some_iff.mp hentry).1, entry.posting_run ..⟩

theorem entries_write (book : Book) (posting : Posting) (scope : Scope) :
    (book.write posting scope).1.entries[(book.write posting scope).2.id]? = some ⟨posting, none⟩ :=
  List.getElem?_concat_length ..

/-- A new entry that is refused, or that only looks, leaves the book as it is. -/
theorem run_unchanged {posting : Posting} {scope : Scope} {effect : Entry.Effect}
    (heffect : (⟨posting, none⟩ : Entry).carryOut book.ledger = effect) (hledger : effect.ledger = book.ledger)
    (hentry : effect.entry = ⟨posting, none⟩) (id : StackId) :
    Book.host.run ⟨(book.write posting scope).2, id, .execute⟩ (book.write posting scope).1 =
      (Outcome.succeeded effect.result, (book.write posting scope).1) := by
  have hthere := entries_write book posting scope
  obtain ⟨hbound, hget⟩ := List.getElem?_eq_some_iff.mp hthere
  have hrun : (⟨posting, none⟩ : Entry).run (book.write posting scope).1.ledger Operation.execute.direction = effect :=
    heffect
  rw [Book.run_eq hthere, hrun, hledger, hentry, ← hget, List.set_getElem_self]
  rfl

def shift (book : Book) (command : Command) (account : Account) (balance : Option Int) : Option Int :=
  match book.entries[command.id]? with
  | none => balance
  | some entry => entry.posting.shift account balance

theorem shift_eq {command : Command} (hentry : book.entries[command.id]? = some entry) (account : Account)
    (balance : Option Int) : book.shift command account balance = entry.posting.shift account balance := by
  rw [shift, hentry]

def replay (book : Book) (commands : List Command) (account : Account) (balance : Option Int) : Option Int :=
  commands.foldl (fun balance command => book.shift command account balance) balance

theorem replay_cons (book : Book) (command : Command) (commands : List Command) (account : Account)
    (balance : Option Int) :
    book.replay (command :: commands) account balance =
      book.replay commands account (book.shift command account balance) :=
  rfl

structure Aside (owned : Account → Prop) (book after : Book) : Prop where
  length : after.entries.length = book.entries.length
  balances : ∀ account, ¬ owned account → after.ledger.balance? account = book.ledger.balance? account
  entries : ∀ (number : Nat) (entry : Entry), book.entries[number]? = some entry → ¬ owned entry.posting.account →
    after.entries[number]? = some entry
  postings : ∀ number : Nat, (after.entries[number]?).map Entry.posting = (book.entries[number]?).map Entry.posting

namespace Aside

variable {owned : Account → Prop} {after last : Book}

theorem refl (owned : Account → Prop) (book : Book) : Aside owned book book :=
  ⟨rfl, fun _ _ => rfl, fun _ _ hentry _ => hentry, fun _ => rfl⟩

theorem trans (hfirst : Aside owned book after) (hsecond : Aside owned after last) : Aside owned book last where
  length := hsecond.length.trans hfirst.length
  balances account hother := (hsecond.balances account hother).trans (hfirst.balances account hother)
  entries number entry hentry hother := hsecond.entries number entry (hfirst.entries number entry hentry hother) hother
  postings number := (hsecond.postings number).trans (hfirst.postings number)

theorem shift_eq (haside : Aside owned book after) (command : Command) (account : Account) (balance : Option Int) :
    after.shift command account balance = book.shift command account balance := by
  have hposting := haside.postings command.id
  unfold shift
  cases hbefore : book.entries[command.id]? <;> cases hafter : after.entries[command.id]? <;>
    simp_all

theorem replay_eq (haside : Aside owned book after) (commands : List Command) (account : Account)
    (balance : Option Int) : after.replay commands account balance = book.replay commands account balance := by
  unfold replay
  congr 1
  funext balance command
  exact haside.shift_eq command account balance

end Aside

theorem aside_replace {owned : Account → Prop} {number : Nat} (hentry : book.entries[number]? = some entry)
    (howned : owned entry.posting.account) (changed : Entry) (hposting : changed.posting = entry.posting)
    (balance : Option Int64) :
    Aside owned book ⟨book.ledger.put entry.posting.account balance, book.entries.set number changed⟩ where
  length := List.length_set
  balances account hother := by
    rw [Ledger.balance?_put, if_neg]
    rintro rfl
    exact hother howned
  entries other found hfound hother := by
    have hne : number ≠ other := by
      rintro rfl
      rw [hentry] at hfound
      exact hother (Option.some.inj hfound ▸ howned)
    rw [List.getElem?_set_ne hne]
    exact hfound
  postings other := by
    by_cases hother : number = other
    · rw [← hother, hentry, List.getElem?_set_self (List.getElem?_eq_some_iff.mp hentry).1]
      exact congrArg some hposting
    · rw [List.getElem?_set_ne hother]

end Book

/-! ### Tallies -/

/-- The sheets when the next entry is made: its own is what the ledger shows then. -/
def Book.sheets (book : Book) (sheet : CommandId → Account → Option Int) : CommandId → Account → Option Int :=
  fun number => if number < book.entries.length then sheet number else book.ledger.exact

/-- How the accounts of an owner stand when nobody but the commands of one stack writes them. -/
structure Tally (owned : Account → Prop) (sheet : CommandId → Account → Option Int) (book : Book)
    (past future : List Command) : Prop where
  entered : ∀ command ∈ past ++ future, ∃ entry, book.entries[command.id]? = some entry ∧
    entry.posting.kind = .mutating ∧ owned entry.posting.account ∧
    entry.posting.Fits (sheet command.id entry.posting.account)
  increasing : (past ++ future).Pairwise fun first second => first.id < second.id
  linked : (past ++ future).IsChain fun first second => ∀ account, owned account →
    sheet second.id account = book.shift first account (sheet first.id account)
  behind : ∀ command, past.getLast? = some command → ∀ account, owned account →
    book.ledger.exact account = book.shift command account (sheet command.id account)
  ahead : ∀ command, future.head? = some command → ∀ account, owned account →
    book.ledger.exact account = sheet command.id account
  replaced : ∀ command ∈ past, ∀ entry, book.entries[command.id]? = some entry → ∃ previous,
    entry.replaced = some previous ∧ previous.map Int64.toInt = sheet command.id entry.posting.account

namespace Tally

variable {owned : Account → Prop} {sheet : CommandId → Account → Option Int} {book after : Book}
  {past future : List Command} {command : Command} {entry : Entry} {id : StackId}

theorem nothing (owned : Account → Prop) (sheet : CommandId → Account → Option Int) (book : Book) :
    Tally owned sheet book [] [] :=
  ⟨nofun, List.Pairwise.nil, List.IsChain.nil, nofun, nofun, nofun⟩

/-- **The ledger stands where the cursor stands**: the balances are those before the oldest command of the line,
followed by what the applied commands make of them. -/
theorem exact_eq_replay (htally : Tally owned sheet book past future) {oldest : Command}
    (holdest : (past ++ future).head? = some oldest) {account : Account} (howned : owned account) :
    book.ledger.exact account = book.replay past account (sheet oldest.id account) := by
  cases past with
  | nil => exact htally.ahead oldest holdest account howned
  | cons first rest =>
    obtain rfl : first = oldest := Option.some.inj holdest
    have hlinked := htally.linked.left_of_append
    have hbehind := htally.behind
    clear htally holdest
    -- each command that is passed turns its own sheet into that of the next
    induction rest generalizing first with
    | nil => exact hbehind first rfl account howned
    | cons second rest ih =>
      obtain ⟨hfirst, hrest⟩ := List.isChain_cons_cons.mp hlinked
      rw [Book.replay_cons, ← hfirst account howned]
      refine ih second hrest fun last hlast => hbehind last ?_
      rw [List.getLast?_cons_cons]
      exact hlast

theorem congr (htally : Tally owned sheet book past future) {other : CommandId → Account → Option Int}
    (hsame : ∀ command ∈ past ++ future, other command.id = sheet command.id) : Tally owned other book past future where
  entered command hmem := by
    rw [hsame command hmem]
    exact htally.entered command hmem
  increasing := htally.increasing
  linked := by
    refine htally.linked.imp_of_mem_imp fun first second hfirst hsecond hlink => ?_
    rw [hsame first hfirst, hsame second hsecond]
    exact hlink
  behind command hlast := by
    rw [hsame command (List.mem_append_left _ (List.mem_of_getLast? hlast))]
    exact htally.behind command hlast
  ahead command hhead := by
    rw [hsame command (List.mem_append_right _ (List.mem_of_mem_head? hhead))]
    exact htally.ahead command hhead
  replaced command hmem := by
    rw [hsame command (List.mem_append_left _ hmem)]
    exact htally.replaced command hmem

theorem aside {other : Account → Prop} (htally : Tally owned sheet book past future)
    (haside : Book.Aside other book after) (happart : ∀ account, owned account → ¬ other account) :
    Tally owned sheet after past future := by
  have hentries : ∀ command ∈ past ++ future, after.entries[command.id]? = book.entries[command.id]? := by
    intro command hmem
    obtain ⟨entry, hentry, -, howned, -⟩ := htally.entered command hmem
    rw [hentry]
    exact haside.entries _ entry hentry (happart _ howned)
  have hexact : ∀ account, owned account → after.ledger.exact account = book.ledger.exact account := by
    intro account howned
    rw [Ledger.exact, haside.balances account (happart account howned), Ledger.exact]
  constructor
  case entered =>
    intro command hmem
    rw [hentries command hmem]
    exact htally.entered command hmem
  case increasing => exact htally.increasing
  case linked =>
    refine htally.linked.imp fun first second hlink account howned => ?_
    rw [haside.shift_eq]
    exact hlink account howned
  case behind =>
    intro command hlast account howned
    rw [hexact account howned, haside.shift_eq]
    exact htally.behind command hlast account howned
  case ahead =>
    intro command hhead account howned
    rw [hexact account howned]
    exact htally.ahead command hhead account howned
  case replaced =>
    intro command hmem
    rw [hentries command (List.mem_append_left _ hmem)]
    exact htally.replaced command hmem

/-- A limit leaves the newest applied commands, and either all of what could be redone or nothing. -/
theorem trim (htally : Tally owned sheet book past future) {kept left : List Command} (hkept : kept <:+ past)
    (hleft : left = future ∨ left = []) : Tally owned sheet book kept left := by
  obtain ⟨gone, rfl⟩ := hkept
  have hinside : kept ++ left <:+: gone ++ kept ++ future := by
    rcases hleft with rfl | rfl
    · exact ⟨gone, [], by simp⟩
    · exact ⟨gone, future, by simp⟩
  constructor
  case entered => exact fun command hmem => htally.entered command (hinside.subset hmem)
  case increasing => exact htally.increasing.sublist hinside.sublist
  case linked => exact htally.linked.infix hinside
  case behind =>
    intro command hlast
    refine htally.behind command ?_
    rw [List.getLast?_append, hlast]
    rfl
  case ahead =>
    intro command hhead
    rcases hleft with rfl | rfl
    · exact htally.ahead command hhead
    · cases hhead
  case replaced => exact fun command hmem => htally.replaced command (List.mem_append_right _ hmem)

/-- **Taking back** the command behind the cursor cannot fail. -/
theorem undo {front : List Command} (htally : Tally owned sheet book (front ++ [command]) future) :
    ∃ last, Book.host.run ⟨command, id, .undo⟩ book = (true, last) ∧ Book.Aside owned book last ∧
      Tally owned sheet last front (command :: future) := by
  have hline : front ++ [command] ++ future = front ++ command :: future := by simp
  have hmem : command ∈ front ++ [command] := List.mem_append_right _ List.mem_cons_self
  obtain ⟨entry, hentry, hkind, howned, hfits⟩ := htally.entered command (List.mem_append_left _ hmem)
  obtain ⟨previous, hreplaced, hprevious⟩ := htally.replaced command hmem entry hentry
  have hrun : Book.host.run ⟨command, id, .undo⟩ book =
      (true, ⟨book.ledger.put entry.posting.account previous, book.entries.set command.id entry⟩) := by
    rw [Book.run_eq hentry]
    show (Outcome.succeeded (entry.takeBack book.ledger).result, _) = _
    simp only [Entry.run, Operation.direction, Entry.takeBack, hreplaced, Outcome.succeeded]
  have haside := Book.aside_replace hentry howned entry rfl previous
  refine ⟨_, hrun, haside, ?_⟩
  have hentries : book.entries.set command.id entry = book.entries := by
    obtain ⟨hbound, hget⟩ := List.getElem?_eq_some_iff.mp hentry
    rw [← hget]
    exact List.set_getElem_self hbound
  -- the account of the command goes back to its sheet, and the others never left it
  have hexact : ∀ account, owned account →
      (book.ledger.put entry.posting.account previous).exact account = sheet command.id account := by
    intro account hmine
    by_cases haccount : account = entry.posting.account
    · rw [haccount, Ledger.exact_put_self]
      exact hprevious
    · rw [Ledger.exact_put_of_ne haccount, htally.behind command (by simp) account hmine, Book.shift_eq hentry,
        Posting.shift_of_ne haccount]
  have hlinked := htally.linked
  rw [hline] at hlinked
  constructor
  case entered =>
    rw [hentries, ← hline]
    exact htally.entered
  case increasing => exact hline ▸ htally.increasing
  case linked =>
    refine hlinked.imp fun first second hlink account hmine => ?_
    rw [haside.shift_eq]
    exact hlink account hmine
  case behind =>
    intro before hlast account hmine
    have hlink := (List.isChain_append.mp hlinked).2.2 before hlast command rfl account hmine
    rw [hexact account hmine, haside.shift_eq]
    exact hlink
  case ahead =>
    rintro next hhead account hmine
    obtain rfl : command = next := Option.some.inj hhead
    exact hexact account hmine
  case replaced =>
    rw [hentries]
    exact fun before hbefore => htally.replaced before (List.mem_append_left _ hbefore)

/-- **Carrying out** the command ahead of the cursor cannot fail. -/
theorem carryOut {rest : List Command} {operation : Operation} (htally : Tally owned sheet book past (command :: rest))
    (hforward : operation.direction = .forward) :
    ∃ last, Book.host.run ⟨command, id, operation⟩ book = (true, last) ∧ Book.Aside owned book last ∧
      Tally owned sheet last (past ++ [command]) rest := by
  have hline : past ++ [command] ++ rest = past ++ command :: rest := by simp
  obtain ⟨entry, hentry, hkind, howned, hfits⟩ := htally.entered command (by simp)
  have hsheet : ∀ account, owned account → book.ledger.exact account = sheet command.id account :=
    htally.ahead command rfl
  rw [← hsheet _ howned] at hfits
  obtain ⟨value, reports, hvalue, heffect⟩ := Entry.carryOut_of_fits hkind hfits
  have hrun : Book.host.run ⟨command, id, operation⟩ book =
      (true, ⟨book.ledger.put entry.posting.account (some value),
        book.entries.set command.id { entry with replaced := some (book.ledger.balance? entry.posting.account) }⟩) := by
    rw [Book.run_eq hentry, hforward]
    show (Outcome.succeeded (entry.carryOut book.ledger).result, _) = _
    simp only [Entry.run, heffect, Entry.replace, Outcome.succeeded]
  have haside := Book.aside_replace hentry howned
    { entry with replaced := some (book.ledger.balance? entry.posting.account) } rfl (some value)
  refine ⟨_, hrun, haside, ?_⟩
  have hexact : ∀ account, owned account → (book.ledger.put entry.posting.account (some value)).exact account =
      book.shift command account (sheet command.id account) := by
    intro account hmine
    rw [Book.shift_eq hentry, ← hsheet account hmine]
    by_cases haccount : account = entry.posting.account
    · rw [haccount, Ledger.exact_put_self, hvalue]
      rfl
    · rw [Ledger.exact_put_of_ne haccount, Posting.shift_of_ne haccount]
  have hlinked := htally.linked
  have hincreasing := htally.increasing
  constructor
  case entered =>
    rw [hline]
    intro other hmem
    obtain ⟨found, hfound, hmutating, hmine, hfit⟩ := htally.entered other hmem
    have hposting := haside.postings other.id
    rw [hfound] at hposting
    obtain ⟨changed, hchanged, hsame⟩ := Option.map_eq_some_iff.mp hposting
    exact ⟨changed, hchanged, hsame ▸ hmutating, hsame ▸ hmine, hsame ▸ hfit⟩
  case increasing => exact hline ▸ hincreasing
  case linked =>
    rw [hline]
    refine hlinked.imp fun first second hlink account hmine => ?_
    rw [haside.shift_eq]
    exact hlink account hmine
  case behind =>
    intro last hlast account hmine
    obtain rfl : command = last := by simpa using hlast
    rw [hexact account hmine, haside.shift_eq]
  case ahead =>
    intro next hhead account hmine
    obtain ⟨rest, rfl⟩ := List.head?_eq_some_iff.mp hhead
    rw [hexact account hmine]
    exact ((List.isChain_append_cons_cons.mp hlinked).2.1 account hmine).symm
  case replaced =>
    intro other hmem found hfound
    rcases List.mem_append.mp hmem with hbefore | hthis
    · -- the older commands of the line have other numbers, so their entries are as they were
      have hless : other.id < command.id := (List.pairwise_append.mp hincreasing).2.2 other hbefore command List.mem_cons_self
      rw [List.getElem?_set_ne (Nat.ne_of_gt hless)] at hfound
      exact htally.replaced other hbefore found hfound
    · rw [List.mem_singleton.mp hthis] at hfound ⊢
      rw [List.getElem?_set_self (List.getElem?_eq_some_iff.mp hentry).1] at hfound
      obtain rfl := Option.some.inj hfound
      exact ⟨_, rfl, hsheet _ howned⟩

/-! ### New entries -/

theorem id_lt (htally : Tally owned sheet book past future) (hmem : command ∈ past ++ future) :
    command.id < book.entries.length := by
  obtain ⟨entry, hentry, -⟩ := htally.entered command hmem
  exact (List.getElem?_eq_some_iff.mp hentry).1

theorem write (htally : Tally owned sheet book past future) (posting : Posting) (scope : Scope) :
    Tally owned sheet (book.write posting scope).1 past future := by
  have hentries : ∀ command ∈ past ++ future,
      (book.write posting scope).1.entries[command.id]? = book.entries[command.id]? :=
    fun command hmem => List.getElem?_append_left (htally.id_lt hmem)
  have hshift : ∀ command ∈ past ++ future, ∀ account balance,
      (book.write posting scope).1.shift command account balance = book.shift command account balance := by
    intro command hmem account balance
    rw [Book.shift, hentries command hmem, Book.shift]
  constructor
  case entered =>
    intro command hmem
    rw [hentries command hmem]
    exact htally.entered command hmem
  case increasing => exact htally.increasing
  case linked =>
    refine htally.linked.imp_of_mem_imp fun first second hfirst _ hlink account howned => ?_
    rw [hshift first hfirst]
    exact hlink account howned
  case behind =>
    intro command hlast account howned
    rw [hshift command (List.mem_append_left _ (List.mem_of_getLast? hlast))]
    exact htally.behind command hlast account howned
  case ahead => exact htally.ahead
  case replaced =>
    intro command hmem
    rw [hentries command (List.mem_append_left _ hmem)]
    exact htally.replaced command hmem

theorem sheets (htally : Tally owned sheet book past future) : Tally owned (book.sheets sheet) book past future :=
  htally.congr fun _ hmem => if_pos (htally.id_lt hmem)

/-- The command of a new entry takes its place at the end of a line. -/
theorem enter (htally : Tally owned sheet book past []) {posting : Posting} (scope : Scope)
    (hkind : posting.kind = .mutating) (howned : owned posting.account)
    (hfits : posting.Fits (book.ledger.exact posting.account)) :
    Tally owned (book.sheets sheet) (book.write posting scope).1 past [(book.write posting scope).2] := by
  have hwritten := htally.sheets.write posting scope
  have hline : ∀ command ∈ past, command.id < book.entries.length :=
    fun command hmem => htally.id_lt (List.mem_append_left _ hmem)
  have hsheet : book.sheets sheet (book.write posting scope).2.id = book.ledger.exact := if_neg (Nat.lt_irrefl _)
  have hentry := Book.entries_write book posting scope
  have hincreasing := hwritten.increasing
  have hlinked := hwritten.linked
  rw [List.append_nil] at hincreasing hlinked
  constructor
  case entered =>
    intro command hmem
    rcases List.mem_append.mp hmem with hbefore | hnew
    · exact hwritten.entered command (List.mem_append_left _ hbefore)
    · rw [List.mem_singleton.mp hnew, hsheet]
      exact ⟨_, hentry, hkind, howned, hfits⟩
  case increasing =>
    refine List.pairwise_append.mpr ⟨hincreasing, List.pairwise_singleton .., fun command hmem other hother => ?_⟩
    rw [List.mem_singleton.mp hother]
    exact hline command hmem
  case linked =>
    refine List.isChain_append.mpr ⟨hlinked, .singleton _, fun last hlast next hnext account hmine => ?_⟩
    obtain rfl := Option.some.inj hnext
    rw [hsheet]
    exact hwritten.behind last hlast account hmine
  case behind => exact hwritten.behind
  case ahead =>
    intro next hnext account hmine
    obtain rfl := Option.some.inj hnext
    rw [hsheet]
    rfl
  case replaced => exact hwritten.replaced

end Tally

end Retrace
