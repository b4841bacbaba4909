import Retrace.Proofs.Audit
import Retrace.Proofs.Jump
import Retrace.Proofs.Tally

/-!
# The books of the reference machine

When every account belongs to one stack, each directive keeps the tally of every stack, and no undo or redo in it
fails.
-/

namespace Retrace.Reference

def Tallied (owner : Account → StackId) (sheet : CommandId → Account → Option Int) (reference : Reference)
    (book : Book) : Prop :=
  ∀ id, Tally (fun account => owner account = id) sheet book (reference.past id) (reference.future id)

variable {owner : Account → StackId} {sheet : CommandId → Account → Option Int} {reference : Reference}
  {book last : Book} {id : StackId} {command : Command} {operation : Operation}

/-! ### The line under undo and redo -/

theorem pass_of_end {direction : Direction} (hend : reference.next direction id = none) :
    reference.pass direction id = reference := by
  rw [pass, hend]

theorem line_pass (reference : Reference) (direction : Direction) (id : StackId) :
    (reference.pass direction id).past id ++ (reference.pass direction id).future id =
      reference.past id ++ reference.future id := by
  cases hnext : reference.next direction id with
  | none => rw [pass_of_end hnext]
  | some command =>
    cases direction with
    | forward =>
      obtain ⟨rest, hfuture⟩ := List.head?_eq_some_iff.mp hnext
      rw [pass_forward hnext, past_put_self, future_put_self, hfuture]
      simp
    | backward =>
      obtain ⟨front, hpast⟩ := List.getLast?_eq_some_iff.mp hnext
      rw [pass_backward hnext, past_put_self, future_put_self, hpast]
      simp

private theorem active_pass (reference : Reference) (direction : Direction) (id : StackId) :
    (reference.pass direction id).active = reference.active := by
  unfold pass
  split
  · rfl
  · cases direction <;> rfl

private theorem length_pass_backward (reference : Reference) (id : StackId) :
    ((reference.pass .backward id).past id).length = (reference.past id).length - 1 := by
  cases hnext : reference.next .backward id with
  | none =>
    have hempty : reference.past id = [] := List.getLast?_eq_none_iff.mp hnext
    rw [pass_of_end hnext, hempty]
    rfl
  | some command => rw [pass_backward hnext, past_put_self, List.length_dropLast]

private theorem length_pass_forward (reference : Reference) (id : StackId) :
    ((reference.pass .forward id).past id).length =
      min ((reference.past id).length + 1) (reference.past id ++ reference.future id).length := by
  rw [List.length_append]
  cases hnext : reference.next .forward id with
  | none =>
    have hempty : reference.future id = [] := List.head?_eq_none_iff.mp hnext
    rw [pass_of_end hnext, hempty, List.length_nil]
    omega
  | some command =>
    obtain ⟨rest, hfuture⟩ := List.head?_eq_some_iff.mp hnext
    rw [pass_forward hnext, past_put_self, hfuture, List.length_append, List.length_singleton, List.length_cons]
    omega

def passAll (reference : Reference) (direction : Direction) (id : StackId) (count : Nat) : Reference :=
  (fun reference => reference.pass direction id)^[count] reference

theorem passAll_succ (reference : Reference) (direction : Direction) (id : StackId) (count : Nat) :
    reference.passAll direction id (count + 1) = (reference.pass direction id).passAll direction id count :=
  Function.iterate_succ_apply ..

theorem passAll_of_end {direction : Direction} (hend : reference.next direction id = none) (count : Nat) :
    reference.passAll direction id count = reference :=
  Function.iterate_fixed (pass_of_end hend) count

private theorem line_passAll (reference : Reference) (direction : Direction) (id : StackId) (count : Nat) :
    (reference.passAll direction id count).past id ++ (reference.passAll direction id count).future id =
      reference.past id ++ reference.future id := by
  induction count generalizing reference with
  | zero => rfl
  | succ count ih => rw [passAll_succ, ih, line_pass]

private theorem active_passAll (reference : Reference) (direction : Direction) (id : StackId) (count : Nat) :
    (reference.passAll direction id count).active = reference.active := by
  induction count generalizing reference with
  | zero => rfl
  | succ count ih => rw [passAll_succ, ih, active_pass]

private theorem length_passAll_backward (reference : Reference) (id : StackId) (count : Nat) :
    ((reference.passAll .backward id count).past id).length = (reference.past id).length - count := by
  induction count generalizing reference with
  | zero => rfl
  | succ count ih =>
    rw [passAll_succ, ih, length_pass_backward]
    omega

private theorem length_passAll_forward (reference : Reference) (id : StackId) (count : Nat) :
    ((reference.passAll .forward id count).past id).length =
      min ((reference.past id).length + count) (reference.past id ++ reference.future id).length := by
  induction count generalizing reference with
  | zero =>
    rw [List.length_append]
    exact (Nat.min_eq_left (Nat.le_add_right ..)).symm
  | succ count ih =>
    rw [passAll_succ, ih, line_pass, length_pass_forward]
    omega

/-! ### Walks and records -/

private theorem jump_eq_walkTo {World : Type} (host : Host World) (reference : Reference) {target : Option Nat}
    (hthere : Engine.wantedBy target ≤ (reference.past reference.active ++ reference.future reference.active).length)
    (world : World) : reference.jump host target world = reference.walkTo host (Engine.wantedBy target) world := by
  rw [List.length_append] at hthere
  cases target with
  | none => rfl
  | some index =>
    have hless : ¬ (reference.past reference.active).length + (reference.future reference.active).length ≤ index :=
      Nat.not_le_of_lt hthere
    unfold Reference.jump
    dsimp only
    rw [if_neg hless]
    rfl

private theorem walkTo_arrived {World : Type} (host : Host World) {wanted : Nat}
    (harrived : (reference.past reference.active).length = wanted) (world : World) :
    reference.walkTo host wanted world = (reference, world) := by
  unfold Reference.walkTo
  dsimp only
  rw [if_pos harrived.ge, harrived, Nat.sub_self]
  rfl

theorem mem_keep (limit : Nat) (commands : List Command) (command : Command) :
    command ∈ keep limit (commands ++ [command]) := by
  unfold keep
  split_ifs with hnone
  · exact List.mem_append_right _ List.mem_cons_self
  · unfold Stack.newest
    rw [List.drop_append, List.mem_append]
    right
    have hzero : (commands ++ [command]).length - limit - commands.length = 0 := by
      rw [List.length_append, List.length_singleton]
      omega
    rw [hzero]
    exact List.mem_cons_self

theorem execute_audited (reference : Reference) (command : Command) (book : Book) :
    reference.execute Book.host.audited command (book, true) =
      ((reference.execute Book.host command book).1, (reference.execute Book.host command book).2, true) :=
  rfl

namespace Tallied

theorem put (htallied : reference.Tallied owner sheet book)
    (haside : Book.Aside (fun account => owner account = id) book last) {past future : List Command}
    (htally : Tally (fun account => owner account = id) sheet last past future) :
    (reference.put id past future).Tallied owner sheet last := by
  intro name
  by_cases hname : name = id
  · rw [hname, past_put_self, future_put_self]
    exact htally
  · rw [past_put_of_ne _ _ _ hname, future_put_of_ne _ _ _ hname]
    refine (htallied name).aside haside fun account howned hother => ?_
    exact hname (howned.symm.trans hother)

/-! ### Undo, redo and jumps -/

/-- **One undo or redo** succeeds and keeps the tallies. -/
theorem move (htallied : reference.Tallied owner sheet book) (hmove : operation ≠ .execute)
    (hnext : reference.next operation.direction id = some command) :
    ∃ last, reference.move Book.host.audited operation id command (book, true) =
        (true, reference.pass operation.direction id, last, true) ∧
      Book.Aside (fun account => owner account = id) book last ∧
      (reference.pass operation.direction id).Tallied owner sheet last := by
  have hmoved : ∀ last, Book.host.run ⟨command, id, operation⟩ book = (true, last) →
      reference.move Book.host.audited operation id command (book, true) =
        (true, reference.pass operation.direction id, last, true) := by
    intro last hrun
    simp only [Reference.move, Host.run_audited, hrun, Bool.or_true, Bool.and_self, if_true]
  cases operation with
  | execute => contradiction
  | undo =>
    obtain ⟨front, hpast⟩ := List.getLast?_eq_some_iff.mp hnext
    have htally := htallied id
    rw [hpast] at htally
    obtain ⟨last, hrun, haside, hafter⟩ := htally.undo
    refine ⟨last, hmoved last hrun, haside, ?_⟩
    show (reference.pass .backward id).Tallied owner sheet last
    rw [pass_backward hnext, hpast, List.dropLast_concat]
    exact htallied.put haside hafter
  | redo =>
    obtain ⟨rest, hfuture⟩ := List.head?_eq_some_iff.mp hnext
    have htally := htallied id
    rw [hfuture] at htally
    have hforward : Operation.redo.direction = .forward := rfl
    obtain ⟨last, hrun, haside, hafter⟩ := htally.carryOut hforward
    refine ⟨last, hmoved last hrun, haside, ?_⟩
    show (reference.pass .forward id).Tallied owner sheet last
    rw [pass_forward hnext, hfuture]
    exact htallied.put haside hafter

private theorem moveChosen (htallied : reference.Tallied owner sheet book) (hmove : operation ≠ .execute)
    (filter : Option Scope) :
    ∃ after last, reference.moveChosen Book.host.audited operation filter (book, true) = (after, last, true) ∧
      after.Tallied owner sheet last := by
  unfold Reference.moveChosen
  split
  · exact ⟨reference, book, rfl, htallied⟩
  · next id command hchoose =>
    obtain ⟨last, hmoved, -, hafter⟩ := htallied.move hmove (next_of_choose hchoose)
    rw [hmoved]
    exact ⟨_, last, rfl, hafter⟩

/-- So many undos or redos all succeed, up to the end of the line. -/
theorem walk (htallied : reference.Tallied owner sheet book) (hmove : operation ≠ .execute) (id : StackId)
    (count : Nat) :
    ∃ last, Reference.walk Book.host.audited operation id count (reference, book, true) =
        (reference.passAll operation.direction id count, last, true) ∧
      Book.Aside (fun account => owner account = id) book last ∧
      (reference.passAll operation.direction id count).Tallied owner sheet last := by
  induction count generalizing reference book with
  | zero => exact ⟨book, rfl, Book.Aside.refl .., htallied⟩
  | succ count ih =>
    unfold Reference.walk
    split
    · next hnext =>
      rw [passAll_of_end hnext]
      exact ⟨book, rfl, Book.Aside.refl .., htallied⟩
    · next command hnext =>
      obtain ⟨between, hmoved, hfirst, hnow⟩ := htallied.move hmove hnext
      obtain ⟨last, hwalk, hrest, hlast⟩ := ih hnow
      rw [passAll_succ, hmoved]
      exact ⟨last, hwalk, hfirst.trans hrest, hlast⟩

theorem walkTo (htallied : reference.Tallied owner sheet book) (wanted : Nat) :
    ∃ after last, reference.walkTo Book.host.audited wanted (book, true) = (after, last, true) ∧
      Book.Aside (fun account => owner account = reference.active) book last ∧ after.Tallied owner sheet last ∧
      after.active = reference.active ∧
      after.past reference.active ++ after.future reference.active =
        reference.past reference.active ++ reference.future reference.active ∧
      (after.past reference.active).length =
        min wanted (reference.past reference.active ++ reference.future reference.active).length := by
  unfold Reference.walkTo
  dsimp only
  rw [List.length_append]
  split_ifs with hback
  · have hundo : Operation.undo ≠ .execute := by decide
    obtain ⟨last, hwalk, haside, hafter⟩ :=
      htallied.walk hundo reference.active ((reference.past reference.active).length - wanted)
    refine ⟨_, last, hwalk, haside, hafter, active_passAll .., line_passAll .., ?_⟩
    show ((reference.passAll .backward reference.active _).past reference.active).length = _
    rw [length_passAll_backward]
    omega
  · have hredo : Operation.redo ≠ .execute := by decide
    obtain ⟨last, hwalk, haside, hafter⟩ :=
      htallied.walk hredo reference.active (wanted - (reference.past reference.active).length)
    refine ⟨_, last, hwalk, haside, hafter, active_passAll .., line_passAll .., ?_⟩
    show ((reference.passAll .forward reference.active _).past reference.active).length = _
    rw [length_passAll_forward, List.length_append]
    omega

theorem jump (htallied : reference.Tallied owner sheet book) (target : Option Nat) :
    ∃ after last, reference.jump Book.host.audited target (book, true) = (after, last, true) ∧
      after.Tallied owner sheet last := by
  have hwalk : ∀ wanted, ∃ after last, reference.walkTo Book.host.audited wanted (book, true) = (after, last, true) ∧
      after.Tallied owner sheet last := by
    intro wanted
    obtain ⟨after, last, hwalk, -, hafter, -⟩ := htallied.walkTo wanted
    exact ⟨after, last, hwalk, hafter⟩
  unfold Reference.jump
  split
  · exact hwalk 0
  · split_ifs
    · exact ⟨reference, book, rfl, htallied⟩
    · exact hwalk _

/-- **There and back**: jumping to where nothing is applied and from there to the old position leaves every balance
as it was. -/
theorem jump_back (htallied : reference.Tallied owner sheet book) {target : Option Nat}
    (htarget : Engine.wantedBy target = (reference.past reference.active).length) {there back : Reference}
    {between last : Book} {mark : Bool}
    (hthere : reference.jump Book.host.audited none (book, true) = (there, between, true))
    (hback : there.jump Book.host.audited target (between, true) = (back, last, mark)) (account : Account) :
    last.ledger.balance? account = book.ledger.balance? account := by
  rw [jump_eq_walkTo _ reference (Nat.zero_le _)] at hthere
  obtain ⟨_, _, hwalk, hfirst, hbetween, hactive, hline, hlength⟩ := htallied.walkTo 0
  obtain ⟨rfl, hrest⟩ := Prod.mk.inj (hthere.symm.trans hwalk)
  obtain ⟨rfl, -⟩ := Prod.mk.inj hrest
  have hreach : Engine.wantedBy target ≤ (there.past there.active ++ there.future there.active).length := by
    rw [htarget, hactive, hline, List.length_append]
    exact Nat.le_add_right ..
  rw [jump_eq_walkTo _ there hreach] at hback
  obtain ⟨_, _, hagain, hsecond, hlast, -, hsame, harrived⟩ := hbetween.walkTo (Engine.wantedBy target)
  obtain ⟨rfl, hrest⟩ := Prod.mk.inj (hback.symm.trans hagain)
  obtain ⟨rfl, -⟩ := Prod.mk.inj hrest
  rw [hactive] at hsecond hsame harrived
  have haside := hfirst.trans hsecond
  by_cases howned : owner account = reference.active
  swap
  · exact haside.balances account howned
  -- the line is the old one and as many commands are applied, so they are the same commands
  rw [hline] at hsame harrived
  have hpast : back.past reference.active = reference.past reference.active := by
    refine (List.append_inj hsame ?_).1
    rw [harrived, htarget, List.length_append]
    omega
  cases holdest : (reference.past reference.active ++ reference.future reference.active).head? with
  | none =>
    -- with an empty line nobody has moved
    obtain ⟨hempty, -⟩ := List.append_eq_nil_iff.mp (List.head?_eq_none_iff.mp holdest)
    rw [walkTo_arrived _ (by rw [hempty]; rfl)] at hthere
    obtain ⟨rfl, hrest⟩ := Prod.mk.inj hthere
    obtain ⟨rfl, -⟩ := Prod.mk.inj hrest
    rw [walkTo_arrived _ htarget.symm] at hback
    obtain ⟨rfl, hrest⟩ := Prod.mk.inj hback
    obtain ⟨rfl, -⟩ := Prod.mk.inj hrest
    rfl
  | some oldest =>
    have hnow := (hlast reference.active).exact_eq_replay (hsame ▸ holdest) howned
    rw [hpast, haside.replay_eq, ← (htallied reference.active).exact_eq_replay holdest howned] at hnow
    exact Ledger.balance?_eq_of_exact_eq hnow

/-! ### Executions -/

theorem sheets (htallied : reference.Tallied owner sheet book) : reference.Tallied owner (book.sheets sheet) book :=
  fun id => (htallied id).sheets

theorem write (htallied : reference.Tallied owner sheet book) (posting : Posting) (scope : Scope) :
    reference.Tallied owner sheet (book.write posting scope).1 :=
  fun id => (htallied id).write posting scope

/-- **An execution** of a new entry keeps the tallies, if the account of a recorded command belongs to the stack on
which it is recorded. -/
theorem execute (htallied : reference.Tallied owner sheet book) (posting : Posting) (scope : Scope)
    (howned : (book.write posting scope).2 ∈
        (reference.execute Book.host (book.write posting scope).2 (book.write posting scope).1).1.past
          (reference.stackFor (book.write posting scope).2) →
      owner posting.account = reference.stackFor (book.write posting scope).2) :
    (reference.execute Book.host (book.write posting scope).2 (book.write posting scope).1).1.Tallied owner
      (book.sheets sheet)
      (reference.execute Book.host (book.write posting scope).2 (book.write posting scope).1).2 := by
  have hwritten := htallied.sheets.write posting scope
  have hcarried := Entry.carried ⟨posting, none⟩ book.ledger
  generalize heffect : (⟨posting, none⟩ : Entry).carryOut book.ledger = effect at hcarried
  unfold Reference.execute at howned ⊢
  dsimp only at howned ⊢
  cases hcarried with
  | refused hkind hover reports command reason =>
    rw [Book.run_unchanged heffect rfl rfl]
    exact hwritten
  | looked hkind result =>
    have hquery : (book.write posting scope).2.isQuery = true := beq_iff_eq.mpr hkind
    rw [Book.run_unchanged heffect rfl rfl, hquery, Bool.not_true, Bool.and_false]
    exact hwritten
  | replaced hkind value hvalue reports =>
    have hquery : (book.write posting scope).2.isQuery = false := beq_eq_false_iff_ne.mpr (by simp [hkind, Book.write])
    have hrun : ∀ id, (Book.host.run ⟨(book.write posting scope).2, id, .execute⟩ (book.write posting scope).1).1 =
        true := by
      intro id
      have hresult : (⟨posting, none⟩ : Entry).run (book.write posting scope).1.ledger Operation.execute.direction =
          (⟨posting, none⟩ : Entry).replace book.ledger value reports := heffect
      rw [Book.run_eq (Book.entries_write book posting scope), hresult]
      rfl
    rw [hrun, hquery, Bool.not_false, Bool.and_self, if_pos rfl] at howned ⊢
    have hmine := howned (by
      unfold record
      rw [past_put_self]
      exact mem_keep ..)
    have hforward : Operation.execute.direction = .forward := rfl
    have hcleared := (htallied (reference.stackFor (book.write posting scope).2)).trim (List.suffix_refl _) (.inr rfl)
    obtain ⟨last, hlast, haside, hafter⟩ :=
      (hcleared.enter scope hkind hmine ⟨value, hvalue⟩).carryOut hforward
    rw [hlast]
    exact hwritten.put haside (hafter.trim (keep_suffix ..) (.inl rfl))

/-! ### Directives -/

/-- A directive that executes nothing keeps the tallies, and no undo or redo in it fails. -/
theorem carryOut (htallied : reference.Tallied owner sheet book) {directive : Directive}
    (hnew : ∀ command, directive ≠ .request (.execute command)) :
    ∃ after last, Reference.carryOut Book.host.audited (reference, book, true) directive = (after, last, true) ∧
      after.Tallied owner sheet last := by
  have hsame : ∃ after last, (reference, book, true) = (after, last, true) ∧ after.Tallied owner sheet last :=
    ⟨reference, book, rfl, htallied⟩
  cases directive with
  | clear => exact ⟨_, _, rfl, fun id => Tally.nothing ..⟩
  | setLimit limit =>
    exact ⟨_, _, rfl, fun id => (htallied id).trim (Stack.within_past_suffix ..) (Stack.within_future ..)⟩
  | activate stack => exact ⟨_, _, rfl, htallied⟩
  | route scope stack =>
    refine ⟨_, _, rfl, ?_⟩
    unfold Reference.route
    split_ifs
    · exact htallied
    · exact htallied
  | request request =>
    rw [Reference.carryOut]
    split_ifs
    · cases request with
      | execute command => exact absurd rfl (hnew command)
      | undo filter =>
        have hundo : Operation.undo ≠ .execute := by decide
        exact htallied.moveChosen hundo filter
      | redo filter =>
        have hredo : Operation.redo ≠ .execute := by decide
        exact htallied.moveChosen hredo filter
      | jump target => exact htallied.jump target
    · exact hsame

end Tallied

end Retrace.Reference
