import Retrace.Proofs.Clearing
import Retrace.Proofs.Serving
import Retrace.Proofs.Uses

/-!
# The choice under a filter

An undo or a redo under a filter takes the stack that was used last among those whose next command the filter selects.
Neither the active stack nor the order in which the stacks are listed has a part in it. A move that succeeds makes its
stack the one that was used last and its command the next one in the other direction, so that the opposite request under
the same filter takes the move back.
-/

namespace Retrace

def Direction.opposite : Direction → Direction
  | .forward => .backward
  | .backward => .forward

/-- The operation that takes an undo or a redo back. -/
def Operation.opposite : Operation → Operation
  | .execute => .execute
  | .undo => .redo
  | .redo => .undo

private theorem Operation.direction_opposite {operation : Operation} (hmove : operation ≠ .execute) :
    operation.opposite.direction = operation.direction.opposite := by
  cases operation with
  | execute => exact absurd rfl hmove
  | undo => rfl
  | redo => rfl

private theorem Operation.opposite_ne_execute {operation : Operation} (hmove : operation ≠ .execute) :
    operation.opposite ≠ .execute := by
  cases operation with
  | execute => exact hmove
  | undo => nofun
  | redo => nofun

namespace History

variable {history : History} {recent names : List StackId} {id : StackId} {command : Command} {direction : Direction}
  {filter : Scope}

def chosen (history : History) (direction : Direction) (filter : Scope) : Option (StackId × Command) :=
  (history.target direction (some filter)).map fun candidate => (candidate.stack, candidate.command)

theorem Recency.chosen_eq (hrecency : history.Recency recent) (hsound : history.Sound) :
    history.chosen direction filter = recent.findSome? (history.offer direction filter) :=
  hsound.target_filter hrecency filter

private theorem Recency.offer_of_chosen (hrecency : history.Recency recent) (hsound : history.Sound)
    (hchosen : history.chosen direction filter = some (id, command)) :
    history.next direction id = some command ∧ filter.selects command.scope = true := by
  rw [hrecency.chosen_eq hsound] at hchosen
  obtain ⟨name, -, hoffer⟩ := List.exists_of_findSome?_eq_some hchosen
  obtain ⟨rfl, hoffered⟩ := offer_eq_some.mp hoffer
  exact hoffered

theorem Recency.chosen_of_first (hrecency : history.Recency (id :: recent)) (hsound : history.Sound)
    (hnext : history.next direction id = some command) (hselects : filter.selects command.scope = true) :
    history.chosen direction filter = some (id, command) := by
  rw [hrecency.chosen_eq hsound, List.findSome?_cons, offer_eq_some.mpr ⟨rfl, hnext, hselects⟩]

private theorem Recency.chosen_eq_none_iff (hrecency : history.Recency recent) (hsound : history.Sound) :
    history.chosen direction filter = none ↔ ∀ id, history.offer direction filter id = none := by
  rw [hrecency.chosen_eq hsound, List.findSome?_eq_none_iff]
  refine ⟨fun hnone id => ?_, fun hnone id _ => hnone id⟩
  cases hoffer : history.offer direction filter id with
  | none => rfl
  | some offered =>
    obtain ⟨rfl, hnext, -⟩ := offer_eq_some.mp (show _ = some (offered.1, offered.2) from hoffer)
    have hlisted := hrecency.listed _ (List.ne_nil_of_mem (mem_line_of_next hnext))
    rw [hnone _ hlisted] at hoffer
    cases hoffer

theorem exists_last_offer (hfound : names.reverse.findSome? (history.offer direction filter) = some (id, command)) :
    ∃ earlier later, names = earlier ++ id :: later ∧ history.offer direction filter id = some (id, command) ∧
      ∀ other ∈ later, history.offer direction filter other = none := by
  obtain ⟨newer, found, older, hsplit, hoffer, hnone⟩ := List.findSome?_eq_some_iff.mp hfound
  obtain ⟨rfl, -⟩ := offer_eq_some.mp hoffer
  refine ⟨older.reverse, newer.reverse, ?_, hoffer, fun other hother => hnone other (List.mem_reverse.mp hother)⟩
  rw [← List.reverse_reverse names, hsplit]
  simp

/-! ### What the choice does not depend on -/

private theorem Sound.stack?_perm (hsound : history.Sound) {stackList : List Stack}
    (hperm : stackList.Perm history.stackList) (active id : StackId) :
    ({ history with stackList, active } : History).stack? id = history.stack? id := by
  have hkeyed : (stackList.map Stack.id).Nodup := (hperm.map Stack.id).nodup_iff.mpr hsound.keyed
  cases hstack : history.stack? id with
  | some stack =>
    have hmem : stack ∈ stackList := hperm.mem_iff.mpr (mem_of_stack? hstack)
    obtain rfl := id_of_stack? hstack
    exact stack?_of_mem hkeyed hmem
  | none =>
    unfold stack? at hstack ⊢
    rw [List.find?_eq_none] at hstack ⊢
    exact fun stack hmem => hstack stack (hperm.mem_iff.mp hmem)

/-- The choice depends neither on the order in which the stacks are listed nor on which is active. -/
theorem Recency.chosen_perm (hrecency : history.Recency recent) (hsound : history.Sound) {stackList : List Stack}
    (hperm : stackList.Perm history.stackList) (active : StackId) (direction : Direction) (filter : Scope) :
    ({ history with stackList, active } : History).chosen direction filter = history.chosen direction filter := by
  have hstack := hsound.stack?_perm hperm active
  generalize hother : ({ history with stackList, active } : History) = other at *
  have hpast : ∀ id, other.past id = history.past id := fun id => by rw [past, hstack, past]
  have hfuture : ∀ id, other.future id = history.future id := fun id => by rw [future, hstack, future]
  have hsame : other.Sound := by
    subst hother
    exact ⟨(hperm.map Stack.id).nodup_iff.mpr hsound.keyed,
      fun stack hmem => hsound.cursors stack (hperm.mem_iff.mp hmem)⟩
  have hordered : other.Recency recent := by
    refine hrecency.frame (fun id => by rw [touched, hstack, touched]) (hother ▸ rfl) fun id => ?_
    rw [line, line, hpast, hfuture]
  have hoffer : other.offer direction filter = history.offer direction filter := by
    funext id
    cases direction <;> simp only [offer, next, hpast, hfuture]
  rw [hordered.chosen_eq hsame, hrecency.chosen_eq hsound, hoffer]

/-! ### Moves back -/

private theorem Sound.next_opposite (hsound : history.Sound) (hnext : history.next direction id = some command) :
    (history.moveCursor id command.id direction).1.next direction.opposite id = some command := by
  cases direction with
  | forward =>
    obtain ⟨rest, hfuture⟩ := List.head?_eq_some_iff.mp hnext
    rw [Direction.opposite, next, past_of_lists (hsound.lists_passed_forth hfuture), List.getLast?_concat]
  | backward =>
    obtain ⟨front, hpast⟩ := List.getLast?_eq_some_iff.mp hnext
    rw [Direction.opposite, next, future_of_lists (hsound.lists_passed_back hpast), List.head?_cons]

theorem Sound.alike_there_and_back (hsound : history.Sound) (hnext : history.next direction id = some command) :
    history.Alike
      ((history.moveCursor id command.id direction).1.moveCursor id command.id direction.opposite).1 := by
  intro name
  have hmoved := hsound.moveCursor id command.id direction
  by_cases hname : name = id
  · subst hname
    cases direction with
    | forward =>
      obtain ⟨rest, hfuture⟩ := List.head?_eq_some_iff.mp hnext
      have hforth := hsound.lists_passed_forth hfuture
      exact (hmoved.lists_passed_back (past_of_lists hforth)).trans (by rw [future_of_lists hforth, hfuture])
    | backward =>
      obtain ⟨front, hpast⟩ := List.getLast?_eq_some_iff.mp hnext
      have hback := hsound.lists_passed_back hpast
      exact (hmoved.lists_passed_forth (future_of_lists hback)).trans (by rw [past_of_lists hback, hpast])
  · exact (lists_moveCursor_of_ne _ _ _ hname).trans (lists_moveCursor_of_ne history _ _ hname)

private theorem Sound.activations (hsound : history.Sound) (activations : List (Option StackId)) :
    (activations.foldl History.activate history).Sound := by
  induction activations generalizing history with
  | nil => exact hsound
  | cons stack rest ih => exact ih (hsound.activate stack)

private theorem alike_activations (history : History) (activations : List (Option StackId)) :
    history.Alike (activations.foldl History.activate history) := by
  induction activations generalizing history with
  | nil => exact fun _ => rfl
  | cons stack rest ih => exact fun id => (ih (history.activate stack) id).trans (alike_activate history stack id)

private theorem Recency.activations (hrecency : history.Recency recent) (activations : List (Option StackId)) :
    (activations.foldl History.activate history).Recency recent := by
  induction activations generalizing history with
  | nil => exact hrecency
  | cons stack rest ih => exact ih (hrecency.activate stack)

/-- After a move the same stack and command are chosen in the other direction, whatever is made active, and the move back
leaves every stack as it was at first. -/
theorem Recency.chosen_opposite (hrecency : history.Recency recent) (hsound : history.Sound)
    (hchosen : history.chosen direction filter = some (id, command)) (activations : List (Option StackId)) :
    let after := activations.foldl History.activate (history.moveCursor id command.id direction).1
    after.chosen direction.opposite filter = some (id, command) ∧
      history.Alike (after.moveCursor id command.id direction.opposite).1 := by
  intro after
  obtain ⟨hnext, hselects⟩ := hrecency.offer_of_chosen hsound hchosen
  have hmoved := hsound.moveCursor id command.id direction
  have hafter : after.Sound := hmoved.activations activations
  have halike : _ := alike_activations (history.moveCursor id command.id direction).1 activations
  have hlast : after.Recency (promote recent id) :=
    (hrecency.passed hsound ((hsound.isNextTo_iff ..).mpr ⟨command, hnext, rfl⟩)).activations activations
  constructor
  · exact hlast.chosen_of_first hafter ((halike.next_eq ..).trans (hsound.next_opposite hnext)) hselects
  · exact fun name => (halike.moveCursor hmoved hafter _ _ _ name).trans (hsound.alike_there_and_back hnext name)

end History

namespace Host

variable {World : Type} {engine start : Engine} {operation : Operation} {filter : Scope} {ticket : Ticket}

open Engine History

/-- **An undo or a redo under a filter acts on the stack that was used last** among those whose next command the filter
selects. Take any run whose jobs are settled, and a request that is taken after it. Either the latest use of a stack with
an offer is followed only by uses of stacks without one, and what that stack offers is run; or no stack has an offer,
nothing is run, and exactly then the answer is that nothing is left. The choice is the same in whatever order the stacks
are listed and whichever is active. It is also the same after any other run with the same uses that leaves the same
offers, and failed actions, clears, limits and activations are no uses. -/
theorem acts_on_last_used (hfresh : start.Fresh) (moves : List Move)
    (hsettled : (start.applyAll moves).isSettled = true) (hmove : operation ≠ .execute)
    (htaken : ((start.applyAll moves).submit (requestOf operation (some filter))).1 = .ok ticket)
    (host : Host World) (world : World) :
    let engine := start.applyAll moves
    let offer := engine.history.offer operation.direction filter
    let done := host.logged.carryOut (engine, world, []) (.request (requestOf operation (some filter)))
    host.carryOut (engine, world) (.request (requestOf operation (some filter))) = (done.1, done.2.1) ∧
    ((∃ earlier stack later command result, start.along uses moves = earlier ++ stack :: later ∧
        offer stack = some (stack, command) ∧ (∀ id ∈ later, offer id = none) ∧
        done.2.2 = [(⟨command, stack, operation⟩, result)] ∧ done.1.answer? ticket = some result) ∨
      ((∀ id, offer id = none) ∧ done.2.2 = [] ∧ done.1.history = engine.history)) ∧
    (done.1.answer? ticket = some (.error (missingOf operation)) ↔ ∀ id, offer id = none) ∧
    (∀ stackList active, stackList.Perm engine.history.stackList →
      ({ engine.history with stackList, active } : History).chosen operation.direction filter =
        engine.history.chosen operation.direction filter) ∧
    ∀ (other : Engine) (others : List Move), other.Fresh → other.along uses others = start.along uses moves →
      (∀ id, (other.applyAll others).history.offer operation.direction filter id = offer id) →
      (other.applyAll others).history.chosen operation.direction filter =
        engine.history.chosen operation.direction filter := by
  intro engine offer done
  have hreachable : engine.Reachable := ⟨start, moves, hfresh, rfl⟩
  have hsound := hreachable.steady.sound
  have hrecency : engine.history.Recency _ := hfresh.recency moves
  have hlatest : engine.history.chosen operation.direction filter = (start.along uses moves).reverse.findSome? offer := by
    rw [hrecency.chosen_eq hsound, findSome?_latestFirst]
  have hnone_iff : _ ↔ ∀ id, offer id = none := hrecency.chosen_eq_none_iff hsound
  have hnumbered : done.1.Numbered := (reachable_carryOut host.logged hreachable _ _).numbered
  obtain ⟨log, hcarried⟩ := host.exists_carried hreachable hsettled hmove htaken (world, [])
  have hlog : done.2.2 = log := hcarried.entered
  refine ⟨(shownBy_logged host).carryOut_eq _ engine (world, []), ?_, ?_, ?_, ?_⟩
  · cases hcarried.served with
    | missing hnone hnothing hhistory hanswers =>
      exact .inr ⟨hnone_iff.mp (by rw [chosen, hnone]; rfl), hlog.trans hnothing, hhistory⟩
    | performed candidate result htarget hentry hresult hhistory hanswers =>
      rw [chosen, htarget] at hlatest
      obtain ⟨earlier, later, hsplit, hoffer, hlater⟩ := exists_last_offer hlatest.symm
      exact .inl ⟨earlier, _, later, _, result, hsplit, hoffer, hlater, hlog.trans hentry,
        answer?_of_last hnumbered hanswers⟩
  · rw [← hnone_iff, chosen]
    cases hcarried.served with
    | missing hnone hnothing hhistory hanswers =>
      exact iff_of_true (answer?_of_last hnumbered hanswers) (by rw [hnone]; rfl)
    | performed candidate result htarget hentry hresult hhistory hanswers =>
      rw [answer?_of_last hnumbered hanswers, htarget]
      exact iff_of_false (fun hmissing => hresult (Option.some.inj hmissing)) (by simp)
  · exact fun stackList active hperm => hrecency.chosen_perm hsound hperm active _ _
  · intro other others hother huses hoffers
    have hsame : (other.applyAll others).history.offer operation.direction filter = offer := funext hoffers
    rw [hlatest, (hother.recency others).chosen_eq (hother.steady.applyAll others).sound, findSome?_latestFirst, huses,
      hsame]

def sideCommand : Command := { sampleCommand 1 with stack := some ⟨"side"⟩ }

/-- A command is executed on the main stack and one beside it, and an undo on the main stack fails. -/
def besides : List Move :=
  executed [0] ++ underway (.execute sideCommand) ++ [success] ++ underway (.undo none) ++ [.finish (.brokeOff none)]

def obligingHost : Host Unit := ⟨fun _ world => ⟨world, [], .returned (.ok .null)⟩⟩

/-- The stack beside the active one was used last, and the undo that failed does not count. -/
theorem acts_on_last_used_besides :
    let engine := sampleEngine.applyAll besides
    let done := obligingHost.logged.carryOut (engine, (), []) (.request (.undo (some .all)))
    sampleEngine.along uses besides = [sampleStack, ⟨"side"⟩] ∧ engine.history.active = sampleStack ∧
      done.1.answer? 4 ≠ some (.error .noMoreUndos) ∧
      ({ engine.history with stackList := engine.history.stackList.reverse, active := ⟨"side"⟩ } : History).chosen
        .backward .all = some (⟨"side"⟩, sideCommand) := by
  have htaken : ((sampleEngine.applyAll besides).submit (requestOf .undo (some .all))).1 = .ok 4 := by rfl
  obtain ⟨-, -, hnothing, hlisted, -⟩ :=
    acts_on_last_used sampleEngine_fresh besides (by decide) (by decide) htaken obligingHost ()
  refine ⟨by decide, by decide, fun hmissing => ?_, ?_⟩
  · exact absurd (hnothing.mp hmissing ⟨"side"⟩) (by decide)
  · exact (hlisted _ _ (List.reverse_perm _)).trans (by decide)

/-! ### The opposite request -/

private theorem applyAll_activations (engine : Engine) (activations : List (Option StackId)) :
    ∃ bus, engine.applyAll (activations.map Move.activate) =
      { engine with history := activations.foldl History.activate engine.history, bus } := by
  induction activations generalizing engine with
  | nil => exact ⟨engine.bus, rfl⟩
  | cons stack rest ih =>
    obtain ⟨bus, hrest⟩ := ih (engine.apply (.activate stack))
    exact ⟨bus, by rw [List.map_cons, applyAll_cons, hrest]; rfl⟩

private theorem Served.of_entry {after : Engine} {log : Logbook} {stack : StackId} {command : Command}
    {result : ActionResult} (hserved : Served engine operation (some filter) ticket log after)
    (hentry : log = [(⟨command, stack, operation⟩, result)]) :
    engine.history.chosen operation.direction filter = some (stack, command) ∧
      (Outcome.succeeded result = true →
        after.history = (engine.history.moveCursor stack command.id operation.direction).1) := by
  cases hserved with
  | missing hnone hlog => cases hlog.symm.trans hentry
  | performed candidate verdict htarget hlog hresult hhistory hanswers =>
    obtain ⟨hstep, rfl⟩ := Prod.mk.inj (List.singleton_inj.mp (hlog.symm.trans hentry))
    obtain ⟨rfl, rfl, -⟩ := Step.mk.inj hstep
    exact ⟨by rw [chosen, htarget]; rfl, fun hsucceeded => hhistory.trans (if_pos hsucceeded)⟩

private theorem Served.of_chosen {after : Engine} {log : Logbook} {stack : StackId} {command : Command}
    (hserved : Served engine operation (some filter) ticket log after)
    (hchosen : engine.history.chosen operation.direction filter = some (stack, command)) :
    ∃ result, log = [(⟨command, stack, operation⟩, result)] := by
  cases hserved with
  | missing hnone =>
    rw [chosen, hnone] at hchosen
    cases hchosen
  | performed candidate result htarget hlog =>
    rw [chosen, htarget] at hchosen
    obtain ⟨rfl, rfl⟩ := Prod.mk.inj (Option.some.inj hchosen)
    exact ⟨result, hlog⟩

/-- **The opposite request takes an undo or a redo back.** Take any reachable state at rest and an undo or a redo under a
filter that succeeds there with a command of a stack, which is chosen whichever stack is active. The opposite request
under the same filter then runs the same command of the same stack, whatever stacks are made active in between, and if
that succeeds, every stack has the commands behind and ahead of its cursor that it had at first. -/
theorem opposite_takes_back (hreachable : engine.Reachable) (hsettled : engine.isSettled = true)
    (hmove : operation ≠ .execute) (host : Host World) (world : World) {command : Command} {stack : StackId}
    {value : Json}
    (hran : (host.logged.carryOut (engine, world, []) (.request (requestOf operation (some filter)))).2.2 =
      [(⟨command, stack, operation⟩, .ok value)]) (activations : List (Option StackId)) :
    let first := host.logged.carryOut (engine, world, []) (.request (requestOf operation (some filter)))
    let between := first.1.applyAll (activations.map Move.activate)
    let second := host.logged.carryOut (between, first.2.1, []) (.request (requestOf operation.opposite (some filter)))
    (∀ active, ({ engine.history with active } : History).chosen operation.direction filter = some (stack, command)) ∧
    ∃ result, second.2.2 = [(⟨command, stack, operation.opposite⟩, result)] ∧
      (Outcome.succeeded result = true → engine.history.Alike second.1.history) := by
  intro first between second
  have hsound := hreachable.steady.sound
  obtain ⟨recent, hrecency⟩ := hreachable.recency
  -- A request that is refused runs nothing.
  obtain ⟨ticket, htaken⟩ : ∃ ticket, (engine.submit (requestOf operation (some filter))).1 = .ok ticket := by
    cases hreply : (engine.submit (requestOf operation (some filter))).1 with
    | ok ticket => exact ⟨ticket, rfl⟩
    | error error =>
      rw [carryOut_refused hreachable hsettled hreply] at hran
      cases hran
  obtain ⟨log, hcarried⟩ := host.exists_carried hreachable hsettled hmove htaken (world, [])
  have hlog : first.2.2 = log := hcarried.entered
  obtain ⟨hchosen, hhistory⟩ := hcarried.served.of_entry (hlog.symm.trans hran)
  have hmoved : first.1.history = _ := hhistory rfl
  obtain ⟨bus, hbetween⟩ : ∃ bus, between = _ := applyAll_activations first.1 activations
  obtain ⟨hagain, hback⟩ := hrecency.chosen_opposite hsound hchosen activations
  rw [← hmoved, show activations.foldl History.activate first.1.history = between.history by rw [hbetween],
    ← operation.direction_opposite hmove] at hagain hback
  -- The opposite request is taken as the first one was.
  have hreached : between.Reachable := (reachable_carryOut host.logged hreachable _ _).applyAll _
  have hrested : between.isSettled = true := by
    rw [hbetween]
    exact hcarried.settled
  obtain ⟨haccepting, hfilter⟩ := (exists_taken_iff hreachable.listening operation (some filter)).mp ⟨ticket, htaken⟩
  obtain ⟨nextTicket, hretaken⟩ := (exists_taken_iff hreached.listening operation.opposite (some filter)).mpr
    ⟨by rw [hbetween]; exact hcarried.accepting.trans haccepting,
      by rw [hbetween, checkFilter]; exact (congrArg (·.validate filter) hcarried.registry).trans hfilter⟩
  obtain ⟨relog, hrecarried⟩ :=
    host.exists_carried hreached hrested (Operation.opposite_ne_execute hmove) hretaken (first.2.1, [])
  have hrelog : second.2.2 = relog := hrecarried.entered
  obtain ⟨result, hentry⟩ := hrecarried.served.of_chosen hagain
  obtain ⟨-, hafter⟩ := hrecarried.served.of_entry hentry
  refine ⟨fun active => ?_, result, hrelog.trans hentry, fun hsucceeded => ?_⟩
  · rw [← hchosen]
    exact hrecency.chosen_perm hsound (.refl _) active _ _
  · have hreturned : second.1.history = _ := hafter hsucceeded
    rw [hreturned]
    exact hback

/-- An undo of the command beside the main stack is taken back after its stack has been made the active one. -/
theorem opposite_takes_back_besides :
    let engine := sampleEngine.applyAll besides
    let first := obligingHost.logged.carryOut (engine, (), []) (.request (.undo (some .all)))
    let second := obligingHost.logged.carryOut (first.1.applyAll [.activate (some ⟨"side"⟩)], (), [])
      (.request (.redo (some .all)))
    first.2.2 = [(⟨sideCommand, ⟨"side"⟩, .undo⟩, .ok .null)] ∧
      second.2.2 = [(⟨sideCommand, ⟨"side"⟩, .redo⟩, .ok .null)] ∧ engine.history.Alike second.1.history := by
  have hran : (obligingHost.logged.carryOut (sampleEngine.applyAll besides, (), [])
      (.request (requestOf .undo (some .all)))).2.2 = [(⟨sideCommand, ⟨"side"⟩, .undo⟩, .ok .null)] := by decide
  obtain ⟨-, result, hentry, halike⟩ := opposite_takes_back ⟨sampleEngine, besides, sampleEngine_fresh, rfl⟩
    (by decide) (by decide) obligingHost () hran [some ⟨"side"⟩]
  obtain rfl : .ok .null = result := (Prod.mk.inj (List.singleton_inj.mp hentry)).2
  exact ⟨hran, hentry, halike rfl⟩

end Host

end Retrace
