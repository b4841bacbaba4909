import Retrace.Proofs.Status

/-!
# What stays behind a redoable command

A command that stands before one that can be redone is dropped only while it is applied, so it stays
applied. There is one exception, and this module says exactly which: a limit change that drops the
command while it is being undone, where the undo succeeds.
-/

namespace Retrace

namespace Stack

section Pairs

variable {first second : Command} {left right : List Command}

private theorem pair_of_not_mem_left (hpair : [first, second].Sublist (left ++ right)) (hfirst : first ∉ left) :
    [first, second].Sublist right := by
  obtain ⟨front, back, heq, hfront, hback⟩ := List.sublist_append_iff.mp hpair
  cases front with
  | nil => exact heq ▸ hback
  | cons head tail =>
    obtain rfl : first = head := (List.cons.inj heq).1
    exact absurd (hfront.subset List.mem_cons_self) hfirst

theorem pair_of_not_mem_right (hpair : [first, second].Sublist (left ++ right)) (hsecond : second ∉ right) :
    [first, second].Sublist left := by
  obtain ⟨front, back, heq, hfront, hback⟩ := List.sublist_append_iff.mp hpair
  rcases List.eq_nil_or_concat back with rfl | ⟨before, last, rfl⟩
  · rw [List.append_nil] at heq
    exact heq ▸ hfront
  · have hlast := congrArg List.getLast? heq
    rw [List.getLast?_append, List.concat_eq_append, List.getLast?_concat] at hlast
    obtain rfl : second = last := by simpa using hlast
    exact absurd (hback.subset (by simp)) hsecond

end Pairs

/-- A limit keeps a pair in order, drops its second command, or drops its first one as one of the oldest. -/
theorem within_pair {limit : Nat} {past future : List Command} {first second : Command}
    (hpair : [first, second].Sublist (past ++ future)) (hnodup : (past ++ future).Nodup)
    (hmem : second ∈ (within limit past future).1 ++ (within limit past future).2) :
    [first, second].Sublist ((within limit past future).1 ++ (within limit past future).2) ∨
      first ∈ past ∧ first ∉ (within limit past future).1 ++ (within limit past future).2 := by
  obtain ⟨dropped, hpast⟩ := within_past_suffix limit past future
  have hlists : ((within limit past future).1 ++ (within limit past future).2).Sublist
      ((within limit past future).1 ++ future) := by
    refine (List.Sublist.refl _).append ?_
    rcases within_future limit past future with hsame | hnone
    · rw [hsame]
    · rw [hnone]
      exact List.nil_sublist future
  rw [← hpast, List.append_assoc] at hpair hnodup
  by_cases hfirst : first ∈ dropped
  · refine .inr ⟨hpast ▸ List.mem_append_left _ hfirst, fun hkept => ?_⟩
    exact (List.nodup_append.mp hnodup).2.2 first hfirst first (hlists.subset hkept) rfl
  · have hkept := pair_of_not_mem_left hpair hfirst
    rcases within_future limit past future with hsame | hnone
    · rw [hsame]
      exact .inl hkept
    · rw [hnone] at hmem ⊢
      rw [List.append_nil] at hmem ⊢
      have hsecond : second ∉ future := fun hahead =>
        (List.nodup_append.mp (List.nodup_append.mp hnodup).2.1).2.2 second hmem second hahead rfl
      exact .inl (pair_of_not_mem_right hkept hsecond)

end Stack

namespace Engine

variable {start engine after : Engine} {move : Move} {moves : List Move} {run : Run} {submitted : List Command}
  {id : StackId} {command first second : Command} {status : CommandStatus}

/-! ### Commands that keep their status -/

theorem Placed.status_of_free (hplaced : engine.Placed submitted) (hchange : engine.Change move after)
    (hmem : command ∈ submitted) (hbefore : ¬ engine.BusyWith command) (hafter : ¬ after.BusyWith command) :
    after.statuses.get command.id = engine.statuses.get command.id := by
  cases hchange with
  | quiet _ _ hstatuses => rw [hstatuses]
  | joined _ _ _ _ hstatuses => rw [hstatuses]
  | cleared _ _ _ hstatuses => rw [hstatuses]
  | limited _ _ _ _ hstatuses => rw [hstatuses]
  | activated _ _ _ hstatuses => rw [hstatuses]
  | began run _ _ _ hjob hphase _ hstatuses horigin =>
    rw [hstatuses]
    refine StatusBoard.get_set_of_ne _ _ fun hid => hafter ⟨run, by rw [hphase]; rfl, ?_⟩
    exact (hplaced.eq_of_id hmem (hplaced.mem_of_origin hjob horigin) hid).symm
  | ended run _ _ hphase _ _ hstatuses =>
    have hrun : engine.phase.run? = some run := by rw [hphase]; rfl
    rw [hstatuses]
    refine StatusBoard.get_set_of_ne _ _ fun hid => hbefore ⟨run, hrun, ?_⟩
    exact (hplaced.eq_of_id hmem (hplaced.origin run hrun).1 hid).symm

/-- A command that has left, with no action of it running, and the status it has for good. -/
structure Retired (engine : Engine) (submitted : List Command) (command : Command) (status : CommandStatus) :
    Prop where
  gone : engine.Gone submitted command
  free : ¬ engine.BusyWith command
  kept : engine.statuses.get command.id = status

private theorem Gone.free (hgone : engine.Gone submitted command) (hchange : engine.Change move after)
    (hfree : ¬ engine.BusyWith command) : ¬ after.BusyWith command := by
  rintro ⟨run, hrun, rfl⟩
  rcases hchange.started hrun with hbefore | ⟨hjob, horigin⟩
  · exact hfree ⟨run, hbefore, rfl⟩
  · cases horigin with
    | submitted hoperation hwalk hgoal =>
      refine hgone.answered ?_
      rw [pending_of_job hjob, hgoal]
      exact List.mem_cons_self
    | recorded hoperation hgoal hnext => exact hgone.absent _ (History.mem_line_of_next hnext)

theorem Retired.change (hretired : engine.Retired submitted command status) (hplaced : engine.Placed submitted)
    (hchange : engine.Change move after) (honce : ((submitted ++ move.command?.toList).map Command.id).Nodup) :
    after.Retired (submitted ++ move.command?.toList) command status where
  gone := hretired.gone.change hplaced hchange honce
  free := hretired.gone.free hchange hretired.free
  kept := by
    have hfree := hretired.gone.free hchange hretired.free
    rw [hplaced.status_of_free hchange hretired.gone.submitted hretired.free hfree]
    exact hretired.kept

theorem Gone.applyAll (hgone : engine.Gone submitted command) (horderly : engine.Orderly submitted)
    (moves : List Move) (honce : ((submitted ++ commandsOf moves).map Command.id).Nodup) :
    (engine.applyAll moves).Gone (submitted ++ commandsOf moves) command :=
  Orderly.keeps (P := fun engine submitted => engine.Gone submitted command)
    (fun move horderly hnow hgone => hgone.change horderly.placed (horderly.change_apply move) hnow)
    horderly hgone moves honce

theorem Retired.applyAll (hretired : engine.Retired submitted command status) (horderly : engine.Orderly submitted)
    (moves : List Move) (honce : ((submitted ++ commandsOf moves).map Command.id).Nodup) :
    (engine.applyAll moves).Retired (submitted ++ commandsOf moves) command status :=
  Orderly.keeps (P := fun engine submitted => engine.Retired submitted command status)
    (fun move horderly hnow hretired => hretired.change horderly.placed (horderly.change_apply move) hnow)
    horderly hretired moves honce

/-! ### The exception -/

/-- The undo that runs has lost its command: since it was started, a limit change has dropped the
command from its stack. -/
def LostCommand (start : Engine) (moves : List Move) (run : Run) : Prop :=
  (start.applyAll moves).phase = .acting run ∧ run.step.operation = .undo ∧
    ∃ earlier limit later, moves = earlier ++ .setLimit limit :: later ∧
      (start.applyAll earlier).phase = .acting run ∧
      run.step.command ∈ (start.applyAll earlier).history.line run.step.stack ∧
      run.step.command ∉ (start.applyAll (earlier ++ [.setLimit limit])).history.line run.step.stack

/-- In the course of a run, an undo of a command succeeded after it had lost the command. -/
def EvictedDuringUndo (start : Engine) (moves : List Move) (command : Command) : Prop :=
  ∃ earlier outcome later run, moves = earlier ++ .finish outcome :: later ∧ start.LostCommand earlier run ∧
    run.step.command = command ∧ Outcome.succeeded (outcome.settle command.text) = true

/-- At some moment of a run, a command stood before another one in the line of a stack. -/
def StoodBefore (start : Engine) (moves : List Move) (id : StackId) (first second : Command) : Prop :=
  ∃ earlier later, moves = earlier ++ later ∧
    [first, second].Sublist ((start.applyAll earlier).history.line id)

theorem commandsOf_concat (moves : List Move) (move : Move) :
    commandsOf (moves ++ [move]) = commandsOf moves ++ move.command?.toList := by
  rw [commandsOf_append, commandsOf_cons, show commandsOf [] = [] from rfl, List.append_nil]

/-! ### What becomes of a pair -/

/-- What has become of two commands of which one stood before the other. -/
inductive Fate (start : Engine) (moves : List Move) (id : StackId) (first second : Command) : Prop where
  | together (hpair : [first, second].Sublist ((start.applyAll moves).history.line id))
  | passed (hgone : (start.applyAll moves).Gone (commandsOf moves) second)
  | dropped (hretired : (start.applyAll moves).Retired (commandsOf moves) first .applied)
  | losing (run : Run) (hgone : (start.applyAll moves).Gone (commandsOf moves) first)
      (hlost : start.LostCommand moves run) (hcommand : run.step.command = first)
  | evicted (hevicted : start.EvictedDuringUndo moves first)

private theorem LostCommand.extend (hlost : start.LostCommand moves run)
    (hphase : (start.applyAll (moves ++ [move])).phase = .acting run) :
    start.LostCommand (moves ++ [move]) run := by
  obtain ⟨-, hundo, earlier, limit, later, hmoves, hearlier, hin, hout⟩ := hlost
  refine ⟨hphase, hundo, earlier, limit, later ++ [move], ?_, hearlier, hin, hout⟩
  rw [hmoves, List.append_assoc, List.cons_append]

private theorem EvictedDuringUndo.extend (hevicted : start.EvictedDuringUndo moves command) (more : List Move) :
    start.EvictedDuringUndo (moves ++ more) command := by
  obtain ⟨earlier, outcome, later, run, hmoves, hlost, hcommand, hsucceeded⟩ := hevicted
  refine ⟨earlier, outcome, later ++ more, run, ?_, hlost, hcommand, hsucceeded⟩
  rw [hmoves, List.append_assoc, List.cons_append]

/-- When an undo that has lost its command ends, its success leaves the command reversed for good, its
failure leaves it applied. -/
theorem retired_of_lost (horderly : engine.Orderly submitted) (hphase : engine.phase = .acting run)
    (hundo : run.step.operation = .undo) (hgone : engine.Gone submitted run.step.command)
    (hchange : engine.Change move after) (honce : ((submitted ++ move.command?.toList).map Command.id).Nodup)
    {outcome : Outcome} (hstatuses : after.statuses =
      engine.statuses.set run.step.command.id (verdictOf run outcome)) (hrun : after.phase.run? = none) :
    after.Retired (submitted ++ move.command?.toList) run.step.command
      (if Outcome.succeeded (outcome.settle run.step.command.text) then .reversed else .applied) where
  gone := hgone.change horderly.placed hchange honce
  free := by
    rintro ⟨other, hother, -⟩
    rw [hrun] at hother
    cases hother
  kept := by
    rw [hstatuses, StatusBoard.get_set_self, verdictOf]
    split_ifs with hsucceeded
    · rw [Command.verdict_of_succeeded hsucceeded, hundo]
      rfl
    · have hprevious := (horderly.agreeing.previous run (by rw [hphase]; rfl)).1 hundo
      rw [Command.verdict_of_failed (by simpa using hsucceeded), hprevious]
      rfl

theorem Placed.pair_of_recorded (hplaced : engine.Placed submitted) (hnew : command ∉ engine.history.line id)
    (hpair : [first, second].Sublist (engine.history.line id)) {limit : Nat}
    (hkept : second ∈ (Stack.within limit (engine.history.past id ++ [command]) []).1 ++
      (Stack.within limit (engine.history.past id ++ [command]) []).2) :
    [first, second].Sublist ((Stack.within limit (engine.history.past id ++ [command]) []).1 ++
        (Stack.within limit (engine.history.past id ++ [command]) []).2) ∨
      first ∈ engine.history.past id ∧ first ∉ (Stack.within limit (engine.history.past id ++ [command]) []).1 ++
        (Stack.within limit (engine.history.past id ++ [command]) []).2 := by
  have hnodup : (engine.history.past id ++ [command]).Nodup := by
    rw [List.nodup_append]
    refine ⟨(List.nodup_append.mp (hplaced.nodup id)).1, List.nodup_singleton _, ?_⟩
    intro other hmem last hlast heq
    rw [List.mem_singleton.mp hlast] at heq
    exact hnew (heq ▸ List.mem_append_left _ hmem)
  have hnone := or_self_iff.mp (Stack.within_future limit (engine.history.past id ++ [command]) [])
  -- What could be redone goes first, so the pair is behind the cursor if its second command stays.
  have hsecond : second ∉ engine.history.future id := by
    intro hahead
    rw [hnone, List.append_nil] at hkept
    rcases List.mem_append.mp ((Stack.within_past_suffix ..).subset hkept) with hbehind | hrecorded
    · exact hplaced.not_mem_both hbehind hahead
    · exact hnew (List.mem_singleton.mp hrecorded ▸ List.mem_append_right _ hahead)
  have hbehind := (Stack.pair_of_not_mem_right hpair hsecond).trans (List.sublist_append_left _ [command])
  rw [← List.append_nil (engine.history.past id ++ [command])] at hbehind hnodup
  rcases Stack.within_pair hbehind hnodup hkept with htogether | ⟨hpast, hout⟩
  · exact .inl htogether
  · refine .inr ⟨?_, hout⟩
    rcases List.mem_append.mp hpast with hold | hrecorded
    · exact hold
    · have hfirst : first ∈ engine.history.line id := hpair.subset (by simp)
      exact absurd (List.mem_singleton.mp hrecorded ▸ hfirst) hnew

/-- A move that drops the first command of a pair and not the second drops it as one of the oldest
applied ones: it is a limit change or the end of an execution. -/
theorem Placed.pair_of_change (hplaced : engine.Placed submitted) (hchange : engine.Change move after)
    (hpair : [first, second].Sublist (engine.history.line id)) (hkept : second ∈ after.history.line id) :
    [first, second].Sublist (after.history.line id) ∨
      first ∈ engine.history.past id ∧ first ∉ after.history.line id ∧
        ((∃ limit, move = .setLimit limit ∧ after.phase = engine.phase) ∨
          ∃ run, engine.phase = .acting run ∧ run.step.operation = .execute ∧ after.phase.run? = none) := by
  have hsame : after.history.line id = engine.history.line id →
      [first, second].Sublist (after.history.line id) := fun hline => hline ▸ hpair
  cases hchange with
  | quiet hhistory => exact .inl (hsame (by rw [hhistory]))
  | joined command hmove hhistory => exact .inl (hsame (by rw [hhistory]))
  | cleared hmove hhistory =>
    rw [hhistory, History.line, History.past_clear, History.future_clear] at hkept
    cases hkept
  | limited limit hmove hhistory hgeneration hstatuses hphase =>
    have hline := History.line_of_lists (hplaced.sound.lists_setLimit limit id)
    rw [hhistory, hline] at hkept ⊢
    rcases Stack.within_pair hpair (hplaced.nodup id) hkept with htogether | ⟨hpast, hout⟩
    · exact .inl htogether
    · exact .inr ⟨hpast, hout, .inl ⟨limit, hmove, hphase⟩⟩
  | activated stack hhistory =>
    refine .inl (hsame ?_)
    rw [hhistory, History.line, History.past_activate, History.future_activate]
    rfl
  | began run hhistory => exact .inl (hsame (by rw [hhistory]))
  | ended run outcome hmove hphase hhistory hgeneration hstatuses hrun =>
    have heffect := effect_of_ended hplaced.sound run outcome
    rw [← hhistory] at heffect
    cases heffect with
    | kept hlists => exact .inl (hsame (History.line_of_lists (hlists id)))
    | recorded hsucceeded hcurrent hoperation hmutating hlists =>
      have hlist := hlists id
      split_ifs at hlist with hid
      swap
      · exact .inl (hsame (History.line_of_lists hlist))
      subst hid
      have hpending := hplaced.pending_of_execute hphase hoperation
      have hnew : run.step.command ∉ engine.history.line run.step.stack :=
        fun hmem => hplaced.answered _ _ hmem hpending
      rw [History.line_of_lists hlist] at hkept ⊢
      rcases hplaced.pair_of_recorded hnew hpair hkept with htogether | ⟨hpast, hout⟩
      · exact .inl htogether
      · exact .inr ⟨hpast, hout, .inr ⟨run, hphase, hoperation, hrun⟩⟩
    | undone hsucceeded hcurrent hoperation passed front hpassed hpast hlists =>
      exact .inl (hsame (line_undone hpast (hlists id)))
    | redone hsucceeded hcurrent hoperation passed rest hpassed hfuture hlists =>
      exact .inl (hsame (line_redone hfuture (hlists id)))

section Step

variable (horderly : (start.applyAll moves).Orderly (commandsOf moves))
  (honce : ((commandsOf (moves ++ [move])).map Command.id).Nodup)

include horderly honce

private theorem fate_of_pair (hpair : [first, second].Sublist ((start.applyAll moves).history.line id)) :
    start.Fate (moves ++ [move]) id first second := by
  have hchange := horderly.change_apply move
  rw [commandsOf_concat] at honce
  have hplaced := horderly.placed
  have hfirst : first ∈ (start.applyAll moves).history.line id := hpair.subset (by simp)
  have hsecond : second ∈ (start.applyAll moves).history.line id := hpair.subset (by simp)
  by_cases hkept : second ∈ ((start.applyAll moves).apply move).history.line id
  swap
  · refine .passed ?_
    rw [applyAll_concat, commandsOf_concat]
    exact hplaced.gone_of_left hchange honce hsecond hkept
  rcases hplaced.pair_of_change hchange hpair hkept with htogether | ⟨hpast, hout, hmove⟩
  · exact .together (by rwa [applyAll_concat])
  have hgone := hplaced.gone_of_left hchange honce hfirst hout
  by_cases hbusy : (start.applyAll moves).BusyWith first
  · -- Only an undo runs on a command behind a cursor, and it goes on after the limit change.
    obtain ⟨run, hrun, rfl⟩ := hbusy
    have hphase := phase_of_run? hrun
    have hoperation : run.step.operation ≠ .execute := fun hexecute =>
      hplaced.answered id _ hfirst (hplaced.pending_of_execute hphase hexecute)
    obtain ⟨hid, hnext⟩ := horderly.agreeing.next run hrun hoperation id hfirst
    subst hid
    have hundo : run.step.operation = .undo := by
      cases hkind : run.step.operation with
      | execute => contradiction
      | undo => rfl
      | redo =>
        rw [hkind] at hnext
        exact absurd (List.mem_of_mem_head? hnext) (hplaced.not_mem_both hpast)
    rcases hmove with ⟨limit, rfl, hsame⟩ | ⟨other, hother, hexecute, -⟩
    · rw [← applyAll_concat, ← commandsOf_concat] at hgone
      refine .losing run hgone ⟨?_, hundo, moves, limit, [], rfl, hphase, hfirst, ?_⟩ rfl
      · rw [applyAll_concat]
        exact hsame.trans hphase
      · rw [applyAll_concat]
        exact hout
    · obtain rfl := Phase.acting.inj (hphase.symm.trans hother)
      contradiction
  · have hfree : ¬ ((start.applyAll moves).apply move).BusyWith first := by
      rintro ⟨run, hrun, hcommand⟩
      rcases hmove with ⟨limit, -, hsame⟩ | ⟨other, -, -, hover⟩
      · exact hbusy ⟨run, hsame ▸ hrun, hcommand⟩
      · rw [hover] at hrun
        cases hrun
    have hstatus := hplaced.status_of_free hchange (hplaced.mem_of_past hpast) hbusy hfree
    refine .dropped ?_
    rw [applyAll_concat, commandsOf_concat]
    exact ⟨hgone, hfree, hstatus.trans (horderly.agreeing.past id first hpast hbusy)⟩

/-- **One move** keeps track of a pair. -/
theorem Fate.step (hfate : start.Fate moves id first second) : start.Fate (moves ++ [move]) id first second := by
  have hplaced := horderly.placed
  have hchange := horderly.change_apply move
  have honce' := honce
  rw [commandsOf_concat] at honce'
  cases hfate with
  | together hpair => exact fate_of_pair horderly honce hpair
  | passed hgone =>
    refine .passed ?_
    rw [applyAll_concat, commandsOf_concat]
    exact hgone.change hplaced hchange honce'
  | dropped hretired =>
    refine .dropped ?_
    rw [applyAll_concat, commandsOf_concat]
    exact hretired.change hplaced hchange honce'
  | evicted hevicted => exact .evicted (hevicted.extend [move])
  | losing run hgone hlost hcommand =>
    subst hcommand
    have hphase := hlost.1
    have hstill : (start.applyAll (moves ++ [move])).phase = .acting run →
        start.Fate (moves ++ [move]) id run.step.command second := by
      intro hsame
      have hafter := hgone.change hplaced hchange honce'
      rw [← applyAll_concat, ← commandsOf_concat] at hafter
      exact .losing run hafter (hlost.extend hsame) rfl
    rw [applyAll_concat] at hstill
    have hrun : (start.applyAll moves).phase.run? = some run := by rw [hphase]; rfl
    cases hchange with
    | quiet _ _ _ hsame => exact hstill (phase_of_run? (hsame.trans hrun))
    | joined _ _ _ _ _ hsame => exact hstill (hsame.trans hphase)
    | cleared _ _ _ _ hsame => exact hstill (hsame.trans hphase)
    | limited _ _ _ _ _ hsame => exact hstill (hsame.trans hphase)
    | activated _ _ _ _ hsame => exact hstill (hsame.trans hphase)
    | began _ _ _ hidle =>
      rw [hrun] at hidle
      cases hidle
    | ended other outcome hmove hother _ _ hstatuses hover =>
      obtain rfl := Phase.acting.inj (hphase.symm.trans hother)
      have hretired := retired_of_lost horderly hphase hlost.2.1 hgone (horderly.change_apply move) honce'
        hstatuses hover
      split_ifs at hretired with hsucceeded
      · exact .evicted ⟨moves, outcome, [], run, by rw [hmove], hlost, rfl, hsucceeded⟩
      · refine .dropped ?_
        rw [applyAll_concat, commandsOf_concat]
        exact hretired

end Step

/-! ### Whole runs -/

theorem once_left {earlier later : List Move} (honce : ((commandsOf (earlier ++ later)).map Command.id).Nodup) :
    ((commandsOf earlier).map Command.id).Nodup := by
  rw [commandsOf_append, List.map_append] at honce
  exact (List.nodup_append.mp honce).1

section Runs

variable (hstart : start.Orderly [])

include hstart

theorem orderly_run (honce : ((commandsOf moves).map Command.id).Nodup) :
    (start.applyAll moves).Orderly (commandsOf moves) := by
  simpa using hstart.applyAll moves (by simpa using honce)

theorem Fate.append {more : List Move} (hfate : start.Fate moves id first second)
    (honce : ((commandsOf (moves ++ more)).map Command.id).Nodup) :
    start.Fate (moves ++ more) id first second := by
  induction more generalizing moves with
  | nil => simpa using hfate
  | cons move more ih =>
    rw [List.append_cons] at honce ⊢
    have hnow := once_left honce
    exact ih (hfate.step (orderly_run hstart (once_left hnow)) hnow) honce

private theorem LostCommand.gone (honce : ((commandsOf moves).map Command.id).Nodup)
    (hlost : start.LostCommand moves run) : (start.applyAll moves).Gone (commandsOf moves) run.step.command := by
  obtain ⟨-, -, earlier, limit, later, rfl, -, hin, hout⟩ := hlost
  have horderly := orderly_run hstart (once_left honce)
  rw [List.append_cons] at honce ⊢
  have hnow := once_left honce
  rw [applyAll_concat] at hout
  rw [commandsOf_concat] at hnow
  have hgone := horderly.placed.gone_of_left (horderly.change_apply (.setLimit limit)) hnow hin hout
  rw [applyAll_append, commandsOf_append, applyAll_concat, commandsOf_concat]
  rw [commandsOf_append, commandsOf_concat] at honce
  exact hgone.applyAll (horderly.apply _ hnow) later honce

private theorem EvictedDuringUndo.retired (honce : ((commandsOf moves).map Command.id).Nodup)
    (hevicted : start.EvictedDuringUndo moves command) :
    (start.applyAll moves).Retired (commandsOf moves) command .reversed := by
  obtain ⟨earlier, outcome, later, run, rfl, hlost, rfl, hsucceeded⟩ := hevicted
  have hearlier := once_left honce
  have horderly := orderly_run hstart hearlier
  have hgone := LostCommand.gone hstart hearlier hlost
  obtain ⟨hphase, hundo, -⟩ := hlost
  obtain ⟨hstatuses, -, hending⟩ := finish_of_acting hphase outcome
  have hover : ((start.applyAll earlier).finish outcome).phase.run? = none := by
    rcases hending with hidle | ⟨walk, -, hresting⟩
    · rw [hidle]; rfl
    · rw [hresting]; rfl
  rw [List.append_cons] at honce ⊢
  have hnow := once_left honce
  rw [commandsOf_concat] at hnow
  have hretired := retired_of_lost horderly hphase hundo hgone (horderly.change_apply (.finish outcome)) hnow
    hstatuses hover
  rw [if_pos hsucceeded] at hretired
  rw [applyAll_append, commandsOf_append, applyAll_concat, commandsOf_concat]
  rw [commandsOf_append, commandsOf_concat] at honce
  exact hretired.applyAll (horderly.apply _ hnow) later honce

end Runs

/-- **No redoable command outlives an undone one before it**, but for the one exception: whatever else
happens while actions run, when the worker is idle a command that ever stood before a redoable one is
still in the stack or applied exactly if no limit change dropped it during an undo of it that succeeded. -/
theorem stands_or_applied_iff (hfresh : start.Fresh) (honce : ((commandsOf moves).map Command.id).Nodup)
    (hidle : (start.applyAll moves).phase = .idle) (hredo : second ∈ (start.applyAll moves).history.future id)
    (hbefore : start.StoodBefore moves id first second) :
    (first ∈ (start.applyAll moves).history.line id ∨
      (start.applyAll moves).statuses.get first.id = .applied) ↔
      ¬ start.EvictedDuringUndo moves first := by
  have hstart := hfresh.orderly
  constructor
  · intro hstands hevicted
    have hretired := hevicted.retired hstart honce
    rcases hstands with hmem | happlied
    · exact hretired.gone.absent id hmem
    · rw [hretired.kept] at happlied
      cases happlied
  · intro hnever
    obtain ⟨earlier, later, rfl, hpair⟩ := hbefore
    have hfate : start.Fate earlier id first second := .together hpair
    cases hfate.append hstart honce with
    | together hkept => exact .inl (hkept.subset (by simp))
    | passed hgone => exact absurd (List.mem_append_right _ hredo) (hgone.absent id)
    | dropped hretired => exact .inr hretired.kept
    | losing run hgone hlost hcommand =>
      have hacting := hlost.1
      rw [hidle] at hacting
      cases hacting
    | evicted hevicted => exact absurd hevicted hnever

/-! ### Two runs -/

def threeAndBack : List Move := executed [0, 1, 2] ++ underway (.undo none) ++ [success]

def droppedInUndo : List Move := threeAndBack ++ underway (.undo none) ++ [.setLimit 1, success]

/-- Without the exception the rule fails. -/
theorem not_always_stands_or_applied :
    ¬ ∀ (start : Engine) (moves : List Move) (id : StackId) (first second : Command), start.Fresh →
      ((commandsOf moves).map Command.id).Nodup → (start.applyAll moves).phase = .idle →
      second ∈ (start.applyAll moves).history.future id → start.StoodBefore moves id first second →
      first ∈ (start.applyAll moves).history.line id ∨
        (start.applyAll moves).statuses.get first.id = .applied := by
  intro hrule
  have hbefore : sampleEngine.StoodBefore droppedInUndo sampleStack (sampleCommand 1) (sampleCommand 2) := by
    refine ⟨threeAndBack, underway (.undo none) ++ [.setLimit 1, success], ?_, ?_⟩
    · exact List.append_assoc ..
    · decide
  have hstands := hrule sampleEngine droppedInUndo sampleStack (sampleCommand 1) (sampleCommand 2)
    sampleEngine_fresh (by decide) (by decide) (by decide) hbefore
  revert hstands
  decide

/-- The first command is dropped while it is applied. -/
theorem stands_or_applied_first :
    ¬ sampleEngine.EvictedDuringUndo (threeAndBack ++ [.setLimit 2]) (sampleCommand 0) := by
  have hbefore : sampleEngine.StoodBefore (threeAndBack ++ [.setLimit 2]) sampleStack (sampleCommand 0)
      (sampleCommand 2) := ⟨threeAndBack, [.setLimit 2], rfl, by decide⟩
  exact (stands_or_applied_iff sampleEngine_fresh (by decide) (by decide) (by decide) hbefore).mp
    (.inr (by decide))

end Engine

end Retrace
