import Retrace.Proofs.Flow

/-!
# Where the commands are

In a run that submits no command twice, a command is in one place at most: its job is still to come or
not over, or it stands once in the line of one stack. `Placed` says so of a state; every move keeps it,
and a command that has left its place never comes back.
-/

namespace Retrace

namespace Engine

variable {engine after : Engine} {move : Move} {run : Run} {submitted : List Command}

/-! ### The invariant -/

/-- Where the submitted commands are. The commands of one list come from different submissions, none is
in two places, only mutating ones are recorded, and a job from before a clear meets empty stacks. -/
structure Placed (engine : Engine) (submitted : List Command) : Prop extends engine.Steady where
  once : (submitted.map Command.id).Nodup
  pending : engine.pending.Sublist submitted
  known : ∀ id, ∀ command ∈ engine.history.line id, command ∈ submitted
  nodup : ∀ id, (engine.history.line id).Nodup
  apart : ∀ id other, ∀ command ∈ engine.history.line id, command ∈ engine.history.line other → id = other
  answered : ∀ id, ∀ command ∈ engine.history.line id, command ∉ engine.pending
  current : ∀ job, engine.phase.job? = some job →
    job.generation = engine.generation ∨ ∀ id, engine.history.line id = []
  origin : ∀ run, engine.phase.run? = some run → run.step.command ∈ submitted ∧
    (run.step.operation = .execute →
      run.walk = none ∧ run.job.goal.command? = some run.step.command) ∧
    (run.step.operation ≠ .execute → run.job.goal.command? = none)

theorem Fresh.placed (hfresh : engine.Fresh) : engine.Placed [] := by
  have hline := hfresh.line_eq
  have hstart : engine.phase = .idle ∧ engine.pending = [] := by
    obtain ⟨registry, routes, defaultStack, limit, capacity, rfl⟩ := hfresh
    exact ⟨rfl, rfl⟩
  refine ⟨hfresh.steady, ?_, ?_, ?_, ?_, ?_, ?_, ?_, ?_⟩ <;> simp [hline, hstart, Phase.job?, Phase.run?]

/-- In a run that submits nothing twice, a command is known by its number. -/
theorem Placed.eq_of_id (hplaced : engine.Placed submitted) {first second : Command} (hfirst : first ∈ submitted)
    (hsecond : second ∈ submitted) (hid : first.id = second.id) : first = second :=
  List.inj_on_of_nodup_map hplaced.once hfirst hsecond hid

theorem Placed.pending_of_execute (hplaced : engine.Placed submitted) (hphase : engine.phase = .acting run)
    (hoperation : run.step.operation = .execute) : run.step.command ∈ engine.pending := by
  have hcommand := ((hplaced.origin run (by rw [hphase]; rfl)).2.1 hoperation).2
  have hjob : engine.phase.job? = some run.job := by rw [hphase]; rfl
  rw [pending_of_job hjob, hcommand]
  exact List.mem_cons_self

/-! ### Every move keeps it -/

theorem Change.pending (hchange : engine.Change move after) :
    after.pending.Sublist (engine.pending ++ move.command?.toList) := by
  have hmore : engine.pending.Sublist (engine.pending ++ move.command?.toList) :=
    List.sublist_append_left ..
  cases hchange with
  | quiet _ _ _ _ _ hpending => exact hpending.trans hmore
  | joined command hmove _ _ _ _ hpending => rw [hpending, hmove]; exact List.Sublist.refl _
  | cleared _ _ _ _ _ hpending => rw [hpending]; exact hmore
  | limited _ _ _ _ _ _ hpending => rw [hpending]; exact hmore
  | activated _ _ _ _ _ hpending => rw [hpending]; exact hmore
  | began _ _ _ _ _ _ _ _ _ hpending => rw [hpending]; exact hmore
  | ended _ _ _ _ _ _ _ _ _ hpending => exact hpending.trans hmore

theorem Change.job (hchange : engine.Change move after) {job : Job} (hjob : after.phase.job? = some job) :
    engine.phase.job? = some job ∨ job.generation = engine.generation := by
  cases hchange with
  | quiet _ _ _ _ hkept => exact hkept job hjob
  | joined _ _ _ _ _ hphase => exact .inl (hphase ▸ hjob)
  | cleared _ _ _ _ hphase => exact .inl (hphase ▸ hjob)
  | limited _ _ _ _ _ hphase => exact .inl (hphase ▸ hjob)
  | activated _ _ _ _ hphase => exact .inl (hphase ▸ hjob)
  | began run _ _ _ hold hphase =>
    rw [hphase] at hjob
    exact .inl (hold.trans hjob)
  | ended _ _ _ _ _ _ _ _ hkept => exact .inl (hkept job hjob)

theorem Change.started (hchange : engine.Change move after) (hrun : after.phase.run? = some run) :
    engine.phase.run? = some run ∨ engine.phase.job? = some run.job ∧ engine.Origin run := by
  cases hchange with
  | quiet _ _ _ hkept => exact .inl (hkept ▸ hrun)
  | joined _ _ _ _ _ hphase => exact .inl (hphase ▸ hrun)
  | cleared _ _ _ _ hphase => exact .inl (hphase ▸ hrun)
  | limited _ _ _ _ _ hphase => exact .inl (hphase ▸ hrun)
  | activated _ _ _ _ hphase => exact .inl (hphase ▸ hrun)
  | began started _ _ _ hjob hphase _ _ horigin =>
    rw [hphase] at hrun
    exact Option.some.inj hrun ▸ .inr ⟨hjob, horigin⟩
  | ended _ _ _ _ _ _ _ hnone =>
    rw [hnone] at hrun
    cases hrun

private theorem Change.generation (hchange : engine.Change move after) :
    after.generation = engine.generation ∨ ∀ id, after.history.line id = [] := by
  cases hchange with
  | quiet _ hgeneration => exact .inl hgeneration
  | joined _ _ _ hgeneration => exact .inl hgeneration
  | cleared _ hhistory =>
    refine .inr fun id => ?_
    rw [hhistory, History.line, History.past_clear, History.future_clear]
    rfl
  | limited _ _ _ hgeneration => exact .inl hgeneration
  | activated _ _ hgeneration => exact .inl hgeneration
  | began _ _ hgeneration => exact .inl hgeneration
  | ended _ _ _ _ _ hgeneration => exact .inl hgeneration

/-- A job from before a clear meets empty stacks. -/
theorem Change.current (hchange : engine.Change move after) (hsound : engine.history.Sound)
    (hcurrent : ∀ job, engine.phase.job? = some job →
      job.generation = engine.generation ∨ ∀ id, engine.history.line id = []) :
    ∀ job, after.phase.job? = some job → job.generation = after.generation ∨ ∀ id, after.history.line id = [] := by
  intro job hjob
  rcases hchange.generation with hgeneration | hempty
  · rw [hgeneration]
    rcases hchange.job hjob with hsame | hfresh
    · rcases hcurrent job hsame with hcurrent | hempty
      · exact .inl hcurrent
      · cases hchange.flow hsound with
        | shrunk hline =>
          refine .inr fun id => ?_
          have hnone := hline id
          rw [hempty id] at hnone
          exact List.sublist_nil.mp hnone
        | grown run hphase hcurrent =>
          rw [hphase] at hsame
          exact .inl (Option.some.inj hsame ▸ hcurrent.symm)
    · exact .inl hfresh
  · exact .inr hempty

theorem Placed.arrival (hplaced : engine.Placed submitted) (hchange : engine.Change move after) {id : StackId}
    {command : Command} (hmem : command ∈ after.history.line id) :
    command ∈ engine.history.line id ∨
      ∃ run, engine.phase = .acting run ∧ run.step.command = command ∧ run.step.stack = id ∧
        command.isQuery = false ∧ engine.pending = command :: after.pending := by
  cases hchange.flow hplaced.sound with
  | shrunk hline => exact .inl ((hline id).subset hmem)
  | grown run hphase hcurrent hoperation hmutating hover hline =>
    rcases List.mem_append.mp ((hline id).subset hmem) with hold | hnew
    · exact .inl hold
    · split_ifs at hnew with hid
      · obtain ⟨hwalk, hcommand⟩ := (hplaced.origin run (by rw [hphase]; rfl)).2.1 hoperation
        have hpending := hover hwalk
        rw [hcommand] at hpending
        rw [List.mem_singleton.mp hnew]
        exact .inr ⟨run, hphase, rfl, hid.symm, hmutating, hpending⟩
      · cases hnew

private theorem Placed.pending_nodup (hplaced : engine.Placed submitted) : engine.pending.Nodup :=
  hplaced.once.of_map.sublist hplaced.pending

theorem not_submitted {command joined : Command} (hjoined : joined ∈ move.command?)
    (honce : ((submitted ++ move.command?.toList).map Command.id).Nodup) (hmem : command ∈ submitted) :
    command.id ≠ joined.id := by
  rw [hjoined, List.map_append, List.nodup_append] at honce
  exact honce.2.2 _ (List.mem_map_of_mem hmem) _ (by simp)

theorem Change.stays_answered (hchange : engine.Change move after)
    (honce : ((submitted ++ move.command?.toList).map Command.id).Nodup) {command : Command}
    (hsubmitted : command ∈ submitted) (hanswered : command ∉ engine.pending) : command ∉ after.pending := by
  intro hpending
  rcases List.mem_append.mp (hchange.pending.subset hpending) with hbefore | hjoined
  · exact hanswered hbefore
  · exact not_submitted (Option.mem_toList.mp hjoined) honce hsubmitted rfl

theorem Placed.mem_of_origin (hplaced : engine.Placed submitted) (hjob : engine.phase.job? = some run.job)
    (horigin : engine.Origin run) : run.step.command ∈ submitted := by
  cases horigin with
  | submitted hoperation hwalk hgoal =>
    refine hplaced.pending.subset ?_
    rw [pending_of_job hjob, hgoal]
    exact List.mem_cons_self
  | recorded hoperation hgoal hnext => exact hplaced.known _ _ (History.mem_line_of_next hnext)

theorem Placed.change (hplaced : engine.Placed submitted) (hchange : engine.Change move after)
    (honce : ((submitted ++ move.command?.toList).map Command.id).Nodup) :
    after.Placed (submitted ++ move.command?.toList) := by
  have hmore : ∀ {command}, command ∈ submitted → command ∈ submitted ++ move.command?.toList :=
    fun hmem => List.mem_append_left _ hmem
  constructor
  case toSteady => exact hplaced.toSteady.change hchange
  case once => exact honce
  case pending => exact hchange.pending.trans (hplaced.pending.append (List.Sublist.refl _))
  case known =>
    intro id command hmem
    rcases hplaced.arrival hchange hmem with hold | ⟨run, hphase, hcommand, hid, hmutating, hpending⟩
    · exact hmore (hplaced.known id command hold)
    · exact hmore (hplaced.pending.subset (hpending ▸ List.mem_cons_self))
  case nodup =>
    intro id
    cases hchange.flow hplaced.sound with
    | shrunk hline => exact (hplaced.nodup id).sublist (hline id)
    | grown run hphase hcurrent hoperation hmutating hover hline =>
      refine List.Nodup.sublist (hline id) ?_
      split_ifs
      · rw [List.nodup_append]
        refine ⟨hplaced.nodup id, List.nodup_singleton _, ?_⟩
        intro command hmem other hother heq
        have hrunning : other = run.step.command := List.mem_singleton.mp hother
        refine hplaced.answered id command hmem ?_
        rw [heq, hrunning]
        exact hplaced.pending_of_execute hphase hoperation
      · rw [List.append_nil]
        exact hplaced.nodup id
  case apart =>
    intro id other command hmem hother
    rcases hplaced.arrival hchange hmem with hold | ⟨run, hphase, hcommand, hid, hmutating, hpending⟩
    · rcases hplaced.arrival hchange hother with hold' | ⟨run, hphase, hcommand, hid, hmutating, hpending⟩
      · exact hplaced.apart id other command hold hold'
      · exact absurd (hpending ▸ List.mem_cons_self) (hplaced.answered id command hold)
    · rcases hplaced.arrival hchange hother with hold' | ⟨run', hphase', hcommand', hid', hmutating', hpending'⟩
      · exact absurd (hpending ▸ List.mem_cons_self) (hplaced.answered other command hold')
      · rw [hphase] at hphase'
        rw [← hid, ← hid', Phase.acting.inj hphase']
  case answered =>
    intro id command hmem
    rcases hplaced.arrival hchange hmem with hold | ⟨run, hphase, hcommand, hid, hmutating, hpending⟩
    · exact hchange.stays_answered honce (hplaced.known id command hold) (hplaced.answered id command hold)
    · have hnodup := hplaced.pending_nodup
      rw [hpending, List.nodup_cons] at hnodup
      exact hnodup.1
  case current => exact hchange.current hplaced.sound hplaced.current
  case origin =>
    intro run hrun
    rcases hchange.started hrun with hsame | ⟨hjob, horigin⟩
    · obtain ⟨hmem, hrest⟩ := hplaced.origin run hsame
      exact ⟨hmore hmem, hrest⟩
    · refine ⟨hmore (hplaced.mem_of_origin hjob horigin), ?_⟩
      cases horigin with
      | submitted hoperation hwalk hgoal =>
        exact ⟨fun _ => ⟨hwalk, by rw [hgoal]; rfl⟩, fun hmove => absurd hoperation hmove⟩
      | recorded hoperation hgoal hnext =>
        exact ⟨fun hexecute => absurd hexecute hoperation, fun _ => hgoal⟩

def commandsOf (moves : List Move) : List Command := moves.filterMap Move.command?

theorem commandsOf_cons (move : Move) (moves : List Move) :
    commandsOf (move :: moves) = move.command?.toList ++ commandsOf moves := by
  cases hcommand : move.command? <;> simp [commandsOf, hcommand]

theorem commandsOf_append (first second : List Move) :
    commandsOf (first ++ second) = commandsOf first ++ commandsOf second :=
  List.filterMap_append

/-! ### Commands that have left -/

/-- A command that has been submitted, whose job is over and that stands in no line. -/
structure Gone (engine : Engine) (submitted : List Command) (command : Command) : Prop where
  submitted : command ∈ submitted
  answered : command ∉ engine.pending
  absent : ∀ id, command ∉ engine.history.line id

/-- A command that has left its line never comes back. -/
theorem Gone.change {command : Command} (hgone : engine.Gone submitted command)
    (hplaced : engine.Placed submitted) (hchange : engine.Change move after)
    (honce : ((submitted ++ move.command?.toList).map Command.id).Nodup) :
    after.Gone (submitted ++ move.command?.toList) command where
  submitted := List.mem_append_left _ hgone.submitted
  answered := hchange.stays_answered honce hgone.submitted hgone.answered
  absent := by
    intro id hmem
    rcases hplaced.arrival hchange hmem with hold | ⟨run, hphase, hcommand, hid, hmutating, hpending⟩
    · exact hgone.absent id hold
    · exact hgone.answered (hpending ▸ List.mem_cons_self)

theorem Placed.gone_of_left (hplaced : engine.Placed submitted) (hchange : engine.Change move after)
    (honce : ((submitted ++ move.command?.toList).map Command.id).Nodup) {id : StackId} {command : Command}
    (hbefore : command ∈ engine.history.line id) (hleft : command ∉ after.history.line id) :
    after.Gone (submitted ++ move.command?.toList) command where
  submitted := List.mem_append_left _ (hplaced.known id command hbefore)
  answered := hchange.stays_answered honce (hplaced.known id command hbefore) (hplaced.answered id command hbefore)
  absent := by
    intro name hmem
    rcases hplaced.arrival hchange hmem with hold | ⟨run, hphase, hcommand, hid, hmutating, hpending⟩
    · exact hleft (hplaced.apart id name command hbefore hold ▸ hmem)
    · exact hplaced.answered id command hbefore (hpending ▸ List.mem_cons_self)

end Engine

end Retrace
