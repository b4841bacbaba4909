import Retrace.Proofs.Placement

/-!
# What the statuses say

Where no action of a command runs, its place in a line and its status agree: behind the cursor it is
applied, ahead of it reversed. An undo or a redo that runs goes back or forth over the command that
stands next to a cursor, as long as that command is still in a line.
-/

namespace Retrace

namespace Command

variable {command : Command} {direction : Direction} {previous : CommandStatus} {outcome : Outcome}

theorem verdict_of_succeeded (hsucceeded : Outcome.succeeded (outcome.settle command.text) = true) :
    (command.verdict direction previous outcome).2 = direction.success := by
  simp [verdict, CommandStatus.afterRun, hsucceeded]

theorem verdict_of_failed (hfailed : Outcome.succeeded (outcome.settle command.text) = false) :
    (command.verdict direction previous outcome).2 = previous.afterFailure := by
  simp [verdict, CommandStatus.afterRun, hfailed]

end Command

namespace Engine

variable {engine after : Engine} {move : Move} {run : Run} {submitted : List Command}

def BusyWith (engine : Engine) (command : Command) : Prop :=
  ∃ run, engine.phase.run? = some run ∧ run.step.command = command

structure Agreeing (engine : Engine) : Prop where
  past : ∀ id, ∀ command ∈ engine.history.past id,
    ¬ engine.BusyWith command → engine.statuses.get command.id = .applied
  future : ∀ id, ∀ command ∈ engine.history.future id,
    ¬ engine.BusyWith command → engine.statuses.get command.id = .reversed
  next : ∀ run, engine.phase.run? = some run → run.step.operation ≠ .execute →
    ∀ id, run.step.command ∈ engine.history.line id →
      id = run.step.stack ∧ engine.history.next run.step.operation.direction id = some run.step.command
  previous : ∀ run, engine.phase.run? = some run →
    (run.step.operation = .undo → run.previous = .applied) ∧
    (run.step.operation = .redo → run.previous = .reversed)

private theorem Fresh.agreeing (hfresh : engine.Fresh) : engine.Agreeing := by
  obtain ⟨registry, routes, defaultStack, limit, capacity, rfl⟩ := hfresh
  constructor <;> simp [Engine.start, History.past_start, History.future_start, Phase.run?]

/-! ### Nothing of it is lost when lists get shorter -/

private theorem next_backward_of_suffix {before after : List Command} {command : Command} (hsuffix : after <:+ before)
    (hlast : before.getLast? = some command) (hmem : command ∈ after) : after.getLast? = some command := by
  obtain ⟨front, rfl⟩ := hsuffix
  rw [List.getLast?_append] at hlast
  cases hafter : after.getLast? with
  | none => exact absurd (List.getLast?_eq_none_iff.mp hafter) (List.ne_nil_of_mem hmem)
  | some last =>
    rw [hafter, Option.some_or] at hlast
    exact hlast

theorem Placed.not_mem_both (hplaced : engine.Placed submitted) {id : StackId} {command : Command}
    (hpast : command ∈ engine.history.past id) : command ∉ engine.history.future id := by
  have hnodup := hplaced.nodup id
  rw [History.line, List.nodup_append] at hnodup
  intro hfuture
  exact hnodup.2.2 command hpast command hfuture rfl

theorem Placed.ne_of_apart (hplaced : engine.Placed submitted) {id name : StackId} {first second : Command}
    (hfirst : first ∈ engine.history.line id) (hsecond : second ∈ engine.history.line name) (hne : id ≠ name) :
    first ≠ second := by
  rintro rfl
  exact hne (hplaced.apart id name first hfirst hsecond)

theorem Agreeing.frame (hagreeing : engine.Agreeing) (hplaced : engine.Placed submitted)
    (hstatuses : after.statuses = engine.statuses) (hrun : after.phase.run? = engine.phase.run?)
    (hpast : ∀ id, after.history.past id <:+ engine.history.past id)
    (hfuture : ∀ id, after.history.future id = engine.history.future id ∨ after.history.future id = []) :
    after.Agreeing := by
  have hfuture_mem : ∀ {id command}, command ∈ after.history.future id →
      command ∈ engine.history.future id ∧ after.history.future id = engine.history.future id := by
    intro id command hmem
    rcases hfuture id with hsame | hnone
    · exact ⟨hsame ▸ hmem, hsame⟩
    · rw [hnone] at hmem
      cases hmem
  have hbusy : ∀ command, after.BusyWith command ↔ engine.BusyWith command := by
    intro command
    unfold BusyWith
    rw [hrun]
  constructor
  case past =>
    intro id command hmem hfree
    rw [hstatuses]
    exact hagreeing.past id command ((hpast id).subset hmem) (mt (hbusy command).mpr hfree)
  case future =>
    intro id command hmem hfree
    rw [hstatuses]
    exact hagreeing.future id command (hfuture_mem hmem).1 (mt (hbusy command).mpr hfree)
  case next =>
    intro run hafter hoperation id hmem
    rw [hrun] at hafter
    rcases List.mem_append.mp hmem with hbehind | hahead
    · have hold := (hpast id).subset hbehind
      obtain ⟨hid, hnext⟩ := hagreeing.next run hafter hoperation id (List.mem_append_left _ hold)
      refine ⟨hid, ?_⟩
      cases hdirection : run.step.operation.direction with
      | backward =>
        rw [hdirection] at hnext
        exact next_backward_of_suffix (hpast id) hnext hbehind
      | forward =>
        rw [hdirection] at hnext
        exact absurd (List.mem_of_mem_head? hnext) (hplaced.not_mem_both hold)
    · obtain ⟨hold, hsame⟩ := hfuture_mem hahead
      obtain ⟨hid, hnext⟩ := hagreeing.next run hafter hoperation id (List.mem_append_right _ hold)
      refine ⟨hid, ?_⟩
      cases hdirection : run.step.operation.direction with
      | backward =>
        rw [hdirection] at hnext
        exact absurd hold (hplaced.not_mem_both (List.mem_of_mem_getLast? hnext))
      | forward =>
        rw [hdirection] at hnext
        rw [History.next, hsame]
        exact hnext
  case previous =>
    intro run hafter
    rw [hrun] at hafter
    exact hagreeing.previous run hafter

/-! ### Starting and ending actions -/

theorem Placed.mem_of_past (hplaced : engine.Placed submitted) {id : StackId} {command : Command}
    (hmem : command ∈ engine.history.past id) : command ∈ submitted :=
  hplaced.known id command (List.mem_append_left _ hmem)

theorem Placed.mem_of_future (hplaced : engine.Placed submitted) {id : StackId} {command : Command}
    (hmem : command ∈ engine.history.future id) : command ∈ submitted :=
  hplaced.known id command (List.mem_append_right _ hmem)

private theorem Agreeing.began (hagreeing : engine.Agreeing) (hplaced : engine.Placed submitted)
    (hhistory : after.history = engine.history) (hidle : engine.phase.run? = none)
    (hphase : after.phase = .acting run) (hprevious : run.previous = engine.statuses.get run.step.command.id)
    (hstatuses : after.statuses = engine.statuses.set run.step.command.id .running)
    (horigin : engine.Origin run) (hknown : run.step.command ∈ submitted) : after.Agreeing := by
  have hnone : ∀ command, ¬ engine.BusyWith command := by
    rintro command ⟨other, hother, -⟩
    rw [hidle] at hother
    cases hother
  have hrun : after.phase.run? = some run := by rw [hphase]; rfl
  have hothers : ∀ command ∈ submitted, ¬ after.BusyWith command →
      after.statuses.get command.id = engine.statuses.get command.id := by
    intro command hmem hfree
    rw [hstatuses]
    refine StatusBoard.get_set_of_ne _ _ fun hid => hfree ⟨run, hrun, ?_⟩
    exact (hplaced.eq_of_id hmem hknown hid).symm
  constructor
  case past =>
    intro id command hmem hfree
    rw [hhistory] at hmem
    rw [hothers command (hplaced.mem_of_past hmem) hfree]
    exact hagreeing.past id command hmem (hnone command)
  case future =>
    intro id command hmem hfree
    rw [hhistory] at hmem
    rw [hothers command (hplaced.mem_of_future hmem) hfree]
    exact hagreeing.future id command hmem (hnone command)
  case next =>
    intro other hother hoperation id hmem
    obtain rfl : run = other := Option.some.inj (hrun.symm.trans hother)
    rw [hhistory] at hmem ⊢
    cases horigin with
    | submitted hexecute => exact absurd hexecute hoperation
    | recorded _ hgoal hnext =>
      have hid := hplaced.apart id run.step.stack run.step.command hmem (History.mem_line_of_next hnext)
      exact ⟨hid, hid ▸ hnext⟩
  case previous =>
    intro other hother
    obtain rfl : run = other := Option.some.inj (hrun.symm.trans hother)
    cases horigin with
    | submitted hexecute => simp [hexecute]
    | recorded _ hgoal hnext =>
      constructor
      · intro hundo
        rw [hundo] at hnext
        rw [hprevious]
        exact hagreeing.past _ _ (List.mem_of_mem_getLast? hnext) (hnone _)
      · intro hredo
        rw [hredo] at hnext
        rw [hprevious]
        exact hagreeing.future _ _ (List.mem_of_mem_head? hnext) (hnone _)

/-- The command of an action that ends without effect keeps its place and its status. -/
theorem Agreeing.status_of_kept (hagreeing : engine.Agreeing) (hplaced : engine.Placed submitted)
    (hphase : engine.phase = .acting run) {outcome : Outcome}
    (hreason : Outcome.succeeded (outcome.settle run.step.command.text) = false ∨
      engine.generation ≠ run.job.generation ∨
      (run.step.operation = .execute ∧ run.step.command.isQuery = true) ∨
      (run.step.operation ≠ .execute ∧
        engine.history.isNextTo run.step.stack run.step.command.id run.step.operation.direction = false))
    {id : StackId} (hmem : run.step.command ∈ engine.history.line id) :
    engine.history.next run.step.operation.direction id = some run.step.command ∧
      (run.step.operation = .undo ∧ (run.step.command.verdict run.step.operation.direction run.previous
        outcome).2 = .applied ∨
      run.step.operation = .redo ∧ (run.step.command.verdict run.step.operation.direction run.previous
        outcome).2 = .reversed) := by
  have hrun : engine.phase.run? = some run := by rw [hphase]; rfl
  have hoperation : run.step.operation ≠ .execute := fun hexecute =>
    hplaced.answered id _ hmem (hplaced.pending_of_execute hphase hexecute)
  obtain ⟨hid, hnext⟩ := hagreeing.next run hrun hoperation id hmem
  refine ⟨hnext, ?_⟩
  rcases hreason with hfailed | hstale | ⟨hexecute, -⟩ | ⟨-, hmissed⟩
  · rw [Command.verdict_of_failed hfailed]
    cases hkind : run.step.operation with
    | execute => contradiction
    | undo => exact .inl ⟨rfl, by rw [(hagreeing.previous run hrun).1 hkind]; rfl⟩
    | redo => exact .inr ⟨rfl, by rw [(hagreeing.previous run hrun).2 hkind]; rfl⟩
  · rcases hplaced.current run.job (by rw [hphase]; rfl) with hcurrent | hempty
    · exact absurd hcurrent.symm hstale
    · rw [hempty id] at hmem
      cases hmem
  · contradiction
  · have hfound := (hplaced.sound.isNextTo_iff id run.step.command.id run.step.operation.direction).mpr
      ⟨run.step.command, hnext, rfl⟩
    rw [hid, hmissed] at hfound
    cases hfound

def verdictOf (run : Run) (outcome : Outcome) : CommandStatus :=
  (run.step.command.verdict run.step.operation.direction run.previous outcome).2

theorem Agreeing.past_of_effect (hagreeing : engine.Agreeing) (hplaced : engine.Placed submitted)
    (hphase : engine.phase = .acting run) {outcome : Outcome} {history : History}
    (heffect : engine.Effect run outcome history) {id : StackId} {command : Command}
    (hmem : command ∈ history.past id) :
    command ≠ run.step.command ∧ command ∈ engine.history.past id ∨
      command = run.step.command ∧ verdictOf run outcome = .applied := by
  have hknown := (hplaced.origin run (by rw [hphase]; rfl)).1
  cases heffect with
  | kept hlists hreason =>
    have hold : command ∈ engine.history.past id := by
      rwa [History.past_of_lists (hlists id)] at hmem
    by_cases hsame : command = run.step.command
    · subst hsame
      obtain ⟨hnext, hverdict⟩ :=
        hagreeing.status_of_kept hplaced hphase hreason (List.mem_append_left _ hold)
      rcases hverdict with ⟨-, happlied⟩ | ⟨hredo, -⟩
      · exact .inr ⟨rfl, happlied⟩
      · rw [hredo] at hnext
        exact absurd (List.mem_of_mem_head? hnext) (hplaced.not_mem_both hold)
    · exact .inl ⟨hsame, hold⟩
  | recorded hsucceeded hcurrent hoperation hmutating hlists =>
    have hpending := hplaced.pending_of_execute hphase hoperation
    have hother : ∀ {name}, command ∈ engine.history.past name → command ≠ run.step.command :=
      fun hold hsame => hplaced.answered _ _ (List.mem_append_left _ hold) (hsame ▸ hpending)
    have hlist := hlists id
    split_ifs at hlist with hid
    · rw [History.past_of_lists hlist] at hmem
      rcases List.mem_append.mp ((Stack.within_past_suffix ..).subset hmem) with hold | hnew
      · exact .inl ⟨hother hold, hid ▸ hold⟩
      · refine .inr ⟨List.mem_singleton.mp hnew, ?_⟩
        rw [verdictOf, Command.verdict_of_succeeded hsucceeded, hoperation]
        rfl
    · have hold : command ∈ engine.history.past id := by
        rwa [History.past_of_lists hlist] at hmem
      exact .inl ⟨hother hold, hold⟩
  | undone hsucceeded hcurrent hoperation passed front hnumber hpast hlists =>
    have hbehind : passed ∈ engine.history.past run.step.stack := by simp [hpast]
    obtain rfl := hplaced.eq_of_id (hplaced.mem_of_past hbehind) hknown hnumber
    have hlist := hlists id
    split_ifs at hlist with hid
    · rw [History.past_of_lists hlist] at hmem
      have hnodup := hplaced.nodup run.step.stack
      rw [History.line, hpast, List.append_assoc, List.nodup_append] at hnodup
      refine .inl ⟨hnodup.2.2 command hmem _ (by simp), ?_⟩
      rw [hid, hpast]
      exact List.mem_append_left _ hmem
    · have hold : command ∈ engine.history.past id := by
        rwa [History.past_of_lists hlist] at hmem
      have hne := hplaced.ne_of_apart (List.mem_append_left _ hold) (List.mem_append_left _ hbehind) hid
      exact .inl ⟨hne, hold⟩
  | redone hsucceeded hcurrent hoperation passed rest hnumber hfuture hlists =>
    have hahead : passed ∈ engine.history.future run.step.stack := by simp [hfuture]
    obtain rfl := hplaced.eq_of_id (hplaced.mem_of_future hahead) hknown hnumber
    have hlist := hlists id
    split_ifs at hlist with hid
    · rw [History.past_of_lists hlist] at hmem
      rcases List.mem_append.mp hmem with hold | hnew
      · exact .inl ⟨fun hsame => hplaced.not_mem_both hold (hsame ▸ hahead), hid ▸ hold⟩
      · refine .inr ⟨List.mem_singleton.mp hnew, ?_⟩
        rw [verdictOf, Command.verdict_of_succeeded hsucceeded, hoperation]
        rfl
    · have hold : command ∈ engine.history.past id := by
        rwa [History.past_of_lists hlist] at hmem
      have hne := hplaced.ne_of_apart (List.mem_append_left _ hold) (List.mem_append_right _ hahead) hid
      exact .inl ⟨hne, hold⟩

theorem Agreeing.future_of_effect (hagreeing : engine.Agreeing) (hplaced : engine.Placed submitted)
    (hphase : engine.phase = .acting run) {outcome : Outcome} {history : History}
    (heffect : engine.Effect run outcome history) {id : StackId} {command : Command}
    (hmem : command ∈ history.future id) :
    command ≠ run.step.command ∧ command ∈ engine.history.future id ∨
      command = run.step.command ∧ verdictOf run outcome = .reversed := by
  have hknown := (hplaced.origin run (by rw [hphase]; rfl)).1
  cases heffect with
  | kept hlists hreason =>
    have hold : command ∈ engine.history.future id := by
      rwa [History.future_of_lists (hlists id)] at hmem
    by_cases hsame : command = run.step.command
    · subst hsame
      obtain ⟨hnext, hverdict⟩ :=
        hagreeing.status_of_kept hplaced hphase hreason (List.mem_append_right _ hold)
      rcases hverdict with ⟨hundo, -⟩ | ⟨-, hreversed⟩
      · rw [hundo] at hnext
        exact absurd hold (hplaced.not_mem_both (List.mem_of_mem_getLast? hnext))
      · exact .inr ⟨rfl, hreversed⟩
    · exact .inl ⟨hsame, hold⟩
  | recorded hsucceeded hcurrent hoperation hmutating hlists =>
    have hpending := hplaced.pending_of_execute hphase hoperation
    have hlist := hlists id
    split_ifs at hlist with hid
    · rw [History.future_of_lists hlist, or_self_iff.mp (Stack.within_future ..)] at hmem
      cases hmem
    · have hold : command ∈ engine.history.future id := by
        rwa [History.future_of_lists hlist] at hmem
      refine .inl ⟨fun hsame => ?_, hold⟩
      exact hplaced.answered _ _ (List.mem_append_right _ hold) (hsame ▸ hpending)
  | undone hsucceeded hcurrent hoperation passed front hnumber hpast hlists =>
    have hbehind : passed ∈ engine.history.past run.step.stack := by simp [hpast]
    obtain rfl := hplaced.eq_of_id (hplaced.mem_of_past hbehind) hknown hnumber
    have hlist := hlists id
    split_ifs at hlist with hid
    · rw [History.future_of_lists hlist] at hmem
      rcases List.mem_cons.mp hmem with hnew | hold
      · refine .inr ⟨hnew, ?_⟩
        rw [verdictOf, Command.verdict_of_succeeded hsucceeded, hoperation]
        rfl
      · exact .inl ⟨fun hsame => hplaced.not_mem_both hbehind (hsame ▸ hold), hid ▸ hold⟩
    · have hold : command ∈ engine.history.future id := by
        rwa [History.future_of_lists hlist] at hmem
      have hne := hplaced.ne_of_apart (List.mem_append_right _ hold) (List.mem_append_left _ hbehind) hid
      exact .inl ⟨hne, hold⟩
  | redone hsucceeded hcurrent hoperation passed rest hnumber hfuture hlists =>
    have hahead : passed ∈ engine.history.future run.step.stack := by simp [hfuture]
    obtain rfl := hplaced.eq_of_id (hplaced.mem_of_future hahead) hknown hnumber
    have hlist := hlists id
    split_ifs at hlist with hid
    · rw [History.future_of_lists hlist] at hmem
      have hnodup := hplaced.nodup run.step.stack
      rw [History.line, hfuture, List.nodup_append, List.nodup_cons] at hnodup
      refine .inl ⟨fun hsame => hnodup.2.1.1 (hsame ▸ hmem), ?_⟩
      rw [hid, hfuture]
      exact List.mem_cons_of_mem _ hmem
    · have hold : command ∈ engine.history.future id := by
        rwa [History.future_of_lists hlist] at hmem
      have hne := hplaced.ne_of_apart (List.mem_append_right _ hold) (List.mem_append_right _ hahead) hid
      exact .inl ⟨hne, hold⟩

private theorem Agreeing.ended (hagreeing : engine.Agreeing) (hplaced : engine.Placed submitted)
    (hphase : engine.phase = .acting run) {outcome : Outcome}
    (heffect : engine.Effect run outcome after.history)
    (hstatuses : after.statuses = engine.statuses.set run.step.command.id (verdictOf run outcome))
    (hrun : after.phase.run? = none) : after.Agreeing := by
  have hknown := (hplaced.origin run (by rw [hphase]; rfl)).1
  have hothers : ∀ command ∈ submitted, command ≠ run.step.command →
      after.statuses.get command.id = engine.statuses.get command.id ∧ ¬ engine.BusyWith command := by
    intro command hmem hne
    constructor
    · rw [hstatuses]
      exact StatusBoard.get_set_of_ne _ _ fun hid => hne (hplaced.eq_of_id hmem hknown hid)
    · rintro ⟨other, hother, hcommand⟩
      rw [hphase] at hother
      exact hne (Option.some.inj hother ▸ hcommand.symm)
  constructor
  case past =>
    intro id command hmem _
    rcases hagreeing.past_of_effect hplaced hphase heffect hmem with ⟨hne, hold⟩ | ⟨rfl, hverdict⟩
    · obtain ⟨hsame, hfree⟩ := hothers command (hplaced.mem_of_past hold) hne
      rw [hsame]
      exact hagreeing.past id command hold hfree
    · rw [hstatuses, StatusBoard.get_set_self, hverdict]
  case future =>
    intro id command hmem _
    rcases hagreeing.future_of_effect hplaced hphase heffect hmem with ⟨hne, hold⟩ | ⟨rfl, hverdict⟩
    · obtain ⟨hsame, hfree⟩ := hothers command (hplaced.mem_of_future hold) hne
      rw [hsame]
      exact hagreeing.future id command hold hfree
    · rw [hstatuses, StatusBoard.get_set_self, hverdict]
  case next =>
    intro other hother
    rw [hrun] at hother
    cases hother
  case previous =>
    intro other hother
    rw [hrun] at hother
    cases hother

/-! ### Every move keeps it -/

theorem Agreeing.change (hagreeing : engine.Agreeing) (hplaced : engine.Placed submitted)
    (hchange : engine.Change move after) : after.Agreeing := by
  have hsame : after.history = engine.history → after.statuses = engine.statuses →
      after.phase.run? = engine.phase.run? → after.Agreeing := fun hhistory hstatuses hrun =>
    hagreeing.frame hplaced hstatuses hrun (fun id => hhistory ▸ List.suffix_refl _)
      fun id => .inl (hhistory ▸ rfl)
  cases hchange with
  | quiet hhistory hgeneration hstatuses hrun => exact hsame hhistory hstatuses hrun
  | joined command hmove hhistory hgeneration hstatuses hphase =>
    exact hsame hhistory hstatuses (by rw [hphase])
  | cleared hmove hhistory hgeneration hstatuses hphase =>
    refine hagreeing.frame hplaced hstatuses (by rw [hphase]) ?_ ?_
    · intro id
      rw [hhistory, History.past_clear]
      exact List.nil_suffix
    · intro id
      rw [hhistory]
      exact .inr (History.future_clear ..)
  | limited limit hmove hhistory hgeneration hstatuses hphase =>
    have hlists := hplaced.sound.lists_setLimit limit
    refine hagreeing.frame hplaced hstatuses (by rw [hphase]) ?_ ?_
    · intro id
      rw [hhistory, History.past_of_lists (hlists id)]
      exact Stack.within_past_suffix ..
    · intro id
      rw [hhistory, History.future_of_lists (hlists id)]
      exact Stack.within_future ..
  | activated stack hhistory hgeneration hstatuses hphase =>
    refine hagreeing.frame hplaced hstatuses (by rw [hphase]) ?_ ?_
    · intro id
      rw [hhistory, History.past_activate]
    · intro id
      rw [hhistory]
      exact .inl (History.future_activate ..)
  | began run hhistory hgeneration hidle hjob hphase hprevious hstatuses horigin =>
    have hknown := hplaced.mem_of_origin hjob horigin
    exact hagreeing.began hplaced hhistory hidle hphase hprevious hstatuses horigin hknown
  | ended run outcome hmove hphase hhistory hgeneration hstatuses hrun =>
    have heffect := effect_of_ended hplaced.sound run outcome
    rw [← hhistory] at heffect
    exact hagreeing.ended hplaced hphase heffect hstatuses hrun

/-- A state that a run without repeated submissions can reach. -/
structure Orderly (engine : Engine) (submitted : List Command) : Prop where
  placed : engine.Placed submitted
  agreeing : engine.Agreeing

theorem Fresh.orderly (hfresh : engine.Fresh) : engine.Orderly [] := ⟨hfresh.placed, hfresh.agreeing⟩

theorem Orderly.change_apply (horderly : engine.Orderly submitted) (move : Move) :
    engine.Change move (engine.apply move) :=
  horderly.placed.toSteady.change_apply move

theorem Orderly.apply (horderly : engine.Orderly submitted) (move : Move)
    (honce : ((submitted ++ move.command?.toList).map Command.id).Nodup) :
    (engine.apply move).Orderly (submitted ++ move.command?.toList) where
  placed := horderly.placed.change (horderly.change_apply move) honce
  agreeing := horderly.agreeing.change horderly.placed (horderly.change_apply move)

theorem Orderly.keeps {P : Engine → List Command → Prop}
    (hstep : ∀ {engine submitted} (move : Move), engine.Orderly submitted →
      ((submitted ++ move.command?.toList).map Command.id).Nodup → P engine submitted →
        P (engine.apply move) (submitted ++ move.command?.toList))
    (horderly : engine.Orderly submitted) (hholds : P engine submitted) (moves : List Move)
    (honce : ((submitted ++ commandsOf moves).map Command.id).Nodup) :
    P (engine.applyAll moves) (submitted ++ commandsOf moves) := by
  induction moves generalizing engine submitted with
  | nil => simpa [commandsOf] using hholds
  | cons move moves ih =>
    rw [commandsOf_cons, ← List.append_assoc] at honce ⊢
    have hnow : ((submitted ++ move.command?.toList).map Command.id).Nodup := by
      rw [List.map_append] at honce
      exact (List.nodup_append.mp honce).1
    exact ih (horderly.apply move hnow) (hstep move horderly hnow hholds) honce

theorem Orderly.applyAll (horderly : engine.Orderly submitted) (moves : List Move)
    (honce : ((submitted ++ commandsOf moves).map Command.id).Nodup) :
    (engine.applyAll moves).Orderly (submitted ++ commandsOf moves) :=
  horderly.keeps (fun move horderly hnow _ => horderly.apply move hnow) horderly moves honce

/-! ### When the worker is idle -/

/-- **Cursor and status agree.** In a run that submits no command twice, whatever else happens while actions
run, every command of a stack is applied before the cursor and reversed from there on when the worker is idle. -/
theorem status_eq_of_cursor {start : Engine} {moves : List Move} (hfresh : start.Fresh)
    (honce : ((commandsOf moves).map Command.id).Nodup) (hidle : (start.applyAll moves).phase = .idle)
    (stack : Stack) (hstack : stack ∈ (start.applyAll moves).history.stackList) (index : Nat) (command : Command)
    (hcommand : stack.commandAt index = some command) :
    (start.applyAll moves).statuses.get command.id =
      if index < stack.applied then .applied else .reversed := by
  have horderly := hfresh.orderly.applyAll moves (by simpa using honce)
  have hsound := horderly.placed.sound
  obtain ⟨hcommands, happlied⟩ := hsound.holds (History.stack?_of_mem hsound.keyed hstack)
  -- No action runs, so what an action in between may change is as the cursor says.
  have hfree : ¬ (start.applyAll moves).BusyWith command := by
    rintro ⟨run, hrun, -⟩
    rw [hidle] at hrun
    cases hrun
  rw [Stack.commandAt, hcommands] at hcommand
  rw [happlied]
  split_ifs with hbehind
  · rw [List.getElem?_append_left hbehind] at hcommand
    exact horderly.agreeing.past _ command (List.mem_of_getElem? hcommand) hfree
  · rw [List.getElem?_append_right (Nat.le_of_not_lt hbehind)] at hcommand
    exact horderly.agreeing.future _ command (List.mem_of_getElem? hcommand) hfree

/-- Of three commands the oldest is dropped while the last one is undone. -/
def trimmedInUndo : List Move := executed [0, 1, 2] ++ underway (.undo none) ++ [.setLimit 2, success]

/-- The two that are left stand on the two sides of the cursor. -/
theorem status_eq_of_cursor_trimmed :
    (sampleEngine.applyAll trimmedInUndo).statuses.get 1 = .applied ∧
      (sampleEngine.applyAll trimmedInUndo).statuses.get 2 = .reversed := by
  have hstatus := status_eq_of_cursor sampleEngine_fresh (show ((commandsOf trimmedInUndo).map Command.id).Nodup by decide) (by decide)
    ⟨sampleStack, [sampleCommand 1, sampleCommand 2], 1, 4⟩ (by decide)
  exact ⟨hstatus 0 (sampleCommand 1) rfl, hstatus 1 (sampleCommand 2) rfl⟩

end Engine

end Retrace
