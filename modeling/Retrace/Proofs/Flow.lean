import Retrace.Proofs.Change

/-!
# What comes into the stacks

The end of an action is the only move that brings a command into a stack, and it brings in a mutating
command that has just been executed. So in every state of every run the stacks are sound and hold no
queries.
-/

namespace Retrace

namespace Engine

variable {engine after : Engine} {move : Move} {run : Run} {submitted : List Command}

/-! ### The end of an action -/

/-- What the end of an action does to the stacks: nothing for one of four reasons, or it records the
command, or it passes the command that stands next to the cursor. -/
inductive Effect (engine : Engine) (run : Run) (outcome : Outcome) (after : History) : Prop where
  | kept
      (hlists : ∀ id, (after.past id, after.future id) = (engine.history.past id, engine.history.future id))
      (hreason : Outcome.succeeded (outcome.settle run.step.command.text) = false ∨
        engine.generation ≠ run.job.generation ∨
        (run.step.operation = .execute ∧ run.step.command.isQuery = true) ∨
        (run.step.operation ≠ .execute ∧
          engine.history.isNextTo run.step.stack run.step.command.id run.step.operation.direction = false))
  | recorded (hsucceeded : Outcome.succeeded (outcome.settle run.step.command.text) = true)
      (hcurrent : engine.generation = run.job.generation) (hoperation : run.step.operation = .execute)
      (hmutating : run.step.command.isQuery = false)
      (hlists : ∀ id, (after.past id, after.future id) =
        if id = run.step.stack then
          Stack.within engine.history.limit (engine.history.past run.step.stack ++ [run.step.command]) []
        else (engine.history.past id, engine.history.future id))
  | undone (hsucceeded : Outcome.succeeded (outcome.settle run.step.command.text) = true)
      (hcurrent : engine.generation = run.job.generation) (hoperation : run.step.operation = .undo)
      (passed : Command) (front : List Command) (hid : passed.id = run.step.command.id)
      (hpast : engine.history.past run.step.stack = front ++ [passed])
      (hlists : ∀ id, (after.past id, after.future id) =
        if id = run.step.stack then (front, passed :: engine.history.future run.step.stack)
        else (engine.history.past id, engine.history.future id))
  | redone (hsucceeded : Outcome.succeeded (outcome.settle run.step.command.text) = true)
      (hcurrent : engine.generation = run.job.generation) (hoperation : run.step.operation = .redo)
      (passed : Command) (rest : List Command) (hid : passed.id = run.step.command.id)
      (hfuture : engine.history.future run.step.stack = passed :: rest)
      (hlists : ∀ id, (after.past id, after.future id) =
        if id = run.step.stack then (engine.history.past run.step.stack ++ [passed], rest)
        else (engine.history.past id, engine.history.future id))

theorem takeEffect_of_stale (hstale : engine.generation ≠ run.job.generation) :
    (engine.takeEffect run).1 = engine.history := by
  rw [takeEffect, if_pos hstale]

theorem takeEffect_of_execute (hcurrent : engine.generation = run.job.generation)
    (hoperation : run.step.operation = .execute) :
    (engine.takeEffect run).1 =
      if run.step.command.isQuery then engine.history
      else engine.history.record run.step.stack run.step.command := by
  rw [takeEffect, if_neg (not_not.mpr hcurrent), hoperation]
  dsimp only
  split <;> rfl

theorem takeEffect_of_move (hcurrent : engine.generation = run.job.generation)
    (hoperation : run.step.operation ≠ .execute) :
    (engine.takeEffect run).1 =
      (engine.history.moveCursor run.step.stack run.step.command.id run.step.operation.direction).1 := by
  rw [takeEffect, if_neg (not_not.mpr hcurrent)]
  split
  · contradiction
  · rfl

theorem effect_of_ended (hsound : engine.history.Sound) (run : Run) (outcome : Outcome) :
    engine.Effect run outcome
      (if Outcome.succeeded (outcome.settle run.step.command.text) then (engine.takeEffect run).1
        else engine.history) := by
  split_ifs with hsucceeded
  swap
  · exact .kept (fun _ => rfl) (.inl (by simpa using hsucceeded))
  by_cases hcurrent : engine.generation = run.job.generation
  swap
  · rw [takeEffect_of_stale hcurrent]
    exact .kept (fun _ => rfl) (.inr (.inl hcurrent))
  by_cases hexecute : run.step.operation = .execute
  · rw [takeEffect_of_execute hcurrent hexecute]
    split_ifs with hquery
    · exact .kept (fun _ => rfl) (.inr (.inr (.inl ⟨hexecute, hquery⟩)))
    · exact .recorded hsucceeded hcurrent hexecute (by simpa using hquery) (hsound.lists_record _ _)
  rw [takeEffect_of_move hcurrent hexecute]
  cases hnext : engine.history.isNextTo run.step.stack run.step.command.id run.step.operation.direction with
  | false =>
    rw [History.moveCursor_of_not_next hnext]
    exact .kept (fun _ => rfl) (.inr (.inr (.inr ⟨hexecute, hnext⟩)))
  | true =>
    obtain ⟨passed, hpassed, hid⟩ := (hsound.isNextTo_iff _ _ _).mp hnext
    cases hoperation : run.step.operation with
    | execute => contradiction
    | undo =>
      rw [hoperation] at hpassed
      obtain ⟨front, hpast⟩ := List.getLast?_eq_some_iff.mp hpassed
      have hlists := (hsound.lists_moveCursor_backward hpast).2
      rw [hid] at hlists
      exact .undone hsucceeded hcurrent hoperation passed front hid hpast hlists
    | redo =>
      rw [hoperation] at hpassed
      obtain ⟨rest, hfuture⟩ := List.head?_eq_some_iff.mp hpassed
      have hlists := (hsound.lists_moveCursor_forward hfuture).2
      rw [hid] at hlists
      exact .redone hsucceeded hcurrent hoperation passed rest hid hfuture hlists

/-! ### The lines of the stacks -/

/-- The lines of the stacks after a move: nothing comes in, but for the command that has just been
executed. -/
inductive Flow (engine after : Engine) : Prop where
  | shrunk (hline : ∀ id, (after.history.line id).Sublist (engine.history.line id))
  | grown (run : Run) (hphase : engine.phase = .acting run) (hcurrent : engine.generation = run.job.generation)
      (hoperation : run.step.operation = .execute) (hmutating : run.step.command.isQuery = false)
      (hover : run.walk = none → engine.pending = run.job.goal.command?.toList ++ after.pending)
      (hline : ∀ id, (after.history.line id).Sublist
        (engine.history.line id ++ if id = run.step.stack then [run.step.command] else []))

theorem line_undone {history : History} {id name : StackId} {passed : Command} {front : List Command}
    (hpast : engine.history.past id = front ++ [passed])
    (hlists : (history.past name, history.future name) =
      if name = id then (front, passed :: engine.history.future id)
      else (engine.history.past name, engine.history.future name)) :
    history.line name = engine.history.line name := by
  split_ifs at hlists with hname
  · rw [History.line_of_lists hlists, History.line, hname, hpast]
    simp
  · exact History.line_of_lists hlists

theorem line_redone {history : History} {id name : StackId} {passed : Command} {rest : List Command}
    (hfuture : engine.history.future id = passed :: rest)
    (hlists : (history.past name, history.future name) =
      if name = id then (engine.history.past id ++ [passed], rest)
      else (engine.history.past name, engine.history.future name)) :
    history.line name = engine.history.line name := by
  split_ifs at hlists with hname
  · rw [History.line_of_lists hlists, History.line, hname, hfuture]
    simp
  · exact History.line_of_lists hlists

theorem Effect.line_eq {outcome : Outcome} {history : History} (heffect : engine.Effect run outcome history)
    (hmove : run.step.operation ≠ .execute) (id : StackId) : history.line id = engine.history.line id := by
  cases heffect with
  | kept hlists => exact History.line_of_lists (hlists id)
  | recorded hsucceeded hcurrent hoperation => exact absurd hoperation hmove
  | undone hsucceeded hcurrent hoperation passed front hid hpast hlists => exact line_undone hpast (hlists id)
  | redone hsucceeded hcurrent hoperation passed rest hid hfuture hlists => exact line_redone hfuture (hlists id)

/-- Nothing comes into a line but at the end of an action. -/
theorem Change.shrunk_or_ended (hchange : engine.Change move after) (hsound : engine.history.Sound) :
    (∀ id, (after.history.line id).Sublist (engine.history.line id)) ∨
      ∃ run outcome, move = .finish outcome ∧ engine.phase = .acting run ∧
        engine.Effect run outcome after.history ∧
        (run.walk = none → engine.pending = run.job.goal.command?.toList ++ after.pending) := by
  have hsame : after.history = engine.history → ∀ id, (after.history.line id).Sublist (engine.history.line id) := by
    intro hhistory id
    rw [hhistory]
  cases hchange with
  | quiet hhistory => exact .inl (hsame hhistory)
  | joined command hmove hhistory => exact .inl (hsame hhistory)
  | cleared hmove hhistory =>
    refine .inl fun id => ?_
    rw [hhistory, History.line, History.past_clear, History.future_clear]
    exact List.nil_sublist _
  | limited limit hmove hhistory =>
    refine .inl fun id => ?_
    rw [hhistory, History.line_of_lists (hsound.lists_setLimit limit id)]
    exact Stack.within_sublist ..
  | activated stack hhistory =>
    refine .inl fun id => ?_
    rw [hhistory, History.line, History.past_activate, History.future_activate]
    exact List.Sublist.refl _
  | began run hhistory => exact .inl (hsame hhistory)
  | ended run outcome hmove hphase hhistory _ _ _ _ _ hover =>
    have heffect := effect_of_ended hsound run outcome
    rw [← hhistory] at heffect
    exact .inr ⟨run, outcome, hmove, hphase, heffect, hover⟩

theorem Change.flow (hchange : engine.Change move after) (hsound : engine.history.Sound) : engine.Flow after := by
  rcases hchange.shrunk_or_ended hsound with hline | ⟨run, outcome, -, hphase, heffect, hover⟩
  · exact .shrunk hline
  by_cases hexecute : run.step.operation = .execute
  swap
  · refine .shrunk fun id => ?_
    rw [heffect.line_eq hexecute]
  cases heffect with
  | kept hlists =>
    refine .shrunk fun id => ?_
    rw [History.line_of_lists (hlists id)]
    exact List.Sublist.refl _
  | recorded hsucceeded hcurrent hoperation hmutating hlists =>
    refine .grown run hphase hcurrent hoperation hmutating hover fun id => ?_
    have hlist := hlists id
    split_ifs at hlist ⊢ with hid
    · rw [History.line_of_lists hlist, hid]
      refine (Stack.within_sublist ..).trans ?_
      rw [List.append_nil, History.line, List.append_assoc]
      exact (List.Sublist.refl _).append (List.sublist_append_right ..)
    · rw [History.line_of_lists hlist, List.append_nil]
      exact List.Sublist.refl _
  | undone hsucceeded hcurrent hoperation =>
    rw [hexecute] at hoperation
    cases hoperation
  | redone hsucceeded hcurrent hoperation =>
    rw [hexecute] at hoperation
    cases hoperation

private theorem sound_takeEffect (hsound : engine.history.Sound) (run : Run) : (engine.takeEffect run).1.Sound := by
  by_cases hcurrent : engine.generation = run.job.generation
  · by_cases hexecute : run.step.operation = .execute
    · rw [takeEffect_of_execute hcurrent hexecute]
      split_ifs
      · exact hsound
      · exact hsound.record ..
    · rw [takeEffect_of_move hcurrent hexecute]
      exact hsound.moveCursor ..
  · rw [takeEffect_of_stale hcurrent]
    exact hsound

private theorem Change.sound (hchange : engine.Change move after) (hsound : engine.history.Sound) :
    after.history.Sound := by
  cases hchange with
  | quiet hhistory => exact hhistory ▸ hsound
  | joined command hmove hhistory => exact hhistory ▸ hsound
  | cleared hmove hhistory => exact hhistory ▸ hsound.clear
  | limited limit hmove hhistory => exact hhistory ▸ hsound.setLimit limit
  | activated stack hhistory => exact hhistory ▸ hsound.activate stack
  | began run hhistory => exact hhistory ▸ hsound
  | ended run outcome hmove hphase hhistory =>
    rw [hhistory]
    split_ifs
    · exact sound_takeEffect hsound run
    · exact hsound

/-- What holds in every state of every run: the stacks are sound, and no query is recorded. -/
structure Steady (engine : Engine) : Prop where
  sound : engine.history.Sound
  mutating : engine.OnlyMutating

theorem Steady.change (hsteady : engine.Steady) (hchange : engine.Change move after) : after.Steady where
  sound := hchange.sound hsteady.sound
  mutating := by
    intro id command hmem
    cases hchange.flow hsteady.sound with
    | shrunk hline => exact hsteady.mutating id command ((hline id).subset hmem)
    | grown run hphase hcurrent hoperation hmutating hover hline =>
      rcases List.mem_append.mp ((hline id).subset hmem) with hold | hnew
      · exact hsteady.mutating id command hold
      · split_ifs at hnew
        · rw [List.mem_singleton.mp hnew]
          exact hmutating
        · cases hnew

theorem Steady.change_apply (hsteady : engine.Steady) (move : Move) : engine.Change move (engine.apply move) :=
  Engine.change_apply hsteady.sound hsteady.mutating move

theorem Steady.applyAll (hsteady : engine.Steady) (moves : List Move) : (engine.applyAll moves).Steady := by
  induction moves generalizing engine with
  | nil => exact hsteady
  | cons move moves ih => exact ih (hsteady.change (hsteady.change_apply move))

def Fresh (engine : Engine) : Prop :=
  ∃ registry routes defaultStack limit capacity,
    engine = Engine.start registry routes defaultStack limit capacity

theorem Fresh.line_eq (hfresh : engine.Fresh) (id : StackId) : engine.history.line id = [] := by
  obtain ⟨registry, routes, defaultStack, limit, capacity, rfl⟩ := hfresh
  rw [History.line, Engine.start, History.past_start, History.future_start]
  rfl

private theorem Fresh.sound (hfresh : engine.Fresh) : engine.history.Sound := by
  obtain ⟨registry, routes, defaultStack, limit, capacity, rfl⟩ := hfresh
  exact History.Sound.start defaultStack limit

theorem Fresh.steady (hfresh : engine.Fresh) : engine.Steady where
  sound := hfresh.sound
  mutating := by
    intro id command hmem
    rw [hfresh.line_eq] at hmem
    cases hmem

def Reachable (engine : Engine) : Prop := ∃ start moves, Fresh start ∧ start.applyAll moves = engine

theorem Reachable.steady (hreachable : engine.Reachable) : engine.Steady := by
  obtain ⟨start, moves, hfresh, rfl⟩ := hreachable
  exact hfresh.steady.applyAll moves

/-! ### A sample engine -/

def sampleStack : StackId := ⟨"main"⟩

def sampleEngine : Engine := start Registry.empty [] sampleStack 0 16

theorem sampleEngine_fresh : sampleEngine.Fresh := ⟨_, _, _, _, _, rfl⟩

def sampleCommand (number : CommandId) : Command := ⟨number, "", .mutating, .all, none⟩

def underway (request : Request) : List Move := [.submit request, .advance, .advance]

def success : Move := .finish (.returned (.ok .null))

def executed (numbers : List CommandId) : List Move :=
  numbers.flatMap fun number => underway (.execute (sampleCommand number)) ++ [success]

end Engine

end Retrace
