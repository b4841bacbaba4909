import Retrace.Proofs.Flow
import Retrace.Proofs.Recency

/-!
# Revisions of a history

`Revision` lists what can happen to a history between two moments of a run. Over this list it is proved that no stack
is ever removed and that the default stack and the active one are there, that no stack is longer than the limit, and
that the stacks with commands were touched at different times.
-/

namespace Retrace

namespace Stack

theorem length_within_le {limit : Nat} (hlimit : limit ≠ 0) (past future : List Command) :
    (within limit past future).1.length + (within limit past future).2.length ≤ limit := by
  unfold within newest
  split_ifs with hfits hahead
  · rcases hfits with hnone | hfits
    · contradiction
    · exact hfits
  · dsimp only
    rw [List.length_drop]
    omega
  · dsimp only
    rw [List.length_drop, List.length_nil]
    omega

theorem count_trim {stack : Stack} (hle : stack.applied ≤ stack.count) (limit : Nat) :
    (stack.trim limit).1.count + (stack.trim limit).2 = stack.count := by
  have hlength : stack.applied ≤ stack.commands.length := hle
  unfold trim
  split_ifs with hfits hcut
  · rfl
  · simp only [count, dropOldest, dropRedo, appliedCommands, List.length_drop, List.length_take] at hcut ⊢
    omega
  · simp only [count, dropOldest, List.length_drop] at hfits ⊢
    omega

private theorem trim_of_none {stack : Stack} {limit : Nat} (hnone : (stack.trim limit).2 = 0) :
    (stack.trim limit).1 = stack := by
  unfold trim at hnone ⊢
  split_ifs at hnone ⊢ with hfits hcut
  · rfl
  · simp only [count] at hnone hcut
    omega
  · simp only [count] at hnone hfits
    omega

end Stack

namespace History

variable {history after : History} {id name : StackId}

inductive Revision (history : History) : History → Prop where
  | same : Revision history history
  | cleared : Revision history history.clear
  | limited (limit : Nat) : Revision history (history.setLimit limit).1
  | activated (stack : Option StackId) : Revision history (history.activate stack)
  | recorded (id : StackId) (command : Command) : Revision history (history.record id command)
  | passed (id : StackId) (command : CommandId) (direction : Direction) :
      Revision history (history.moveCursor id command direction).1

theorem Sound.line_moveCursor (hsound : history.Sound) (id : StackId) (number : CommandId) (direction : Direction)
    (name : StackId) : (history.moveCursor id number direction).1.line name = history.line name := by
  cases hnext : history.isNextTo id number direction with
  | false =>
    rw [moveCursor_of_not_next hnext]
    rfl
  | true =>
    obtain ⟨passed, hpassed, rfl⟩ := (hsound.isNextTo_iff _ _ _).mp hnext
    cases direction with
    | forward =>
      obtain ⟨rest, hfuture⟩ := List.head?_eq_some_iff.mp hpassed
      have hlists := (hsound.lists_moveCursor_forward hfuture).2 name
      split_ifs at hlists with hname
      · rw [line_of_lists hlists, line, hname, hfuture]
        simp
      · rw [line_of_lists hlists, line]
    | backward =>
      obtain ⟨front, hpast⟩ := List.getLast?_eq_some_iff.mp hpassed
      have hlists := (hsound.lists_moveCursor_backward hpast).2 name
      split_ifs at hlists with hname
      · rw [line_of_lists hlists, line, hname, hpast]
        simp
      · rw [line_of_lists hlists, line]

theorem line_clear (history : History) (id : StackId) : history.clear.line id = [] := by
  rw [line, past_clear, future_clear, List.append_nil]

theorem line_activate (history : History) (stack : Option StackId) (id : StackId) :
    (history.activate stack).line id = history.line id := by
  rw [line, past_activate, future_activate, line]

theorem Sound.of_mem (hsound : history.Sound) {stack : Stack} (hmem : stack ∈ history.stackList) :
    history.line stack.id = stack.commands ∧ history.touched stack.id = stack.lastTouched := by
  have hstack := stack?_of_mem hsound.keyed hmem
  refine ⟨(hsound.holds hstack).commands_eq.symm, ?_⟩
  rw [touched, hstack]
  rfl

/-- A limit that drops nothing leaves every stack as it is. -/
theorem setLimit_of_none {limit : Nat} (hnone : (history.setLimit limit).2 = 0) :
    (history.setLimit limit).1 = { history with limit } := by
  have hstacks : history.stackList.map (fun stack => (stack.trim limit).1) = history.stackList := by
    unfold setLimit at hnone
    dsimp only at hnone
    generalize history.stackList = listed at hnone ⊢
    induction listed with
    | nil => rfl
    | cons first rest ih =>
      rw [List.map_cons, List.foldr_cons, Nat.add_eq_zero_iff] at hnone
      rw [List.map_cons, Stack.trim_of_none hnone.1, ih hnone.2]
  unfold setLimit
  rw [hstacks]

/-! ### Histories with the same lists -/

/-- Every stack has the same commands behind its cursor and ahead of it. -/
def Alike (history after : History) : Prop :=
  ∀ id, (after.past id, after.future id) = (history.past id, history.future id)

theorem alike_activate (history : History) (stack : Option StackId) : history.Alike (history.activate stack) := by
  intro id
  rw [past_activate, future_activate]

/-! ### Stacks are there to stay -/

def Has (history : History) (id : StackId) : Prop := (history.stack? id).isSome = true

private theorem has_withStack (history : History) (id : StackId) : (history.withStack id).Has id := by
  rw [Has, stack?_withStack, if_pos rfl]
  rfl

private theorem Has.withStack (hthere : history.Has name) (id : StackId) : (history.withStack id).Has name := by
  rw [Has, stack?_withStack]
  split_ifs
  · rfl
  · exact hthere

private theorem Has.of_map (hthere : history.Has name) (change : Stack → Stack)
    (hid : ∀ stack, (change stack).id = stack.id) :
    ({ history with stackList := history.stackList.map change } : History).Has name := by
  rw [Has, stack?_map _ _ hid, Option.isSome_map]
  exact hthere

theorem Revision.keeps (hrevision : history.Revision after) (hthere : history.Has name) : after.Has name := by
  cases hrevision with
  | same => exact hthere
  | cleared => exact hthere.of_map Stack.clear Stack.id_clear
  | limited limit => exact hthere.of_map (fun stack => (stack.trim limit).1) fun stack => Stack.id_trim stack limit
  | activated stack => exact hthere.withStack (stack.getD history.defaultStack)
  | recorded id command =>
    rw [Has, stack?_record]
    split_ifs
    · rfl
    · exact hthere
  | passed id number direction =>
    unfold moveCursor
    dsimp only
    split_ifs
    · have hcounted : ({ history with sequence := history.sequence + 1 } : History).Has name := hthere
      refine hcounted.of_map _ fun stack => ?_
      split_ifs
      · exact id_moved direction stack
      · rfl
    · exact hthere

/-- The default stack and the active one are there. -/
structure Standing (history : History) : Prop where
  default : history.Has history.defaultStack
  active : history.Has history.active

theorem Standing.start (defaultStack : StackId) (limit : Nat) : (History.start defaultStack limit).Standing := by
  constructor <;> simp [Has, History.start, stack?, Stack.empty]

theorem Standing.frame (hstanding : history.Standing) (hrevision : history.Revision after)
    (hdefault : after.defaultStack = history.defaultStack) (hactive : after.active = history.active) :
    after.Standing where
  default := hdefault ▸ hrevision.keeps hstanding.default
  active := hactive ▸ hrevision.keeps hstanding.active

theorem Standing.revise (hstanding : history.Standing) (hrevision : history.Revision after) : after.Standing := by
  cases hrevision with
  | same => exact hstanding
  | cleared => exact hstanding.frame .cleared rfl rfl
  | limited limit => exact hstanding.frame (.limited limit) rfl rfl
  | activated stack =>
    refine ⟨?_, has_withStack history (stack.getD history.defaultStack)⟩
    have hdefault : (history.activate stack).defaultStack = history.defaultStack := (settings_withStack ..).2.1
    rw [hdefault]
    exact Revision.keeps (.activated stack) hstanding.default
  | recorded id command =>
    obtain ⟨hactive, hdefault, -⟩ := settings_record history id command
    exact hstanding.frame (.recorded id command) hdefault hactive
  | passed id number direction =>
    obtain ⟨hactive, hdefault, -⟩ := settings_moveCursor history id number direction
    exact hstanding.frame (.passed id number direction) hdefault hactive

/-! ### The limit -/

def Limited (history : History) : Prop := history.limit = 0 ∨ ∀ id, (history.line id).length ≤ history.limit

theorem Limited.frame (hlimited : history.Limited) (hlimit : after.limit = history.limit)
    (hline : ∀ id, (after.line id).length ≤ (history.line id).length) : after.Limited := by
  rw [Limited, hlimit]
  exact hlimited.imp_right fun hfits id => (hline id).trans (hfits id)

theorem Limited.start (defaultStack : StackId) (limit : Nat) : (History.start defaultStack limit).Limited := by
  refine .inr fun id => ?_
  rw [line, past_start, future_start]
  exact Nat.zero_le _

theorem Limited.revise (hlimited : history.Limited) (hsound : history.Sound) (hrevision : history.Revision after) :
    after.Limited := by
  cases hrevision with
  | same => exact hlimited
  | cleared => exact hlimited.frame rfl fun id => by simp [line_clear]
  | limited limit =>
    refine or_iff_not_imp_left.mpr fun hlimit id => ?_
    rw [line_of_lists (hsound.lists_setLimit limit id), List.length_append]
    exact Stack.length_within_le hlimit ..
  | activated stack =>
    exact hlimited.frame (settings_withStack ..).2.2.1 fun id => (congrArg _ (line_activate ..)).le
  | recorded id command =>
    refine or_iff_not_imp_left.mpr fun hlimit name => ?_
    have hsame := (settings_record history id command).2.2.1
    rw [hsame] at hlimit ⊢
    have hlists := hsound.lists_record id command name
    rw [line_of_lists hlists]
    -- the push and the trim are one step, so that the stack is never seen between them
    split_ifs
    · rw [List.length_append]
      exact Stack.length_within_le hlimit ..
    · exact hlimited.resolve_left hlimit name
  | passed id number direction =>
    exact hlimited.frame (settings_moveCursor ..).2.2.1 fun name =>
      (congrArg _ (hsound.line_moveCursor id number direction name)).le

/-! ### When the stacks were touched -/

/-- The stacks with commands were touched at different times, none of them zero and none still to come. -/
structure Stamped (history : History) : Prop where
  bounded : ∀ id, history.touched id ≤ history.sequence
  positive : ∀ id, history.line id ≠ [] → 0 < history.touched id
  apart : ∀ first second, history.line first ≠ [] → history.line second ≠ [] →
    history.touched first = history.touched second → first = second

theorem Stamped.start (defaultStack : StackId) (limit : Nat) : (History.start defaultStack limit).Stamped := by
  have hline : ∀ id, (History.start defaultStack limit).line id = [] := by
    intro id
    rw [line, past_start, future_start, List.append_nil]
  exact {
    bounded := (Recency.start defaultStack limit).bounded
    positive := fun id hsome => absurd (hline id) hsome
    apart := fun first second hsome => absurd (hline first) hsome }

theorem Stamped.frame (hstamped : history.Stamped) (htouched : ∀ id, after.touched id = history.touched id)
    (hsequence : history.sequence ≤ after.sequence) (hline : ∀ id, history.line id = [] → after.line id = []) :
    after.Stamped where
  bounded := by
    intro id
    rw [htouched]
    exact (hstamped.bounded id).trans hsequence
  positive := by
    intro id hsome
    rw [htouched]
    exact hstamped.positive id (mt (hline id) hsome)
  apart := by
    intro first second hfirst hsecond hsame
    rw [htouched, htouched] at hsame
    exact hstamped.apart first second (mt (hline first) hfirst) (mt (hline second) hsecond) hsame

theorem Stamped.touch (hstamped : history.Stamped) (id : StackId)
    (htouched : ∀ name, after.touched name = if name = id then history.sequence + 1 else history.touched name)
    (hsequence : after.sequence = history.sequence + 1)
    (hline : ∀ name, name ≠ id → after.line name = history.line name) : after.Stamped where
  bounded := by
    intro name
    rw [htouched, hsequence]
    split_ifs
    · exact Nat.le_refl _
    · exact Nat.le_succ_of_le (hstamped.bounded name)
  positive := by
    intro name hsome
    rw [htouched]
    split_ifs with hname
    · exact Nat.succ_pos _
    · rw [hline name hname] at hsome
      exact hstamped.positive name hsome
  apart := by
    intro first second hfirst hsecond hsame
    rw [htouched, htouched] at hsame
    have hold := fun name => Nat.lt_succ_of_le (hstamped.bounded name)
    split_ifs at hsame with hone htwo htwo
    · rw [hone, htwo]
    · exact absurd hsame (hold second).ne'
    · exact absurd hsame (hold first).ne
    · rw [hline first hone] at hfirst
      rw [hline second htwo] at hsecond
      exact hstamped.apart first second hfirst hsecond hsame

theorem Stamped.revise (hstamped : history.Stamped) (hsound : history.Sound) (hrevision : history.Revision after) :
    after.Stamped := by
  cases hrevision with
  | same => exact hstamped
  | cleared => exact hstamped.frame (touched_clear history) (Nat.le_refl _) fun id _ => line_clear history id
  | limited limit =>
    refine hstamped.frame (touched_setLimit history limit) (Nat.le_refl _) fun id hempty => ?_
    have hless := Stack.within_sublist limit (history.past id) (history.future id)
    rw [← line, hempty] at hless
    rw [line_of_lists (hsound.lists_setLimit limit id), List.sublist_nil.mp hless]
  | activated stack =>
    refine hstamped.frame (touched_activate history stack) (settings_withStack ..).2.2.2.ge fun id hempty => ?_
    rw [line_activate, hempty]
  | recorded id command =>
    refine hstamped.touch id (touched_record history id command) (settings_record ..).2.2.2 fun name hname => ?_
    have hlists := hsound.lists_record id command name
    rw [if_neg hname] at hlists
    exact line_of_lists hlists
  | passed id number direction =>
    have hline := hsound.line_moveCursor id number direction
    have hsequence := (settings_moveCursor history id number direction).2.2.2
    cases hnext : history.isNextTo id number direction with
    | false =>
      refine hstamped.frame (fun name => ?_) (hsequence ▸ Nat.le_succ _) fun name hempty => (hline name).trans hempty
      rw [moveCursor_of_not_next hnext]
      rfl
    | true => exact hstamped.touch id (touched_moveCursor hnext) hsequence fun name _ => hline name

end History

namespace Engine

variable {engine after : Engine} {move : Move}

private theorem revision_takeEffect (engine : Engine) (run : Run) :
    engine.history.Revision (engine.takeEffect run).1 := by
  by_cases hcurrent : engine.generation = run.job.generation
  · by_cases hexecute : run.step.operation = .execute
    · rw [takeEffect_of_execute hcurrent hexecute]
      split_ifs
      · exact .same
      · exact .recorded ..
    · rw [takeEffect_of_move hcurrent hexecute]
      exact .passed ..
  · rw [takeEffect_of_stale hcurrent]
    exact .same

/-- **What a move can do to the history** is on the list. -/
theorem Change.revision (hchange : engine.Change move after) : engine.history.Revision after.history := by
  cases hchange with
  | quiet hhistory => exact hhistory ▸ .same
  | joined command hmove hhistory => exact hhistory ▸ .same
  | cleared hmove hhistory => exact hhistory ▸ .cleared
  | limited limit hmove hhistory => exact hhistory ▸ .limited limit
  | activated stack hhistory => exact hhistory ▸ .activated stack
  | began run hhistory => exact hhistory ▸ .same
  | ended run outcome hmove hphase hhistory =>
    rw [hhistory]
    split_ifs
    · exact revision_takeEffect engine run
    · exact .same

end Engine

end Retrace
