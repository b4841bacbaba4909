import Mathlib.Data.List.Infix
import Retrace.Stack

/-!
# What a stack holds

A stack is known through two lists: the commands behind its cursor, oldest first, and the commands ahead
of it, next one first. Every operation on stacks is one equation on these lists, and nothing else of the
theory opens the definitions.
-/

namespace Retrace.Stack

/-- The commands behind the cursor and the commands ahead of it. -/
structure Holds (stack : Stack) (past future : List Command) : Prop where
  commands_eq : stack.commands = past ++ future
  applied_eq : stack.applied = past.length

def newest (number : Nat) (commands : List Command) : List Command :=
  commands.drop (commands.length - number)

/-- What a limit leaves of the commands behind and ahead of a cursor. The oldest commands go first; if
the commands ahead alone are too many, they all go, and then the oldest of the others. -/
def within (limit : Nat) (past future : List Command) : List Command × List Command :=
  if limit = 0 ∨ past.length + future.length ≤ limit then (past, future)
  else if future.length ≤ limit then (newest (limit - future.length) past, future)
  else (newest limit past, [])

theorem newest_suffix (number : Nat) (commands : List Command) : newest number commands <:+ commands :=
  List.drop_suffix ..

theorem within_past_suffix (limit : Nat) (past future : List Command) :
    (within limit past future).1 <:+ past := by
  unfold within
  split_ifs
  · exact List.suffix_refl past
  · exact newest_suffix ..
  · exact newest_suffix ..

theorem within_future (limit : Nat) (past future : List Command) :
    (within limit past future).2 = future ∨ (within limit past future).2 = [] := by
  unfold within
  split_ifs <;> simp

theorem within_sublist (limit : Nat) (past future : List Command) :
    ((within limit past future).1 ++ (within limit past future).2).Sublist (past ++ future) := by
  have hpast := (within_past_suffix limit past future).sublist
  rcases within_future limit past future with hsame | hnone
  · rw [hsame]
    exact hpast.append (List.Sublist.refl future)
  · rw [hnone]
    exact hpast.append (List.nil_sublist future)

theorem within_eq_or_lt (limit : Nat) (past future : List Command) :
    within limit past future = (past, future) ∨
      ((within limit past future).1 ++ (within limit past future).2).length < (past ++ future).length := by
  unfold within newest
  split_ifs with hfits hroom
  · exact .inl rfl
  · right
    simp only [List.length_append, List.length_drop]
    omega
  · right
    simp only [List.length_append, List.length_drop, List.length_nil]
    omega

theorem within_concat (limit : Nat) (past : List Command) (command : Command) :
    (within limit (past ++ [command]) []).1.getLast? = some command ∧ (within limit (past ++ [command]) []).2 = [] := by
  unfold within newest
  split_ifs with hfits hroom
  · exact ⟨List.getLast?_concat .., rfl⟩
  · rw [List.length_append, List.length_singleton, List.length_nil] at hfits
    rw [List.getLast?_drop, List.length_append, List.length_singleton, List.length_nil, if_neg (by omega)]
    exact ⟨List.getLast?_concat .., rfl⟩
  · exact absurd (Nat.zero_le limit) hroom

/-- The oldest commands behind a cursor that a limit leaves no room. As a rule they are as many as there are too many on
both sides of the cursor. If those ahead of it are too many on their own, all of these go, and the others are counted
alone. -/
def outworn (limit : Nat) (past future : List Command) : List Command :=
  if limit = 0 then []
  else if limit < future.length then past.take (past.length - limit)
  else past.take (past.length + future.length - limit)

/-- What is outworn and what a limit leaves behind the cursor make up the list. -/
theorem outworn_append_within (limit : Nat) (past future : List Command) :
    outworn limit past future ++ (within limit past future).1 = past := by
  unfold outworn within newest
  by_cases hnone : limit = 0
  · rw [if_pos hnone, if_pos (.inl hnone), List.nil_append]
  rw [if_neg hnone]
  by_cases hroom : future.length ≤ limit
  · rw [if_neg (Nat.not_lt.mpr hroom), if_pos hroom]
    split_ifs with hfits
    · rw [Nat.sub_eq_zero_of_le (hfits.resolve_left hnone), List.take_zero, List.nil_append]
    · rw [Nat.sub_sub_right _ hroom, List.take_append_drop]
  · have hover : ¬ (limit = 0 ∨ past.length + future.length ≤ limit) := by omega
    rw [if_pos (Nat.lt_of_not_le hroom), if_neg hover, if_neg hroom, List.take_append_drop]

variable {stack : Stack} {past future : List Command} {command : Command}

namespace Holds

theorem of_le (h : stack.applied ≤ stack.count) :
    stack.Holds stack.appliedCommands stack.redoCommands where
  commands_eq := (stack.appliedCommands_append_redoCommands).symm
  applied_eq := by
    have hlength : stack.applied ≤ stack.commands.length := h
    simp [appliedCommands, hlength]

theorem appliedCommands_eq (h : stack.Holds past future) : stack.appliedCommands = past := by
  rw [appliedCommands, h.commands_eq, h.applied_eq, List.take_left]

theorem redoCommands_eq (h : stack.Holds past future) : stack.redoCommands = future := by
  rw [redoCommands, h.commands_eq, h.applied_eq, List.drop_left]

theorem count_eq (h : stack.Holds past future) : stack.count = past.length + future.length := by
  rw [count, h.commands_eq, List.length_append]

theorem applied_le (h : stack.Holds past future) : stack.applied ≤ stack.count := by
  rw [h.count_eq, h.applied_eq]
  exact Nat.le_add_right ..

theorem undoCommand_eq (h : stack.Holds past future) : stack.undoCommand = past.getLast? := by
  rw [undoCommand, currentIndex, h.applied_eq]
  rcases List.eq_nil_or_concat past with rfl | ⟨before, last, rfl⟩
  · rfl
  · simp [commandAt, h.commands_eq]

theorem redoCommand_eq (h : stack.Holds past future) : stack.redoCommand = future.head? := by
  rw [redoCommand, commandAt, h.commands_eq, h.applied_eq]
  cases future <;> simp

theorem empty (id : StackId) : (Stack.empty id).Holds [] [] := ⟨rfl, rfl⟩

theorem clear (stack : Stack) : stack.clear.Holds [] [] := ⟨rfl, rfl⟩

theorem touch (h : stack.Holds past future) (sequence : Nat) : (stack.touch sequence).Holds past future :=
  ⟨h.commands_eq, h.applied_eq⟩

theorem push (h : stack.Holds past future) (command : Command) :
    (stack.push command).Holds (past ++ [command]) [] := by
  constructor
  · simp [Stack.push, h.appliedCommands_eq]
  · simp [Stack.push, h.appliedCommands_eq]

theorem stepForward (h : stack.Holds past (command :: future)) :
    stack.stepForward.Holds (past ++ [command]) future := by
  have hroom : stack.canStepForward = true := by
    simp [canStepForward, h.count_eq, h.applied_eq]
  constructor
  · simp [Stack.stepForward, hroom, h.commands_eq]
  · simp [Stack.stepForward, hroom, h.applied_eq]

theorem stepBackward (h : stack.Holds (past ++ [command]) future) :
    stack.stepBackward.Holds past (command :: future) := by
  have hroom : stack.canStepBackward = true := by
    simp [canStepBackward, h.applied_eq]
  constructor
  · simp [Stack.stepBackward, hroom, h.commands_eq]
  · simp [Stack.stepBackward, hroom, h.applied_eq]

theorem trim (h : stack.Holds past future) (limit : Nat) :
    (stack.trim limit).1.Holds (within limit past future).1 (within limit past future).2 := by
  unfold Stack.trim within
  rw [h.count_eq]
  split_ifs with hfits hcut hahead hahead
  · exact h
  · rw [h.applied_eq] at hcut
    omega
  · constructor
    · simp [dropOldest, dropRedo, count, h.appliedCommands_eq, newest]
    · simp [dropOldest, dropRedo, count, h.appliedCommands_eq, h.applied_eq, newest]
  · rw [h.applied_eq] at hcut
    have hexcess : past.length + future.length - limit ≤ past.length := by omega
    have hsame : past.length - (limit - future.length) = past.length + future.length - limit := by omega
    constructor
    · simp [dropOldest, h.commands_eq, newest, hsame, List.drop_append_of_le_length hexcess]
    · simp [dropOldest, h.applied_eq, newest, hsame]
  · rw [h.applied_eq] at hcut
    omega

end Holds

@[simp] theorem id_push (stack : Stack) (command : Command) : (stack.push command).id = stack.id := rfl

@[simp] theorem id_clear (stack : Stack) : stack.clear.id = stack.id := rfl

@[simp] theorem id_touch (stack : Stack) (sequence : Nat) : (stack.touch sequence).id = stack.id := rfl

@[simp] theorem id_stepForward (stack : Stack) : stack.stepForward.id = stack.id := by
  unfold stepForward
  split <;> rfl

@[simp] theorem id_stepBackward (stack : Stack) : stack.stepBackward.id = stack.id := by
  unfold stepBackward
  split <;> rfl

@[simp] theorem id_trim (stack : Stack) (limit : Nat) : (stack.trim limit).1.id = stack.id := by
  unfold trim
  split_ifs <;> rfl

end Retrace.Stack
