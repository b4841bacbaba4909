import Mathlib.Data.Nat.PSub
import Retrace.Proofs.Revision

/-!
# Cutting a stack down to a limit

What a cut leaves and how many commands it takes, for every stack and every limit. The same cut is made once more in
steps whose subtractions fail below zero (`trim?`), and none of them ever fails.
-/

namespace Retrace.Stack

variable {stack : Stack} {past future : List Command} {limit : Nat}

/-! ### Subtractions that can fail -/

/-- Forgets what can be redone if fewer commands are applied than have to go, and says how many went. -/
def cutRedo? (stack : Stack) (limit : Nat) : Option (Stack × Nat) := do
  let excess ← stack.count.psub limit
  if stack.applied < excess then
    let ahead ← stack.count.psub stack.applied
    some (stack.dropRedo, ahead)
  else some (stack, 0)

/-- Forgets the oldest commands beyond the limit, and says how many went. -/
def cutOldest? (stack : Stack) (limit : Nat) : Option (Stack × Nat) :=
  if limit < stack.count then do
    let excess ← stack.count.psub limit
    let applied ← stack.applied.psub excess
    some ({ stack with commands := stack.commands.drop excess, applied }, excess)
  else some (stack, 0)

/-- Cuts a stack down to a limit, or fails at the first subtraction whose result would be below zero. -/
def trim? (stack : Stack) (limit : Nat) : Option (Stack × Nat) :=
  if limit = 0 ∨ stack.count ≤ limit then some (stack, 0)
  else do
    let (shorter, ahead) ← stack.cutRedo? limit
    let (kept, excess) ← shorter.cutOldest? limit
    some (kept, ahead + excess)

private theorem cutRedo?_eq (happlied : stack.applied ≤ stack.count) (hlimit : limit ≤ stack.count) :
    stack.cutRedo? limit =
      some (if stack.applied < stack.count - limit then (stack.dropRedo, stack.count - stack.applied) else (stack, 0)) := by
  rw [cutRedo?, Nat.psub_eq_sub hlimit, Nat.psub_eq_sub happlied]
  by_cases hcut : stack.applied < stack.count - limit <;> simp [hcut]

private theorem cutOldest?_eq (hexcess : stack.count - limit ≤ stack.applied) :
    stack.cutOldest? limit = some (stack.dropOldest (stack.count - limit), stack.count - limit) := by
  unfold cutOldest?
  split_ifs with hmore
  · rw [Nat.psub_eq_sub hmore.le, Option.bind_eq_bind, Option.bind_some, Nat.psub_eq_sub hexcess]
    rfl
  · rw [Nat.sub_eq_zero_of_le (Nat.le_of_not_lt hmore)]
    rfl

/-- No subtraction of a cut goes below zero. -/
theorem trim?_eq (happlied : stack.applied ≤ stack.count) (limit : Nat) : stack.trim? limit = some (stack.trim limit) := by
  unfold trim? trim
  split_ifs with hfits hcut
  · rfl
  · have hlimit : limit ≤ stack.count := by omega
    have hshorter : stack.dropRedo.count - limit ≤ stack.dropRedo.applied := by
      have hcount : stack.dropRedo.count ≤ stack.applied := List.length_take_le ..
      exact (Nat.sub_le ..).trans hcount
    rw [cutRedo?_eq happlied hlimit, if_pos hcut]
    show (stack.dropRedo.cutOldest? limit >>= fun _ => _) = _
    rw [cutOldest?_eq hshorter]
    rfl
  · have hlimit : limit ≤ stack.count := by omega
    rw [cutRedo?_eq happlied hlimit, if_neg hcut]
    show (stack.cutOldest? limit >>= fun _ => _) = _
    rw [cutOldest?_eq (Nat.le_of_not_lt hcut)]
    exact congrArg (fun dropped => some (_, dropped)) (Nat.zero_add _)

/-! ### What is left -/

/-- The result of a cut, from what the limit leaves on the two sides of the cursor. -/
theorem Holds.trim_eq (h : stack.Holds past future) {kept ahead : List Command}
    (hwithin : within limit past future = (kept, ahead)) : stack.trim limit =
      ({ stack with commands := kept ++ ahead, applied := kept.length },
        past.length + future.length - (kept.length + ahead.length)) := by
  have hkept := h.trim limit
  rw [hwithin] at hkept
  have hcount := count_trim h.applied_le limit
  rw [h.count_eq, hkept.count_eq] at hcount
  have hid := id_trim stack limit
  have htouched := History.lastTouched_trim stack limit
  generalize stack.trim limit = cut at hkept hcount hid htouched ⊢
  obtain ⟨⟨id, commands, applied, lastTouched⟩, dropped⟩ := cut
  obtain ⟨rfl, rfl⟩ := hkept
  obtain rfl : id = stack.id := hid
  obtain rfl : lastTouched = stack.lastTouched := htouched
  dsimp only at hcount
  rw [← hcount, Nat.add_sub_cancel_left]

theorem exists_newest (number : Nat) (commands : List Command) :
    ∃ old kept, newest number commands = kept ∧ commands = old ++ kept ∧ kept.length = min commands.length number := by
  refine ⟨commands.take (commands.length - number), _, rfl, (List.take_append_drop ..).symm, ?_⟩
  rw [newest, List.length_drop]
  omega

theorem trim_of_fits (hfits : limit = 0 ∨ stack.count ≤ limit) : stack.trim limit = (stack, 0) := if_pos hfits

theorem Holds.trim_of_room (h : stack.Holds past future) (hover : ¬ (limit = 0 ∨ past.length + future.length ≤ limit))
    (hroom : future.length ≤ limit) : ∃ old kept, past = old ++ kept ∧ kept.length = limit - future.length ∧
      stack.trim limit = ({ stack with commands := kept ++ future, applied := kept.length }, old.length) := by
  obtain ⟨old, kept, hkept, rfl, hlength⟩ := exists_newest (limit - future.length) past
  rw [List.length_append] at hover hlength
  have hwithin : within limit (old ++ kept) future = (kept, future) := by
    rw [within, List.length_append, if_neg hover, if_pos hroom, hkept]
  refine ⟨old, kept, rfl, by omega, ?_⟩
  rw [h.trim_eq hwithin, List.length_append]
  exact congrArg (Prod.mk _) (by omega)

theorem Holds.trim_of_no_room (h : stack.Holds past future) (hlimit : limit ≠ 0) (hroom : limit < future.length) :
    ∃ old kept, past = old ++ kept ∧ kept.length = min past.length limit ∧
      stack.trim limit = ({ stack with commands := kept, applied := kept.length }, old.length + future.length) := by
  obtain ⟨old, kept, hkept, rfl, hlength⟩ := exists_newest limit past
  have hover : ¬ (limit = 0 ∨ (old ++ kept).length + future.length ≤ limit) := by omega
  have hwithin : within limit (old ++ kept) future = (kept, []) := by
    rw [within, if_neg hover, if_neg (Nat.not_le.mpr hroom), hkept]
  refine ⟨old, kept, rfl, hlength, ?_⟩
  rw [h.trim_eq hwithin, List.length_append, List.append_nil, List.length_nil]
  exact congrArg (Prod.mk _) (by omega)

/-- The last applied command stays the last applied one, or all that is left was ahead of the cursor. -/
theorem Holds.undoCommand_trim (h : stack.Holds past future) (limit : Nat) {last : Command}
    (hlast : stack.undoCommand = some last) :
    (stack.trim limit).1.undoCommand = some last ∨ (stack.trim limit).1.commands <:+ future := by
  have hkept := h.trim limit
  rw [h.undoCommand_eq] at hlast
  rw [hkept.undoCommand_eq, hkept.commands_eq]
  obtain ⟨old, hold⟩ := within_past_suffix limit past future
  by_cases hnone : (within limit past future).1 = []
  · right
    rw [hnone, List.nil_append]
    rcases within_future limit past future with hall | hnothing
    · rw [hall]
    · rw [hnothing]
      exact List.nil_suffix
  · left
    rw [← hold, List.getLast?_append_of_ne_nil _ hnone] at hlast
    exact hlast

theorem Holds.trim_trim (h : stack.Holds past future) (limit : Nat) :
    (stack.trim limit).1.trim limit = ((stack.trim limit).1, 0) := by
  apply trim_of_fits
  by_cases hlimit : limit = 0
  · exact .inl hlimit
  · right
    rw [(h.trim limit).count_eq]
    exact length_within_le hlimit past future

/-! ### All relations of a limit to a stack -/

/-- **What a limit does to a stack** with the commands `past` behind its cursor and `future` ahead of it. A limit that
is none or that the stack keeps changes nothing. Otherwise the oldest commands go, if the limit has room for those ahead
of the cursor; if not, those ahead of it all go, and of the others the newest stay. No subtraction goes below zero, the
number is that of the commands that went, the last applied command stays the last applied one unless only commands from
ahead of the cursor are left, and a second cut takes nothing. -/
theorem trim_keeps_newest (h : stack.Holds past future) (limit : Nat) :
    (limit = 0 ∨ past.length + future.length ≤ limit → stack.trim limit = (stack, 0)) ∧
    (¬ (limit = 0 ∨ past.length + future.length ≤ limit) → future.length ≤ limit →
      ∃ old kept, past = old ++ kept ∧ kept.length = limit - future.length ∧
        stack.trim limit = ({ stack with commands := kept ++ future, applied := kept.length }, old.length)) ∧
    (¬ (limit = 0 ∨ past.length + future.length ≤ limit) → ¬ future.length ≤ limit →
      ∃ old kept, past = old ++ kept ∧ kept.length = min past.length limit ∧
        stack.trim limit = ({ stack with commands := kept, applied := kept.length }, old.length + future.length)) ∧
    stack.trim? limit = some (stack.trim limit) ∧
    (stack.trim limit).1.count + (stack.trim limit).2 = stack.count ∧
    (∀ last, stack.undoCommand = some last →
      (stack.trim limit).1.undoCommand = some last ∨ (stack.trim limit).1.commands <:+ future) ∧
    (stack.trim limit).1.trim limit = ((stack.trim limit).1, 0) := by
  refine ⟨?_, ?_, ?_, ?_, ?_, ?_, ?_⟩
  · intro hfits
    rw [← h.count_eq] at hfits
    exact trim_of_fits hfits
  · exact fun hover hroom => h.trim_of_room hover hroom
  · intro hover hroom
    exact h.trim_of_no_room (fun hnone => hover (.inl hnone)) (Nat.lt_of_not_le hroom)
  · exact trim?_eq h.applied_le limit
  · exact count_trim h.applied_le limit
  · exact fun last hlast => h.undoCommand_trim limit hlast
  · exact h.trim_trim limit

def halfUndone : Stack := ⟨Engine.sampleStack, (List.range 10).map Engine.sampleCommand, 5, 0⟩

/-- A limit of two has no room for the five that are undone: they go with the three oldest. -/
theorem trim_keeps_newest_halfUndone :
    ¬ (2 = 0 ∨ 10 ≤ 2) ∧ ¬ 5 ≤ 2 ∧
      (∃ old kept, [0, 1, 2, 3, 4].map Engine.sampleCommand = old ++ kept ∧ kept.length = 2 ∧
        halfUndone.trim 2 = ({ halfUndone with commands := kept, applied := kept.length }, old.length + 5)) ∧
      (halfUndone.trim 2).1.commands.map Command.id = [3, 4] ∧ (halfUndone.trim 2).2 = 8 := by
  have hholds : halfUndone.Holds ([0, 1, 2, 3, 4].map Engine.sampleCommand) ([5, 6, 7, 8, 9].map Engine.sampleCommand) :=
    ⟨rfl, rfl⟩
  obtain ⟨-, -, hnoroom, -⟩ := trim_keeps_newest hholds 2
  exact ⟨by decide, by decide, hnoroom (by decide) (by decide), rfl, rfl⟩

end Retrace.Stack
