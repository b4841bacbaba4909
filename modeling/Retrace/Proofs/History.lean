import Mathlib.Data.List.Nodup
import Retrace.History
import Retrace.Proofs.Stack

/-!
# The history as pairs of lists

A history is known through two functions on names: `past`, the commands behind a stack's cursor, and
`future`, the commands ahead of it. A stack that does not exist has none. Every operation on histories is
one equation for each of the two functions, which holds in a sound history: one whose stacks have
different names and cursors inside their lists. All operations keep histories sound.
-/

namespace Retrace.History

variable {history : History} {id name : StackId} {command : Command} {stack : Stack}

def past (history : History) (id : StackId) : List Command :=
  (history.stack? id).elim [] Stack.appliedCommands

def future (history : History) (id : StackId) : List Command :=
  (history.stack? id).elim [] Stack.redoCommands

def line (history : History) (id : StackId) : List Command := history.past id ++ history.future id

/-- No two stacks have one name, and no cursor is beyond the end of its stack. -/
structure Sound (history : History) : Prop where
  keyed : (history.stackList.map Stack.id).Nodup
  cursors : ∀ stack ∈ history.stackList, stack.applied ≤ stack.count

/-! ### Looking up stacks -/

theorem mem_of_stack? (hstack : history.stack? id = some stack) : stack ∈ history.stackList :=
  List.mem_of_find?_eq_some hstack

theorem id_of_stack? (hstack : history.stack? id = some stack) : stack.id = id := by
  have hfound := List.find?_some hstack
  simpa using hfound

theorem stack?_of_mem (hkeyed : (history.stackList.map Stack.id).Nodup) (hmem : stack ∈ history.stackList) :
    history.stack? stack.id = some stack := by
  unfold stack?
  generalize history.stackList = listed at hkeyed hmem
  induction listed with
  | nil => simp at hmem
  | cons first rest ih =>
    rw [List.map_cons, List.nodup_cons] at hkeyed
    rcases List.mem_cons.mp hmem with rfl | hrest
    · simp
    · have hne : first.id ≠ stack.id := by
        intro heq
        exact hkeyed.1 (heq ▸ List.mem_map_of_mem hrest)
      rw [List.find?_cons_of_neg (by simpa using hne)]
      exact ih hkeyed.2 hrest

theorem Sound.holds (hsound : history.Sound) (hstack : history.stack? id = some stack) :
    stack.Holds (history.past id) (history.future id) := by
  have hholds := Stack.Holds.of_le (hsound.cursors stack (mem_of_stack? hstack))
  simpa [past, future, hstack] using hholds

theorem past_of_none (hstack : history.stack? id = none) : history.past id = [] := by
  simp [past, hstack]

theorem future_of_none (hstack : history.stack? id = none) : history.future id = [] := by
  simp [future, hstack]

theorem past_of_holds {past future : List Command} (hstack : history.stack? id = some stack)
    (hholds : stack.Holds past future) : history.past id = past := by
  simp [History.past, hstack, hholds.appliedCommands_eq]

theorem future_of_holds {past future : List Command} (hstack : history.stack? id = some stack)
    (hholds : stack.Holds past future) : history.future id = future := by
  simp [History.future, hstack, hholds.redoCommands_eq]

theorem Sound.getD_holds (hsound : history.Sound) (id : StackId) :
    ((history.stack? id).getD (Stack.empty id)).Holds (history.past id) (history.future id) := by
  cases hstack : history.stack? id with
  | none =>
    rw [past_of_none hstack, future_of_none hstack]
    exact Stack.Holds.empty id
  | some stack => exact hsound.holds hstack

theorem stack?_map (history : History) (change : Stack → Stack) (hid : ∀ stack, (change stack).id = stack.id)
    (name : StackId) :
    ({ history with stackList := history.stackList.map change } : History).stack? name =
      (history.stack? name).map change := by
  simp only [stack?, List.find?_map]
  congr 2
  funext stack
  simp [hid]

theorem stack?_modify (history : History) (id : StackId) (change : Stack → Stack)
    (hid : ∀ stack, (change stack).id = stack.id) (name : StackId) :
    (history.modify id change).stack? name =
      if name = id then (history.stack? name).map change else history.stack? name := by
  unfold modify
  rw [stack?_map _ _ (by intro stack; split_ifs <;> simp [hid])]
  cases hstack : history.stack? name with
  | none => simp
  | some stack =>
    have hname := id_of_stack? hstack
    by_cases heq : name = id
    · simp [hname, heq]
    · simp [hname, heq]

theorem stack?_withStack (history : History) (id name : StackId) :
    (history.withStack id).stack? name =
      if name = id then some ((history.stack? id).getD (Stack.empty id)) else history.stack? name := by
  unfold withStack
  cases hstack : history.stack? id with
  | some stack =>
    by_cases hname : name = id
    · simp [hname, hstack]
    · simp [hname]
  | none =>
    simp only [stack?, List.find?_append] at hstack ⊢
    by_cases hname : name = id
    · subst hname
      simp [hstack, Stack.empty]
    · have hne : (id == name) = false := by simpa using fun heq : id = name => hname heq.symm
      simp [hname, Stack.empty, hne]

theorem stack?_record (history : History) (id : StackId) (command : Command) (name : StackId) :
    (history.record id command).stack? name =
      if name = id then
        some (((((history.stack? id).getD (Stack.empty id)).push command).trim history.limit).1.touch
          (history.sequence + 1))
      else history.stack? name := by
  unfold record
  rw [stack?_modify _ _ _ (by simp)]
  have hsame : ∀ name, ({ history.withStack id with sequence := history.sequence + 1 } : History).stack? name =
      (history.withStack id).stack? name := fun _ => rfl
  rw [hsame, stack?_withStack]
  split_ifs <;> simp

/-! ### Soundness is kept -/

theorem Sound.map (hsound : history.Sound) (change : Stack → Stack)
    (hid : ∀ stack, (change stack).id = stack.id)
    (hcursor : ∀ stack, stack.applied ≤ stack.count → (change stack).applied ≤ (change stack).count) :
    ({ history with stackList := history.stackList.map change } : History).Sound where
  keyed := by
    have hsame : Stack.id ∘ change = Stack.id := funext hid
    simpa [hsame] using hsound.keyed
  cursors := by
    intro stack hmem
    obtain ⟨old, hold, rfl⟩ := List.mem_map.mp hmem
    exact hcursor old (hsound.cursors old hold)

theorem Sound.modify (hsound : history.Sound) (id : StackId) (change : Stack → Stack)
    (hid : ∀ stack, (change stack).id = stack.id)
    (hcursor : ∀ stack, stack.applied ≤ stack.count → (change stack).applied ≤ (change stack).count) :
    (history.modify id change).Sound := by
  apply hsound.map
  · intro stack
    split_ifs
    · exact hid stack
    · rfl
  · intro stack hle
    split_ifs
    · exact hcursor stack hle
    · exact hle

theorem Sound.withStack (hsound : history.Sound) (id : StackId) : (history.withStack id).Sound := by
  unfold History.withStack
  cases hstack : history.stack? id with
  | some _ => exact hsound
  | none =>
    have hfresh : ∀ stack ∈ history.stackList, stack.id ≠ id := by
      intro stack hmem heq
      have hfound := stack?_of_mem hsound.keyed hmem
      rw [heq, hstack] at hfound
      simp at hfound
    constructor
    · rw [List.map_append, List.nodup_append]
      refine ⟨hsound.keyed, by simp, ?_⟩
      intro left hleft right hright
      obtain ⟨stack, hmem, rfl⟩ := List.mem_map.mp hleft
      have hright : right = id := by simpa [Stack.empty] using hright
      exact hright ▸ hfresh stack hmem
    · intro stack hmem
      rcases List.mem_append.mp hmem with hold | hnew
      · exact hsound.cursors stack hold
      · rw [List.mem_singleton.mp hnew]
        exact Nat.le_refl 0

theorem Sound.start (defaultStack : StackId) (limit : Nat) : (History.start defaultStack limit).Sound where
  keyed := by simp [History.start]
  cursors := by simp [History.start, Stack.empty, Stack.count]

theorem Sound.clear (hsound : history.Sound) : history.clear.Sound :=
  hsound.map Stack.clear Stack.id_clear fun stack _ => (Stack.Holds.clear stack).applied_le

theorem Sound.setLimit (hsound : history.Sound) (limit : Nat) : (history.setLimit limit).1.Sound := by
  have hmapped := hsound.map (fun stack => (stack.trim limit).1) (fun stack => Stack.id_trim stack limit)
    fun stack hle => ((Stack.Holds.of_le hle).trim limit).applied_le
  exact ⟨hmapped.keyed, hmapped.cursors⟩

theorem Sound.activate (hsound : history.Sound) (stack : Option StackId) : (history.activate stack).Sound := by
  have hwith := hsound.withStack (stack.getD history.defaultStack)
  exact ⟨hwith.keyed, hwith.cursors⟩

theorem Sound.record (hsound : history.Sound) (id : StackId) (command : Command) :
    (history.record id command).Sound := by
  have hrecorded := (hsound.withStack id).modify id
    (fun stack => ((stack.push command).trim history.limit).1.touch (history.sequence + 1))
    (by simp)
    fun stack hle => ((((Stack.Holds.of_le hle).push command).trim history.limit).touch _).applied_le
  exact ⟨hrecorded.keyed, hrecorded.cursors⟩

private theorem moved_applied_le (direction : Direction) (hle : stack.applied ≤ stack.count) :
    (moved direction stack).applied ≤ (moved direction stack).count := by
  cases direction with
  | forward =>
    unfold moved Stack.stepForward
    split_ifs with hroom
    · exact of_decide_eq_true hroom
    · exact hle
  | backward =>
    unfold moved Stack.stepBackward
    split_ifs
    · exact (Nat.sub_le ..).trans hle
    · exact hle

theorem id_moved (direction : Direction) (stack : Stack) : (moved direction stack).id = stack.id := by
  cases direction with
  | forward => exact Stack.id_stepForward stack
  | backward => exact Stack.id_stepBackward stack

theorem Sound.moveCursor (hsound : history.Sound) (id : StackId) (command : CommandId)
    (direction : Direction) : (history.moveCursor id command direction).1.Sound := by
  unfold History.moveCursor
  dsimp only
  split_ifs
  · have hmoved := hsound.modify id
      (fun stack => (moved direction stack).touch (history.sequence + 1))
      (fun stack => id_moved direction stack) fun stack hle => moved_applied_le direction hle
    exact ⟨hmoved.keyed, hmoved.cursors⟩
  · exact ⟨hsound.keyed, hsound.cursors⟩

/-! ### The two lists after each operation -/

section Lists

variable {lists : List Command × List Command} (hlists : (history.past id, history.future id) = lists)

include hlists

theorem past_of_lists : history.past id = lists.1 := congrArg Prod.fst hlists

theorem future_of_lists : history.future id = lists.2 := congrArg Prod.snd hlists

theorem line_of_lists : history.line id = lists.1 ++ lists.2 := by
  rw [line, past_of_lists hlists, future_of_lists hlists]

end Lists

theorem past_start (defaultStack : StackId) (limit : Nat) (id : StackId) :
    (History.start defaultStack limit).past id = [] := by
  simp only [past, stack?, History.start, List.find?_cons]
  split <;> rfl

theorem future_start (defaultStack : StackId) (limit : Nat) (id : StackId) :
    (History.start defaultStack limit).future id = [] := by
  simp only [future, stack?, History.start, List.find?_cons]
  split <;> rfl

theorem past_clear (history : History) (id : StackId) : history.clear.past id = [] := by
  unfold clear
  rw [past, stack?_map history Stack.clear Stack.id_clear]
  cases history.stack? id <;> rfl

theorem future_clear (history : History) (id : StackId) : history.clear.future id = [] := by
  unfold clear
  rw [future, stack?_map history Stack.clear Stack.id_clear]
  cases history.stack? id <;> rfl

theorem stack?_setLimit (history : History) (limit : Nat) (id : StackId) :
    (history.setLimit limit).1.stack? id = (history.stack? id).map fun stack => (stack.trim limit).1 := by
  have hmapped := stack?_map history (fun stack => (stack.trim limit).1) (fun stack => Stack.id_trim stack limit) id
  exact hmapped

theorem Sound.lists_setLimit (hsound : history.Sound) (limit : Nat) (id : StackId) :
    ((history.setLimit limit).1.past id, (history.setLimit limit).1.future id) =
      Stack.within limit (history.past id) (history.future id) := by
  cases hstack : history.stack? id with
  | none =>
    have hnone : (history.setLimit limit).1.stack? id = none := by rw [stack?_setLimit, hstack]; rfl
    rw [past_of_none hnone, future_of_none hnone, past_of_none hstack, future_of_none hstack]
    simp [Stack.within]
  | some stack =>
    have hsome : (history.setLimit limit).1.stack? id = some (stack.trim limit).1 := by
      rw [stack?_setLimit, hstack]
      rfl
    have htrimmed := (hsound.holds hstack).trim limit
    rw [past_of_holds hsome htrimmed, future_of_holds hsome htrimmed]

private theorem past_withStack (history : History) (id name : StackId) :
    (history.withStack id).past name = history.past name := by
  rw [past, stack?_withStack]
  split_ifs with hname
  · subst hname
    cases hstack : history.stack? name <;> simp [past, hstack, Stack.appliedCommands, Stack.empty]
  · rfl

private theorem future_withStack (history : History) (id name : StackId) :
    (history.withStack id).future name = history.future name := by
  rw [future, stack?_withStack]
  split_ifs with hname
  · subst hname
    cases hstack : history.stack? name <;> simp [future, hstack, Stack.redoCommands, Stack.empty]
  · rfl

theorem past_activate (history : History) (stack : Option StackId) (id : StackId) :
    (history.activate stack).past id = history.past id :=
  past_withStack history (stack.getD history.defaultStack) id

theorem future_activate (history : History) (stack : Option StackId) (id : StackId) :
    (history.activate stack).future id = history.future id :=
  future_withStack history (stack.getD history.defaultStack) id

theorem Sound.lists_record (hsound : history.Sound) (id : StackId) (command : Command) (name : StackId) :
    ((history.record id command).past name, (history.record id command).future name) =
      if name = id then Stack.within history.limit (history.past id ++ [command]) []
      else (history.past name, history.future name) := by
  have hstack := stack?_record history id command name
  split_ifs at hstack ⊢ with hname
  · have hholds := (((hsound.getD_holds id).push command).trim history.limit).touch (history.sequence + 1)
    rw [past_of_holds hstack hholds, future_of_holds hstack hholds]
  · rw [past, future, hstack]
    rfl

/-! ### Moving the cursor -/

def next (history : History) (direction : Direction) (id : StackId) : Option Command :=
  match direction with
  | .forward => (history.future id).head?
  | .backward => (history.past id).getLast?

theorem mem_line_of_next {direction : Direction} (hnext : history.next direction id = some command) :
    command ∈ history.line id := by
  cases direction with
  | forward => exact List.mem_append_right _ (List.mem_of_mem_head? hnext)
  | backward => exact List.mem_append_left _ (List.mem_of_mem_getLast? hnext)

theorem Sound.neighbour_eq (hsound : history.Sound) (direction : Direction)
    (hstack : history.stack? id = some stack) : neighbour direction stack = history.next direction id := by
  cases direction with
  | forward => exact (hsound.holds hstack).redoCommand_eq
  | backward => exact (hsound.holds hstack).undoCommand_eq

theorem Sound.isNextTo_iff (hsound : history.Sound) (id : StackId) (command : CommandId)
    (direction : Direction) :
    history.isNextTo id command direction = true ↔
      ∃ passed, history.next direction id = some passed ∧ passed.id = command := by
  unfold isNextTo
  cases hstack : history.stack? id with
  | none => cases direction <;> simp [next, past_of_none hstack, future_of_none hstack]
  | some stack =>
    rw [Option.bind_some, hsound.neighbour_eq direction hstack]
    cases history.next direction id <;> simp

theorem moveCursor_of_not_next {command : CommandId} {direction : Direction}
    (hnext : history.isNextTo id command direction = false) :
    history.moveCursor id command direction = ({ history with sequence := history.sequence + 1 }, false) := by
  simp [moveCursor, hnext]

theorem Sound.lists_moveCursor_backward (hsound : history.Sound) {before : List Command}
    (hpast : history.past id = before ++ [command]) :
    (history.moveCursor id command.id .backward).2 = true ∧
      ∀ name, ((history.moveCursor id command.id .backward).1.past name,
          (history.moveCursor id command.id .backward).1.future name) =
        if name = id then (before, command :: history.future id)
        else (history.past name, history.future name) := by
  have hnext : history.isNextTo id command.id .backward = true :=
    (hsound.isNextTo_iff id command.id .backward).mpr ⟨command, by simp [next, hpast], rfl⟩
  unfold History.moveCursor
  rw [if_pos hnext]
  refine ⟨rfl, fun name => ?_⟩
  dsimp only
  have hmoved := stack?_modify { history with sequence := history.sequence + 1 } id
    (fun stack => (moved .backward stack).touch (history.sequence + 1))
    (fun stack => id_moved .backward stack) name
  split_ifs at hmoved ⊢ with hname
  · subst hname
    cases hstack : history.stack? name with
    | none => simp [past_of_none hstack] at hpast
    | some stack =>
      have hholds := hsound.holds hstack
      rw [hpast] at hholds
      have hstepped := hholds.stepBackward.touch (history.sequence + 1)
      have hsome := hmoved.trans (congrArg _ hstack)
      rw [past_of_holds hsome hstepped, future_of_holds hsome hstepped]
  · rw [past, future, hmoved]
    rfl

theorem Sound.lists_moveCursor_forward (hsound : history.Sound) {rest : List Command}
    (hfuture : history.future id = command :: rest) :
    (history.moveCursor id command.id .forward).2 = true ∧
      ∀ name, ((history.moveCursor id command.id .forward).1.past name,
          (history.moveCursor id command.id .forward).1.future name) =
        if name = id then (history.past id ++ [command], rest)
        else (history.past name, history.future name) := by
  have hnext : history.isNextTo id command.id .forward = true :=
    (hsound.isNextTo_iff id command.id .forward).mpr ⟨command, by simp [next, hfuture], rfl⟩
  unfold History.moveCursor
  rw [if_pos hnext]
  refine ⟨rfl, fun name => ?_⟩
  dsimp only
  have hmoved := stack?_modify { history with sequence := history.sequence + 1 } id
    (fun stack => (moved .forward stack).touch (history.sequence + 1))
    (fun stack => id_moved .forward stack) name
  split_ifs at hmoved ⊢ with hname
  · subst hname
    cases hstack : history.stack? name with
    | none => simp [future_of_none hstack] at hfuture
    | some stack =>
      have hholds := hsound.holds hstack
      rw [hfuture] at hholds
      have hstepped := hholds.stepForward.touch (history.sequence + 1)
      have hsome := hmoved.trans (congrArg _ hstack)
      rw [past_of_holds hsome hstepped, future_of_holds hsome hstepped]
  · rw [past, future, hmoved]
    rfl

theorem Sound.lists_passed_back (hsound : history.Sound) {before : List Command}
    (hpast : history.past id = before ++ [command]) :
    ((history.moveCursor id command.id .backward).1.past id, (history.moveCursor id command.id .backward).1.future id) =
      (before, command :: history.future id) :=
  ((hsound.lists_moveCursor_backward hpast).2 id).trans (if_pos rfl)

theorem Sound.lists_passed_forth (hsound : history.Sound) {rest : List Command}
    (hfuture : history.future id = command :: rest) :
    ((history.moveCursor id command.id .forward).1.past id, (history.moveCursor id command.id .forward).1.future id) =
      (history.past id ++ [command], rest) :=
  ((hsound.lists_moveCursor_forward hfuture).2 id).trans (if_pos rfl)

theorem lists_moveCursor_of_ne (history : History) (number : CommandId) (direction : Direction) (hname : name ≠ id) :
    ((history.moveCursor id number direction).1.past name, (history.moveCursor id number direction).1.future name) =
      (history.past name, history.future name) := by
  have hstack : (history.moveCursor id number direction).1.stack? name = history.stack? name := by
    have hmoved := stack?_modify { history with sequence := history.sequence + 1 } id
      (fun stack => (moved direction stack).touch (history.sequence + 1)) (fun stack => id_moved direction stack) name
    unfold History.moveCursor
    dsimp only
    split_ifs
    · exact hmoved.trans (if_neg hname)
    · rfl
  rw [past, future, hstack, past, future]

/-! ### A stack with the same lists -/

section SameLists

variable {after : History} (hlists : (after.past id, after.future id) = (history.past id, history.future id))

include hlists

theorem next_of_lists (direction : Direction) : after.next direction id = history.next direction id := by
  cases direction with
  | forward => rw [next, next, future_of_lists hlists]
  | backward => rw [next, next, past_of_lists hlists]

theorem Sound.lists_moveCursor_congr (hsound : history.Sound) (hafter : after.Sound) (number : CommandId)
    (direction : Direction) :
    ((after.moveCursor id number direction).1.past id, (after.moveCursor id number direction).1.future id) =
      ((history.moveCursor id number direction).1.past id, (history.moveCursor id number direction).1.future id) := by
  have hnext : after.isNextTo id number direction = history.isNextTo id number direction := by
    rw [Bool.eq_iff_iff, hafter.isNextTo_iff, hsound.isNextTo_iff, next_of_lists hlists]
  cases hreached : history.isNextTo id number direction with
  | false =>
    rw [moveCursor_of_not_next hreached, moveCursor_of_not_next (hnext.trans hreached)]
    exact hlists
  | true =>
    obtain ⟨passed, hpassed, rfl⟩ := (hsound.isNextTo_iff _ _ _).mp hreached
    cases direction with
    | forward =>
      obtain ⟨rest, hfuture⟩ := List.head?_eq_some_iff.mp hpassed
      rw [hsound.lists_passed_forth hfuture, hafter.lists_passed_forth ((future_of_lists hlists).trans hfuture),
        past_of_lists hlists]
    | backward =>
      obtain ⟨front, hpast⟩ := List.getLast?_eq_some_iff.mp hpassed
      rw [hsound.lists_passed_back hpast, hafter.lists_passed_back ((past_of_lists hlists).trans hpast),
        future_of_lists hlists]

end SameLists

/-! ### The choice of a command -/

theorem mem_of_latest {candidates : List Candidate} {candidate : Candidate}
    (hlatest : latest candidates = some candidate) : candidate ∈ candidates := by
  induction candidates with
  | nil => simp [latest] at hlatest
  | cons first rest ih =>
    unfold latest at hlatest
    cases hrest : latest rest with
    | none =>
      rw [hrest] at hlatest
      exact Option.some.inj hlatest ▸ List.mem_cons_self
    | some best =>
      rw [hrest] at hlatest
      dsimp only at hlatest
      split_ifs at hlatest
      · exact Option.some.inj hlatest ▸ List.mem_cons_self
      · exact List.mem_cons_of_mem _ (ih (hrest.trans hlatest))

theorem Sound.next_of_target (hsound : history.Sound) {direction : Direction} {filter : Option Scope}
    {candidate : Candidate} (htarget : history.target direction filter = some candidate) :
    history.next direction candidate.stack = some candidate.command := by
  have hcandidate : ∃ stack ∈ history.stackList, candidate? direction stack = some candidate := by
    cases filter with
    | none =>
      obtain ⟨stack, hactive, hcandidate⟩ := Option.bind_eq_some_iff.mp htarget
      exact ⟨stack, mem_of_stack? hactive, hcandidate⟩
    | some filter =>
      have hmem := List.mem_of_mem_filter (mem_of_latest htarget)
      exact List.mem_filterMap.mp hmem
  obtain ⟨stack, hmem, hcandidate⟩ := hcandidate
  obtain ⟨command, hneighbour, rfl⟩ := Option.map_eq_some_iff.mp hcandidate
  rw [← hneighbour]
  exact (hsound.neighbour_eq direction (stack?_of_mem hsound.keyed hmem)).symm

end Retrace.History
