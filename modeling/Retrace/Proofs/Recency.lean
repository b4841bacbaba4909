import Retrace.Proofs.History

/-!
# Which stack was touched last

The sequence number of a history grows with every recording and every move of a cursor, so the stacks
that were ever touched have an order, and a list of their names with the latest first says as much as
the numbers do. The choice of what to undo or redo under a filter is the first name of that list whose
stack has something to offer.
-/

namespace Retrace.History

variable {history : History} {id name : StackId} {command : Command} {direction : Direction}

def touched (history : History) (id : StackId) : Nat := (history.stack? id).elim 0 Stack.lastTouched

theorem lastTouched_trim (stack : Stack) (limit : Nat) : (stack.trim limit).1.lastTouched = stack.lastTouched := by
  unfold Stack.trim
  split_ifs <;> rfl

private theorem touched_withStack (history : History) (id name : StackId) :
    (history.withStack id).touched name = history.touched name := by
  rw [touched, stack?_withStack]
  split_ifs with hname
  · subst hname
    cases hstack : history.stack? name <;> simp [touched, hstack, Stack.empty]
  · rfl

theorem touched_activate (history : History) (stack : Option StackId) (id : StackId) :
    (history.activate stack).touched id = history.touched id :=
  touched_withStack history (stack.getD history.defaultStack) id

theorem touched_clear (history : History) (id : StackId) : history.clear.touched id = history.touched id := by
  unfold clear
  rw [touched, stack?_map history Stack.clear Stack.id_clear, touched]
  cases history.stack? id <;> rfl

theorem touched_setLimit (history : History) (limit : Nat) (id : StackId) :
    (history.setLimit limit).1.touched id = history.touched id := by
  rw [touched, stack?_setLimit, touched]
  cases history.stack? id with
  | none => rfl
  | some stack => exact lastTouched_trim stack limit

theorem touched_record (history : History) (id : StackId) (command : Command) (name : StackId) :
    (history.record id command).touched name = if name = id then history.sequence + 1 else history.touched name := by
  rw [touched, stack?_record]
  split_ifs <;> rfl

theorem touched_moveCursor {number : CommandId} (hnext : history.isNextTo id number direction = true)
    (name : StackId) : (history.moveCursor id number direction).1.touched name =
      if name = id then history.sequence + 1 else history.touched name := by
  have hstack : ∃ stack, history.stack? id = some stack := by
    unfold isNextTo at hnext
    cases hstack : history.stack? id with
    | none => simp [hstack] at hnext
    | some stack => exact ⟨stack, rfl⟩
  obtain ⟨stack, hstack⟩ := hstack
  unfold History.moveCursor
  rw [if_pos hnext]
  have hmoved := stack?_modify { history with sequence := history.sequence + 1 } id
    (fun stack => (moved direction stack).touch (history.sequence + 1)) (fun stack => id_moved direction stack) name
  rw [touched, hmoved]
  split_ifs with hname
  · rw [hname, show ({ history with sequence := history.sequence + 1 } : History).stack? id = some stack from hstack]
    rfl
  · rfl

/-! ### The settings of a history -/

theorem settings_withStack (history : History) (id : StackId) :
    (history.withStack id).active = history.active ∧
      (history.withStack id).defaultStack = history.defaultStack ∧
      (history.withStack id).limit = history.limit ∧ (history.withStack id).sequence = history.sequence := by
  unfold withStack
  split <;> exact ⟨rfl, rfl, rfl, rfl⟩

theorem settings_record (history : History) (id : StackId) (command : Command) :
    (history.record id command).active = history.active ∧
      (history.record id command).defaultStack = history.defaultStack ∧
      (history.record id command).limit = history.limit ∧
      (history.record id command).sequence = history.sequence + 1 := by
  obtain ⟨hactive, hdefault, hlimit, -⟩ := settings_withStack history id
  exact ⟨hactive, hdefault, hlimit, rfl⟩

theorem settings_moveCursor (history : History) (id : StackId) (number : CommandId) (direction : Direction) :
    (history.moveCursor id number direction).1.active = history.active ∧
      (history.moveCursor id number direction).1.defaultStack = history.defaultStack ∧
      (history.moveCursor id number direction).1.limit = history.limit ∧
      (history.moveCursor id number direction).1.sequence = history.sequence + 1 := by
  unfold History.moveCursor
  dsimp only
  split_ifs <;> exact ⟨rfl, rfl, rfl, rfl⟩

/-! ### The order of the stacks -/

/-- A list of names is in the order in which the stacks were touched, latest first, and names every stack
that holds a command. -/
structure Recency (history : History) (recent : List StackId) : Prop where
  ordered : recent.Pairwise fun newer older => history.touched older < history.touched newer
  bounded : ∀ id, history.touched id ≤ history.sequence
  listed : ∀ id, history.line id ≠ [] → id ∈ recent

variable {recent : List StackId}

theorem Recency.start (defaultStack : StackId) (limit : Nat) : (History.start defaultStack limit).Recency [] where
  ordered := List.Pairwise.nil
  bounded := by
    intro id
    simp only [touched, stack?, History.start, List.find?_cons]
    split <;> exact Nat.le_refl 0
  listed := by
    intro id hline
    rw [line, past_start, future_start] at hline
    contradiction

theorem Recency.kept (hrecency : history.Recency recent) {after : History}
    (htouched : ∀ id, after.touched id = history.touched id) (hsequence : history.sequence ≤ after.sequence)
    (hline : ∀ id, (after.line id).Sublist (history.line id)) : after.Recency recent where
  ordered := by
    simp only [htouched]
    exact hrecency.ordered
  bounded := by
    intro id
    rw [htouched]
    exact (hrecency.bounded id).trans hsequence
  listed := by
    intro id hsome
    refine hrecency.listed id fun hnone => hsome ?_
    have hless := hline id
    rw [hnone] at hless
    exact List.sublist_nil.mp hless

theorem Recency.frame (hrecency : history.Recency recent) {after : History}
    (htouched : ∀ id, after.touched id = history.touched id) (hsequence : after.sequence = history.sequence)
    (hline : ∀ id, (after.line id).Sublist (history.line id)) : after.Recency recent :=
  hrecency.kept htouched hsequence.ge hline

theorem Recency.clear (hrecency : history.Recency recent) : history.clear.Recency recent := by
  refine hrecency.frame (touched_clear history) rfl fun id => ?_
  rw [line, past_clear, future_clear]
  exact List.nil_sublist _

theorem Recency.setLimit (hrecency : history.Recency recent) (hsound : history.Sound) (limit : Nat) :
    (history.setLimit limit).1.Recency recent := by
  refine hrecency.frame (touched_setLimit history limit) rfl fun id => ?_
  rw [line_of_lists (hsound.lists_setLimit limit id)]
  exact Stack.within_sublist ..

theorem Recency.activate (hrecency : history.Recency recent) (stack : Option StackId) :
    (history.activate stack).Recency recent := by
  refine hrecency.frame (touched_activate history stack) (settings_withStack ..).2.2.2 fun id => ?_
  rw [line, past_activate, future_activate, line]

theorem Recency.touch (hrecency : history.Recency recent) {after : History} (id : StackId)
    (htouched : ∀ name, after.touched name = if name = id then history.sequence + 1 else history.touched name)
    (hsequence : after.sequence = history.sequence + 1)
    (hline : ∀ name, name ≠ id → after.line name = history.line name) :
    after.Recency (id :: recent.filter (· ≠ id)) where
  ordered := by
    have hothers : ∀ {name}, name ∈ recent.filter (· ≠ id) → after.touched name = history.touched name := by
      intro name hmem
      rw [htouched, if_neg (by simpa using List.of_mem_filter hmem)]
    rw [List.pairwise_cons]
    constructor
    · intro name hmem
      rw [hothers hmem, htouched, if_pos rfl]
      exact Nat.lt_succ_of_le (hrecency.bounded name)
    · refine (hrecency.ordered.filter _).imp_of_mem ?_
      intro newer older hnewer holder hlt
      rw [hothers hnewer, hothers holder]
      exact hlt
  bounded := by
    intro name
    rw [htouched, hsequence]
    split_ifs
    · exact Nat.le_refl _
    · exact Nat.le_succ_of_le (hrecency.bounded name)
  listed := by
    intro name hsome
    by_cases hname : name = id
    · rw [hname]
      exact List.mem_cons_self
    · rw [hline name hname] at hsome
      exact List.mem_cons_of_mem _ (List.mem_filter.mpr ⟨hrecency.listed name hsome, by simpa using hname⟩)

/-! ### The choice -/

theorem latest_eq_none {candidates : List Candidate} (hlatest : latest candidates = none) : candidates = [] := by
  cases candidates with
  | nil => rfl
  | cons first rest =>
    unfold latest at hlatest
    split at hlatest
    · cases hlatest
    · split_ifs at hlatest

theorem le_of_latest {candidates : List Candidate} {best candidate : Candidate}
    (hlatest : latest candidates = some best) (hmem : candidate ∈ candidates) :
    candidate.lastTouched ≤ best.lastTouched := by
  induction candidates generalizing best with
  | nil => cases hmem
  | cons first rest ih =>
    unfold latest at hlatest
    cases hrest : latest rest with
    | none =>
      rw [hrest] at hlatest
      rw [latest_eq_none hrest, List.mem_singleton] at hmem
      rw [hmem, Option.some.inj hlatest]
    | some other =>
      rw [hrest] at hlatest
      dsimp only at hlatest
      split_ifs at hlatest with hlater
      · obtain rfl := Option.some.inj hlatest
        rcases List.mem_cons.mp hmem with rfl | hmem
        · exact Nat.le_refl _
        · exact (ih hrest hmem).trans hlater.le
      · obtain rfl := Option.some.inj hlatest
        rcases List.mem_cons.mp hmem with rfl | hmem
        · exact Nat.le_of_not_lt hlater
        · exact ih hrest hmem

private theorem Sound.mem_candidates (hsound : history.Sound) {candidate : Candidate} :
    candidate ∈ history.stackList.filterMap (candidate? direction) ↔
      history.next direction candidate.stack = some candidate.command ∧
        candidate.lastTouched = history.touched candidate.stack := by
  rw [List.mem_filterMap]
  constructor
  · rintro ⟨stack, hmem, hcandidate⟩
    obtain ⟨command, hneighbour, rfl⟩ := Option.map_eq_some_iff.mp hcandidate
    have hstack := stack?_of_mem hsound.keyed hmem
    refine ⟨?_, ?_⟩
    · rw [← hsound.neighbour_eq direction hstack]
      exact hneighbour
    · rw [touched, hstack]
      rfl
  · rintro ⟨hnext, htouched⟩
    cases hstack : history.stack? candidate.stack with
    | none =>
      have hmem := mem_line_of_next hnext
      rw [line, past_of_none hstack, future_of_none hstack] at hmem
      cases hmem
    | some stack =>
      refine ⟨stack, mem_of_stack? hstack, ?_⟩
      rw [← hsound.neighbour_eq direction hstack] at hnext
      rw [touched, hstack] at htouched
      rw [candidate?, hnext, Option.map_some, id_of_stack? hstack]
      obtain ⟨stackName, lastTouched, command⟩ := candidate
      dsimp only at htouched
      rw [htouched]
      rfl

def offer (history : History) (direction : Direction) (filter : Scope) (id : StackId) :
    Option (StackId × Command) :=
  ((history.next direction id).filter fun command => filter.selects command.scope).map fun command => (id, command)

theorem offer_eq_some {filter : Scope} : history.offer direction filter id = some (name, command) ↔
    name = id ∧ history.next direction id = some command ∧ filter.selects command.scope = true := by
  unfold offer
  rw [Option.map_eq_some_iff]
  constructor
  · rintro ⟨chosen, hchosen, heq⟩
    obtain ⟨rfl, rfl⟩ := Prod.mk.inj heq
    exact ⟨rfl, Option.filter_eq_some_iff.mp hchosen⟩
  · rintro ⟨rfl, hnext, hselects⟩
    exact ⟨command, Option.filter_eq_some_iff.mpr ⟨hnext, hselects⟩, rfl⟩

theorem Sound.target_none (hsound : history.Sound) (direction : Direction) :
    (history.target direction none).map (fun candidate => (candidate.stack, candidate.command)) =
      (history.next direction history.active).map fun command => (history.active, command) := by
  unfold target activeStack
  cases hstack : history.stack? history.active with
  | none =>
    have hnext : history.next direction history.active = none := by
      cases direction with
      | forward => rw [next, future_of_none hstack]; rfl
      | backward => rw [next, past_of_none hstack]; rfl
    rw [hnext]
    rfl
  | some stack =>
    dsimp only
    rw [← hsound.neighbour_eq direction hstack, Option.bind_some, candidate?, Option.map_map, id_of_stack? hstack]
    rfl

/-- **The choice under a filter** is the first offer in the order of the stacks. -/
theorem Sound.target_filter (hsound : history.Sound) (hrecency : history.Recency recent) (filter : Scope) :
    (history.target direction (some filter)).map (fun candidate => (candidate.stack, candidate.command)) =
      recent.findSome? (history.offer direction filter) := by
  have hmem : ∀ candidate : Candidate,
      candidate ∈ (history.stackList.filterMap (candidate? direction)).filter
          (fun candidate => filter.selects candidate.command.scope) ↔
        history.offer direction filter candidate.stack = some (candidate.stack, candidate.command) ∧
          candidate.lastTouched = history.touched candidate.stack := by
    intro candidate
    rw [List.mem_filter, hsound.mem_candidates, offer_eq_some]
    tauto
  unfold target
  dsimp only
  cases hlatest : latest ((history.stackList.filterMap (candidate? direction)).filter
      fun candidate => filter.selects candidate.command.scope) with
  | none =>
    have hnone := latest_eq_none hlatest
    symm
    rw [Option.map_none, List.findSome?_eq_none_iff]
    intro id _
    cases hoffer : history.offer direction filter id with
    | none => rfl
    | some offered =>
      obtain ⟨name, command⟩ := offered
      obtain ⟨rfl, -⟩ := offer_eq_some.mp hoffer
      have hfound := (hmem ⟨name, history.touched name, command⟩).mpr ⟨hoffer, rfl⟩
      rw [hnone] at hfound
      cases hfound
  | some best =>
    obtain ⟨hoffer, htouched⟩ := (hmem best).mp (mem_of_latest hlatest)
    have hline : history.line best.stack ≠ [] := by
      obtain ⟨-, hnext, -⟩ := offer_eq_some.mp hoffer
      exact List.ne_nil_of_mem (mem_line_of_next hnext)
    obtain ⟨newer, older, hsplit⟩ := List.append_of_mem (hrecency.listed best.stack hline)
    have hnewer : newer.findSome? (history.offer direction filter) = none := by
      rw [List.findSome?_eq_none_iff]
      intro id hid
      cases hother : history.offer direction filter id with
      | none => rfl
      | some offered =>
        obtain ⟨name, command⟩ := offered
        obtain ⟨rfl, -⟩ := offer_eq_some.mp hother
        have hle := le_of_latest hlatest
          ((hmem ⟨name, history.touched name, command⟩).mpr ⟨hother, rfl⟩)
        have hordered := hrecency.ordered
        rw [hsplit, List.pairwise_append] at hordered
        have hlt := hordered.2.2 name hid best.stack List.mem_cons_self
        dsimp only at hle
        omega
    rw [hsplit, List.findSome?_append, hnewer, Option.none_or, List.findSome?_cons, hoffer]
    rfl

end Retrace.History
