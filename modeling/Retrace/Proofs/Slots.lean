import Retrace.Proofs.Jump
import Retrace.Proofs.Serving

/-!
# Places in a line

While the action of an undo or a redo runs, the engine knows the place of its command only by the command's number, and
several places of a stack may share it. The places are told apart in a copy of the history whose commands are numbered
by where they stand: the same calls are made on the copy, and it shows which places are left. What a limit leaves of a
stack does not depend on the commands (`within_map`), so the two stay in step.
-/

namespace Retrace

namespace Stack

def tagged (stack : Stack) : Stack :=
  { stack with commands := stack.commands.mapIdx fun place command => { command with id := place } }

private theorem count_tagged (stack : Stack) : stack.tagged.count = stack.count := List.length_mapIdx

theorem ids_tagged (stack : Stack) : stack.tagged.commands.map Command.id = List.range stack.count := by
  refine List.ext_getElem (by simp [tagged, count]) fun place _ _ => ?_
  simp [tagged]

private theorem newest_map (name : Command → Command) (number : Nat) (commands : List Command) :
    newest number (commands.map name) = (newest number commands).map name := by
  rw [newest, newest, List.length_map, List.map_drop]

theorem within_map (name : Command → Command) (limit : Nat) (past future : List Command) :
    within limit (past.map name) (future.map name) =
      ((within limit past future).1.map name, (within limit past future).2.map name) := by
  unfold within
  rw [List.length_map, List.length_map]
  split_ifs
  · rfl
  · rw [newest_map]
  · rw [newest_map]
    rfl

end Stack

namespace History

variable {history tags origin : History} {id name : StackId} {direction : Direction} {move : Move}

def tagged (history : History) : History := { history with stackList := history.stackList.map Stack.tagged }

private theorem Sound.tagged (hsound : history.Sound) : history.tagged.Sound :=
  hsound.map Stack.tagged (fun _ => rfl) fun stack hle => by
    rw [Stack.count_tagged]
    exact hle

theorem stack?_tagged (history : History) (id : StackId) :
    history.tagged.stack? id = (history.stack? id).map Stack.tagged :=
  stack?_map history Stack.tagged (fun _ => rfl) id

theorem Sound.ids_past_tagged (hsound : history.Sound) (id : StackId) :
    (history.tagged.past id).map Command.id = List.range (history.past id).length := by
  cases hstack : history.stack? id with
  | none => simp [past, stack?_tagged, hstack]
  | some stack =>
    have hholds := hsound.holds hstack
    have hless : (history.past id).length ≤ stack.count := hholds.applied_eq ▸ hholds.applied_le
    rw [past, stack?_tagged, hstack]
    show (stack.tagged.commands.take stack.applied).map Command.id = _
    rw [List.map_take, Stack.ids_tagged, List.take_range, hholds.applied_eq, Nat.min_eq_left hless]

theorem Sound.ids_future_tagged (hsound : history.Sound) (id : StackId) :
    (history.tagged.future id).map Command.id =
      List.range' (history.past id).length (history.future id).length := by
  cases hstack : history.stack? id with
  | none => simp [past, future, stack?_tagged, hstack]
  | some stack =>
    have hholds := hsound.holds hstack
    rw [future, stack?_tagged, hstack]
    show (stack.tagged.commands.drop stack.applied).map Command.id = _
    rw [List.map_drop, Stack.ids_tagged, hholds.count_eq, hholds.applied_eq, List.range_eq_range', List.drop_range']
    simp

def readIn (whole : List Command) (tag : Command) : Command := (whole[tag.id]?).getD tag

private theorem map_readIn {whole found : List Command} (start : Nat)
    (hids : found.map Command.id = List.range' start found.length) (hroom : start + found.length ≤ whole.length) :
    found.map (readIn whole) = (whole.drop start).take found.length := by
  refine List.ext_getElem (by simp; omega) fun place hleft hright => ?_
  have hplace : place < found.length := by simpa using hleft
  have hid : found[place].id = start + place := by
    have hsame := congrArg (·[place]?) hids
    simpa [hplace] using hsame
  simp [readIn, hid, List.getElem?_eq_getElem (show start + place < whole.length by omega)]

/-- The lists of a history are those of another one, whose commands are read through a function for each stack. -/
def ReadFrom (name : StackId → Command → Command) (tags history : History) : Prop :=
  ∀ id, (history.past id, history.future id) = ((tags.past id).map (name id), (tags.future id).map (name id))

theorem Sound.readFrom_tagged (hsound : history.Sound) :
    ReadFrom (fun id => readIn (history.line id)) history.tagged history := by
  intro id
  have hpast := hsound.ids_past_tagged id
  have hfuture := hsound.ids_future_tagged id
  have hbehind : (history.tagged.past id).length = (history.past id).length := by
    simpa using congrArg List.length hpast
  have hahead : (history.tagged.future id).length = (history.future id).length := by
    simpa using congrArg List.length hfuture
  rw [map_readIn 0, map_readIn (history.past id).length, hbehind, hahead, line, List.drop_zero,
    List.take_left, List.drop_left, List.take_length]
  · rw [hahead, hfuture]
  · rw [line, List.length_append, hahead]
  · rw [hbehind, hpast, List.range_eq_range']
  · rw [line, List.length_append, hbehind]
    omega

/-! ### Calls while an action runs -/

def called (history : History) : Move → History
  | .setLimit limit => (history.setLimit limit).1
  | .activate stack => history.activate stack
  | _ => history

private theorem Sound.called (hsound : history.Sound) (move : Move) : (history.called move).Sound := by
  cases move with
  | setLimit limit => exact hsound.setLimit limit
  | activate stack => exact hsound.activate stack
  | _ => exact hsound

private theorem ReadFrom.called {read : StackId → Command → Command} (hread : ReadFrom read tags history)
    (htags : tags.Sound) (hsound : history.Sound) (move : Move) :
    ReadFrom read (tags.called move) (history.called move) := by
  intro id
  obtain ⟨hpast, hfuture⟩ := Prod.mk.inj (hread id)
  cases move with
  | setLimit limit =>
    have hlists := htags.lists_setLimit limit id
    show (_, _) = (List.map _ ((tags.setLimit limit).1.past id), List.map _ ((tags.setLimit limit).1.future id))
    rw [past_of_lists hlists, future_of_lists hlists, ← Stack.within_map, ← hpast, ← hfuture]
    exact hsound.lists_setLimit limit id
  | activate stack =>
    show (_, _) = (List.map _ ((tags.activate stack).past id), List.map _ ((tags.activate stack).future id))
    rw [past_activate, future_activate, ← hread id]
    exact alike_activate history stack id
  | _ => exact hread id

/-- What is left of a history: the newest commands behind each cursor, and those ahead of it or none. -/
def LeftOf (origin history : History) : Prop :=
  ∀ id, history.past id <:+ origin.past id ∧ (history.future id = origin.future id ∨ history.future id = [])

theorem LeftOf.refl (history : History) : history.LeftOf history := fun _ => ⟨List.suffix_refl _, .inl rfl⟩

private theorem LeftOf.called (hleft : origin.LeftOf history) (hsound : history.Sound) (move : Move) :
    origin.LeftOf (history.called move) := by
  intro id
  obtain ⟨hpast, hfuture⟩ := hleft id
  cases move with
  | setLimit limit =>
    have hlists := hsound.lists_setLimit limit id
    refine ⟨(past_of_lists hlists).symm ▸ (Stack.within_past_suffix ..).trans hpast, ?_⟩
    show (history.setLimit limit).1.future id = _ ∨ (history.setLimit limit).1.future id = _
    rw [future_of_lists hlists]
    rcases Stack.within_future limit (history.past id) (history.future id) with hsame | hnone
    · rw [hsame]
      exact hfuture
    · exact .inr hnone
  | activate stack =>
    show (history.activate stack).past id <:+ _ ∧ _
    exact ⟨(past_activate history stack id).symm ▸ hpast, (future_activate history stack id).symm ▸ hfuture⟩
  | _ => exact ⟨hpast, hfuture⟩

theorem LeftOf.next (hleft : origin.LeftOf history) (direction : Direction) (id : StackId) :
    history.next direction id = origin.next direction id ∨ history.next direction id = none := by
  obtain ⟨⟨dropped, hpast⟩, hfuture⟩ := hleft id
  cases direction with
  | backward =>
    unfold History.next
    dsimp only
    rw [← hpast, List.getLast?_append]
    cases (history.past id).getLast? with
    | none => exact .inr rfl
    | some last => exact .inl rfl
  | forward =>
    rcases hfuture with hsame | hnone
    · exact .inl (congrArg List.head? hsame)
    · exact .inr (congrArg List.head? hnone)

/-- What the calls of a run do to a history and to the copy that keeps the places. -/
structure Traced (history tags origin after : History) : Prop where
  sound : after.Sound
  tagged : origin.Sound
  read : ReadFrom (fun id => readIn (history.line id)) origin after
  left : tags.LeftOf origin

private theorem Sound.traced (hsound : history.Sound) (moves : List Move) :
    Traced history history.tagged (moves.foldl History.called history.tagged) (moves.foldl History.called history) := by
  induction moves using List.reverseRecOn with
  | nil => exact ⟨hsound, hsound.tagged, hsound.readFrom_tagged, .refl _⟩
  | append_singleton moves move ih =>
    rw [List.foldl_append, List.foldl_append]
    exact ⟨ih.sound.called move, ih.tagged.called move, ih.read.called ih.tagged ih.sound move,
      ih.left.called ih.tagged move⟩

/-! ### The place that is passed -/

private theorem ReadFrom.next_eq {read : StackId → Command → Command} (hread : ReadFrom read tags history) :
    history.next direction id = (tags.next direction id).map (read id) := by
  obtain ⟨hpast, hfuture⟩ := Prod.mk.inj (hread id)
  cases direction with
  | backward => rw [next, next, hpast, List.getLast?_map]
  | forward => rw [next, next, hfuture, List.head?_map]

private theorem ReadFrom.line_eq {read : StackId → Command → Command} (hread : ReadFrom read tags history)
    (id : StackId) :
    history.line id = (tags.line id).map (read id) := by
  rw [line_of_lists (hread id), line, List.map_append]

def slotOf (direction : Direction) (applied : Nat) : Nat :=
  match direction with
  | .backward => applied - 1
  | .forward => applied

private theorem Sound.id_of_next_tagged (hsound : history.Sound) {tag : Command}
    (hnext : history.tagged.next direction id = some tag) : tag.id = slotOf direction (history.past id).length := by
  cases direction with
  | backward =>
    obtain ⟨front, hpast⟩ := List.getLast?_eq_some_iff.mp hnext
    have hids := hsound.ids_past_tagged id
    have hlength := congrArg List.length hids
    rw [List.length_map, List.length_range, hpast, List.length_append, List.length_singleton] at hlength
    rw [hpast, ← hlength, List.range_succ, List.map_append] at hids
    have hlast := (List.append_inj' hids rfl).2
    rw [slotOf, ← hlength, Nat.add_sub_cancel]
    exact List.head_eq_of_cons_eq hlast
  | forward =>
    obtain ⟨rest, hfuture⟩ := List.head?_eq_some_iff.mp hnext
    have hids := hsound.ids_future_tagged id
    have hlength := congrArg List.length hids
    rw [List.length_map, List.length_range', hfuture, List.length_cons] at hlength
    rw [hfuture, ← hlength, List.range'_succ, List.map_cons] at hids
    exact List.head_eq_of_cons_eq hids

private theorem Sound.ids_line_tagged (hsound : history.Sound) (id : StackId) :
    (history.tagged.line id).map Command.id = List.range (history.line id).length := by
  rw [line, line, List.map_append, hsound.ids_past_tagged, hsound.ids_future_tagged, List.length_append,
    List.range_eq_range', List.range_eq_range', ← List.range'_append_1, Nat.zero_add]

private theorem LeftOf.line_sublist (hleft : origin.LeftOf history) (id : StackId) :
    (history.line id).Sublist (origin.line id) := by
  obtain ⟨hpast, hfuture⟩ := hleft id
  refine hpast.sublist.append ?_
  rcases hfuture with hsame | hnone
  · rw [hsame]
  · rw [hnone]
    exact List.nil_sublist _

theorem LeftOf.mem_ids_iff (hleft : origin.LeftOf history) (hnodup : ((origin.line id).map Command.id).Nodup)
    {tag : Command} (hnext : origin.next direction id = some tag) :
    tag.id ∈ (history.line id).map Command.id ↔ history.next direction id = some tag := by
  constructor
  · intro hmem
    rcases hleft.next direction id with hsame | hnone
    · exact hsame.trans hnext
    · exfalso
      obtain ⟨other, hother, hid⟩ := List.mem_map.mp hmem
      obtain ⟨hpast, hfuture⟩ := hleft id
      rw [line, List.map_append, List.nodup_append] at hnodup
      cases direction with
      | backward =>
        have hbehind : tag ∈ origin.past id := List.mem_of_getLast? hnext
        rw [line, List.getLast?_eq_none_iff.mp hnone, List.nil_append] at hother
        rcases hfuture with hsame | hempty
        · rw [hsame] at hother
          exact hnodup.2.2 _ (List.mem_map_of_mem hbehind) _ (List.mem_map_of_mem hother) hid.symm
        · rw [hempty] at hother
          cases hother
      | forward =>
        have hahead : tag ∈ origin.future id := List.mem_of_mem_head? hnext
        rw [line, List.head?_eq_none_iff.mp hnone, List.append_nil] at hother
        exact hnodup.2.2 _ (List.mem_map_of_mem (hpast.subset hother)) _ (List.mem_map_of_mem hahead) hid
  · exact fun hsame => List.mem_map_of_mem (mem_line_of_next hsame)

private theorem getElem?_readIn {whole : List Command} {tag : Command} (hplace : tag.id < whole.length) :
    whole[tag.id]? = some (readIn whole tag) := by
  rw [readIn, List.getElem?_eq_getElem hplace, Option.getD_some]

/-- A cursor stands directly before a place after an undo, and directly after it after a redo. -/
def Beside (direction : Direction) (slots : List Nat) (slot cursor : Nat) : Prop :=
  match direction with
  | .backward => slots[cursor]? = some slot
  | .forward => 0 < cursor ∧ slots[cursor - 1]? = some slot

theorem Sound.beside (hsound : history.Sound) {read : StackId → Command → Command} (hread : ReadFrom read tags history)
    {tag command : Command} (hnext : tags.next direction id = some tag) (hcommand : read id tag = command) :
    Beside direction ((tags.line id).map Command.id) tag.id
      ((history.moveCursor id command.id direction).1.past id).length := by
  obtain ⟨hpast, hfuture⟩ := Prod.mk.inj (hread id)
  cases direction with
  | backward =>
    obtain ⟨front, hfront⟩ := List.getLast?_eq_some_iff.mp hnext
    rw [hfront, List.map_append, List.map_singleton, hcommand] at hpast
    rw [past_of_lists (hsound.lists_passed_back hpast), List.length_map, Beside, line, hfront]
    simp
  | forward =>
    obtain ⟨rest, hrest⟩ := List.head?_eq_some_iff.mp hnext
    rw [hrest, List.map_cons, hcommand] at hfuture
    rw [past_of_lists (hsound.lists_passed_forth hfuture), hpast, Beside, line, hrest]
    simp

end History

namespace Engine

variable {engine : Engine} {run : Run} {during : List Move}

open History

/-! ### The run of an action -/

/-- The places of a stack's line that are left after some moves. -/
def slotsAfter (engine : Engine) (moves : List Move) (id : StackId) : List Nat :=
  (({ engine with history := engine.history.tagged }.applyAll moves).history.line id).map Command.id

/-- What may happen while an action runs, short of a clear. -/
def IsMeanwhile (move : Move) : Prop := move ≠ .clear ∧ ∀ outcome, move ≠ .finish outcome

private theorem apply_meanwhile {move : Move} (hphase : engine.phase = .acting run) (hmove : IsMeanwhile move) :
    (engine.apply move).phase = .acting run ∧ (engine.apply move).generation = engine.generation ∧
      (engine.apply move).history = engine.history.called move := by
  cases move with
  | submit request =>
    obtain ⟨waiting, queue, nextTicket, running, hsubmit⟩ := exists_submit_eq engine request
    show (engine.submit request).2.phase = _ ∧ (engine.submit request).2.generation = _ ∧
      (engine.submit request).2.history = _
    rw [hsubmit]
    exact ⟨hphase, rfl, rfl⟩
  | clear => exact absurd rfl hmove.1
  | route scope stack =>
    obtain ⟨routes, hroute⟩ := exists_route_eq engine scope stack
    show (engine.route scope stack).2.phase = _ ∧ (engine.route scope stack).2.generation = _ ∧
      (engine.route scope stack).2.history = _
    rw [hroute]
    exact ⟨hphase, rfl, rfl⟩
  | advance =>
    show engine.advance.phase = _ ∧ engine.advance.generation = _ ∧ engine.advance.history = _
    simp only [advance, hphase]
    exact ⟨trivial, trivial, rfl⟩
  | report number event =>
    obtain ⟨hhistory, hstill⟩ := report_frame engine number event
    exact ⟨hstill.trans hphase, (framed_report engine number event).generation, hhistory⟩
  | finish outcome => exact absurd rfl (hmove.2 outcome)
  | _ => exact ⟨hphase, rfl, rfl⟩

theorem applyAll_meanwhile (hphase : engine.phase = .acting run) (hduring : ∀ move ∈ during, IsMeanwhile move) :
    (engine.applyAll during).phase = .acting run ∧ (engine.applyAll during).generation = engine.generation ∧
      (engine.applyAll during).history = during.foldl History.called engine.history := by
  induction during generalizing engine with
  | nil => exact ⟨hphase, rfl, rfl⟩
  | cons move during ih =>
    obtain ⟨hstill, hsame, hhistory⟩ := apply_meanwhile hphase (hduring move List.mem_cons_self)
    obtain ⟨hacting, hgeneration, hrest⟩ := ih hstill fun later hlater => hduring later (List.mem_cons_of_mem _ hlater)
    exact ⟨hacting, hgeneration.trans hsame, by rw [applyAll_cons, hrest, hhistory, List.foldl_cons]⟩

private theorem slotsAfter_eq (hphase : engine.phase = .acting run) (hduring : ∀ move ∈ during, IsMeanwhile move)
    (id : StackId) :
    engine.slotsAfter during id = ((during.foldl History.called engine.history.tagged).line id).map Command.id := by
  have hacting : ({ engine with history := engine.history.tagged } : Engine).phase = .acting run := hphase
  obtain ⟨-, -, hcopy⟩ := applyAll_meanwhile hacting hduring
  rw [slotsAfter, hcopy]

private theorem next_of_started (hreachable : engine.Reachable) (hready : engine.phase.run? = none)
    (hstarted : engine.advance.phase = .acting run) (hmove : run.step.operation ≠ .execute) :
    engine.history.next run.step.operation.direction run.step.stack = some run.step.command := by
  have hchange := hreachable.steady.change_apply .advance
  rcases hchange.started (show _ = some run by rw [show (engine.apply .advance).phase = _ from hstarted]; rfl) with
    hsame | ⟨-, horigin⟩
  · rw [hready] at hsame
    cases hsame
  · cases horigin with
    | submitted hexecute => exact absurd hexecute hmove
    | recorded _ _ hnext => exact hnext

private theorem history_finish_of_move (hphase : engine.phase = .acting run)
    (hcurrent : engine.generation = run.job.generation) (hmove : run.step.operation ≠ .execute) {outcome : Outcome}
    (hsucceeded : Outcome.succeeded (outcome.settle run.step.command.text) = true) :
    (engine.finish outcome).history =
      (engine.history.moveCursor run.step.stack run.step.command.id run.step.operation.direction).1 := by
  rw [(finish_of_acting hphase outcome).2.1, if_pos hsucceeded, takeEffect_of_move hcurrent hmove]

/-- **The cursor ends beside the place that was passed**, wherever limits have moved it. Take the start of an undo or a
redo, any calls except a clear while its action runs, and its success. The places of the line that the calls have left
are known from a copy of the history. If the place of the command that runs is among them, the cursor stands directly
before it after an undo and directly after it after a redo, and no stack gains or loses a command. If the place is gone,
all stacks stay exactly as the calls have left them. The same command may stand at several places. -/
theorem cursor_beside_slot (hreachable : engine.Reachable) (hready : engine.phase.run? = none)
    (hstarted : engine.advance.phase = .acting run) (hmove : run.step.operation ≠ .execute)
    (hduring : ∀ move ∈ during, IsMeanwhile move) {outcome : Outcome}
    (hsucceeded : Outcome.succeeded (outcome.settle run.step.command.text) = true) :
    let id := run.step.stack
    let whole := engine.history.line id
    let slot := slotOf run.step.operation.direction (engine.history.past id).length
    let slots := engine.advance.slotsAfter during id
    let trimmed := (engine.advance.applyAll during).history
    let ended := ((engine.advance.applyAll during).finish outcome).history
    whole[slot]? = some run.step.command ∧
      (trimmed.line id).map some = slots.map (whole[·]?) ∧ slots.Pairwise (· < ·) ∧
      (slot ∈ slots →
        Beside run.step.operation.direction slots slot (ended.past id).length ∧
          (∀ name, ended.line name = trimmed.line name) ∧ ∀ name, name ≠ id → ended.past name = trimmed.past name) ∧
      (slot ∉ slots → trimmed.Alike ended) := by
  intro id whole slot slots trimmed ended
  have hsound := hreachable.steady.sound
  have hkept := history_advance hreachable.steady
  have hnext := next_of_started hreachable hready hstarted hmove
  obtain ⟨hacting, hgeneration, htrimmed⟩ := applyAll_meanwhile hstarted hduring
  have hslots : slots = _ := slotsAfter_eq hstarted hduring id
  rw [hkept] at htrimmed hslots
  obtain ⟨hafter, -, hread, hleft⟩ := hsound.traced during
  rw [← htrimmed] at hafter hread
  generalize during.foldl History.called engine.history.tagged = copy at hslots hread hleft
  -- The command that runs has its place for a number in the copy.
  obtain ⟨tag, htag, hcommand⟩ : ∃ tag, engine.history.tagged.next run.step.operation.direction id = some tag ∧
      readIn whole tag = run.step.command := by
    rw [hsound.readFrom_tagged.next_eq] at hnext
    exact Option.map_eq_some_iff.mp hnext
  have hslot : tag.id = slot := hsound.id_of_next_tagged htag
  have hids := hsound.ids_line_tagged id
  have hplace : ∀ {other}, other ∈ engine.history.tagged.line id → other.id < whole.length := by
    intro other hother
    have hmem := List.mem_map_of_mem (f := Command.id) hother
    rw [hids] at hmem
    exact List.mem_range.mp hmem
  have hcurrent : engine.advance.generation = run.job.generation := by
    have hjob : engine.advance.phase.job? = some run.job := by rw [hstarted]; rfl
    rcases (hreachable.applyAll [.advance]).current hjob with hcurrent | hempty
    · exact hcurrent.symm
    · have hmem := mem_line_of_next hnext
      rw [← hkept, show engine.advance.history.line run.step.stack = [] from hempty _] at hmem
      cases hmem
  have hended : ended = (trimmed.moveCursor id run.step.command.id run.step.operation.direction).1 :=
    history_finish_of_move hacting (hgeneration.trans hcurrent) hmove hsucceeded
  have hmem := hleft.mem_ids_iff (hids ▸ List.nodup_range) htag
  rw [hslot, ← hslots] at hmem
  refine ⟨?_, ?_, ?_, ?_, ?_⟩
  · rw [← hslot, getElem?_readIn (hplace (mem_line_of_next htag)), hcommand]
  · rw [hread.line_eq id, List.map_map, hslots, List.map_map]
    exact List.map_congr_left fun other hother =>
      (getElem?_readIn (hplace ((hleft.line_sublist id).subset hother))).symm
  · have hincreasing : ((engine.history.tagged.line id).map Command.id).Pairwise (· < ·) :=
      hids ▸ List.pairwise_lt_range
    exact hslots ▸ hincreasing.sublist ((hleft.line_sublist id).map Command.id)
  · intro hthere
    have hbeside := hafter.beside hread (hmem.mp hthere) hcommand
    rw [hslot, ← hslots] at hbeside
    rw [hended]
    exact ⟨hbeside, hafter.line_moveCursor id run.step.command.id run.step.operation.direction,
      fun name hname => past_of_lists (lists_moveCursor_of_ne _ _ _ hname)⟩
  · intro hgone
    -- A place that is gone leaves no next command at all, so that a move by number finds none.
    have hnone : trimmed.next run.step.operation.direction id = none := by
      rw [hread.next_eq]
      rcases hleft.next run.step.operation.direction id with hsame | hnone
      · exact absurd (hmem.mpr (hsame.trans htag)) hgone
      · rw [hnone]
        rfl
    have hrefused : trimmed.isNextTo id run.step.command.id run.step.operation.direction = false := by
      rw [Bool.eq_false_iff, ne_eq, hafter.isNextTo_iff, hnone]
      simp
    rw [hended, moveCursor_of_not_next hrefused]
    exact fun _ => rfl

/-- One command is executed three times and undone once, and the worker has taken another undo. -/
def twins : List Move :=
  executed [0, 0, 0] ++ underway (.undo none) ++ [success, .submit (.undo none), .advance]

def twinRun : Run := ⟨4, ⟨5, 0, .undo none⟩, none, ⟨sampleCommand 0, sampleStack, .undo⟩, .reversed⟩

/-- A limit drops the first place meanwhile, and the cursor ends before the second. -/
theorem cursor_beside_slot_twins :
    (sampleEngine.applyAll twins).advance.slotsAfter [.setLimit 2] sampleStack = [1, 2] ∧
      Beside .backward [1, 2] 1
        ((((sampleEngine.applyAll twins).advance.applyAll [.setLimit 2, success]).history.past sampleStack).length) := by
  have hslots : (sampleEngine.applyAll twins).advance.slotsAfter [.setLimit 2] sampleStack = [1, 2] := by decide
  have hmeanwhile : ∀ move ∈ [Move.setLimit 2], IsMeanwhile move := by
    intro move hmove
    rw [List.mem_singleton.mp hmove]
    exact ⟨nofun, nofun⟩
  have hstarted : (sampleEngine.applyAll twins).advance.phase = .acting twinRun := by decide
  have hsucceeded : Outcome.succeeded ((Outcome.returned (.ok .null)).settle "") = true := rfl
  obtain ⟨-, -, -, hthere, -⟩ := cursor_beside_slot ⟨sampleEngine, twins, sampleEngine_fresh, rfl⟩ (by decide) hstarted
    (by decide) hmeanwhile hsucceeded
  obtain ⟨hbeside, -, -⟩ := hthere (hslots.symm ▸ List.mem_cons_self)
  exact ⟨hslots, hslots ▸ hbeside⟩

end Engine

end Retrace
