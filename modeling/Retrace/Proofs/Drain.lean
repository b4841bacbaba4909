import Mathlib.Algebra.GroupWithZero.Nat
import Retrace.Proofs.Overtaking
import Retrace.Proofs.Revision

/-!
# Accepted jobs are answered

Whatever else happens to an engine, its accepted jobs are answered once the worker has made enough steps. What is
submitted later does not hold them up (`Ahead`), and neither does any other call: `load` bounds the steps that the jobs
still take, every step lowers it and no call raises it.
-/

namespace Retrace

/-! ### How much there is on the stacks -/

namespace History

variable {history after : History} {walk : Walk}

def extent (history : History) : Nat := (history.stackList.map Stack.count).sum

theorem extent_withStack (history : History) (id : StackId) : (history.withStack id).extent = history.extent := by
  unfold withStack
  split
  · rfl
  · simp [extent, Stack.empty, Stack.count]

theorem extent_modify_le (hkeyed : (history.stackList.map Stack.id).Nodup) (id : StackId) {change : Stack → Stack}
    {more : Nat} (hmore : ∀ stack, (change stack).count ≤ stack.count + more) :
    (history.modify id change).extent ≤ history.extent + more := by
  unfold extent modify
  dsimp only
  generalize history.stackList = listed at hkeyed ⊢
  induction listed with
  | nil => exact Nat.zero_le _
  | cons first rest ih =>
    rw [List.map_cons, List.nodup_cons] at hkeyed
    rw [List.map_cons, List.map_cons, List.map_cons, List.sum_cons, List.sum_cons]
    split_ifs with hid
    · have hrest : rest.map (fun stack => if stack.id = id then change stack else stack) = rest.map fun stack => stack := by
        refine List.map_congr_left fun stack hmem => if_neg fun hsame => hkeyed.1 ?_
        rw [hid, ← hsame]
        exact List.mem_map_of_mem hmem
      have hfirst := hmore first
      rw [hrest, List.map_id']
      omega
    · have hrest := ih hkeyed.2
      omega

private theorem count_record_le (stack : Stack) (command : Command) (limit sequence : Nat) :
    (((stack.push command).trim limit).1.touch sequence).count ≤ stack.count + 1 := by
  have hpushed : (stack.push command).count = stack.appliedCommands.length + 1 := by simp [Stack.count, Stack.push]
  have hkept : stack.appliedCommands.length ≤ stack.count := List.length_take_le' ..
  have hfull : (stack.push command).applied ≤ (stack.push command).count := hpushed.ge
  have htrimmed := Stack.count_trim hfull limit
  show ((stack.push command).trim limit).1.count ≤ stack.count + 1
  omega

private theorem extent_record_le (hsound : history.Sound) (id : StackId) (command : Command) :
    (history.record id command).extent ≤ history.extent + 1 := by
  have hless := extent_modify_le (hsound.withStack id).keyed id
    fun stack => count_record_le stack command history.limit (history.sequence + 1)
  rw [extent_withStack] at hless
  exact hless

private theorem count_moved (direction : Direction) (stack : Stack) :
    (moved direction stack).count = stack.count := by
  cases direction with
  | forward =>
    unfold moved Stack.stepForward
    dsimp only
    split_ifs <;> rfl
  | backward =>
    unfold moved Stack.stepBackward
    dsimp only
    split_ifs <;> rfl

private theorem extent_moveCursor_le (hsound : history.Sound) (id : StackId) (command : CommandId)
    (direction : Direction) : (history.moveCursor id command direction).1.extent ≤ history.extent := by
  unfold History.moveCursor
  dsimp only
  split_ifs
  · have hsame : ∀ stack, ((moved direction stack).touch (history.sequence + 1)).count ≤ stack.count + 0 :=
      fun stack => (count_moved direction stack).le
    exact extent_modify_le hsound.keyed id hsame
  · exact Nat.le_refl _

private theorem extent_clear (history : History) : history.clear.extent = 0 := by
  have hnone : Stack.count ∘ Stack.clear = fun _ => 0 := rfl
  rw [extent, clear, List.map_map, hnone]
  simp

private theorem extent_setLimit (hsound : history.Sound) (limit : Nat) :
    (history.setLimit limit).1.extent + (history.setLimit limit).2 = history.extent := by
  have hcursors := hsound.cursors
  unfold extent setLimit
  dsimp only
  generalize history.stackList = listed at hcursors ⊢
  induction listed with
  | nil => rfl
  | cons first rest ih =>
    obtain ⟨hfirst, hrest⟩ := List.forall_mem_cons.mp hcursors
    have htrimmed := Stack.count_trim hfirst limit
    have hsum := ih hrest
    simp only [List.map_cons, List.sum_cons, List.foldr_cons] at hsum ⊢
    omega

/-! ### The ways of jumps -/

private theorem Alike.gap_eq (halike : history.Alike after) (walk : Walk) : after.gap walk = history.gap walk := by
  unfold gap
  rw [past_of_lists (halike walk.stack), future_of_lists (halike walk.stack)]

theorem Alike.next_eq (halike : history.Alike after) (direction : Direction) (id : StackId) :
    after.next direction id = history.next direction id :=
  next_of_lists (halike id) direction

theorem Alike.moveCursor (halike : history.Alike after) (hsound : history.Sound) (hafter : after.Sound) (id : StackId)
    (command : CommandId) (direction : Direction) :
    (history.moveCursor id command direction).1.Alike (after.moveCursor id command direction).1 := by
  intro name
  by_cases hname : name = id
  · subst hname
    exact hsound.lists_moveCursor_congr (halike name) hafter command direction
  · rw [lists_moveCursor_of_ne after command direction hname, lists_moveCursor_of_ne history command direction hname]
    exact halike name

private theorem gap_clear (history : History) (walk : Walk) : history.clear.gap walk = 0 := by
  unfold gap
  rw [past_clear, future_clear]
  split_ifs <;> simp

end History

namespace Engine

variable {engine after core : Engine} {move : Move} {job : Job} {run : Run} {walk : Walk} {room jobs : Nat}

/-! ### The measure -/

private theorem gap_takeEffect_le (hsound : engine.history.Sound) (hroomy : engine.Roomy room)
    (hjob : engine.phase.job? = some job) (run : Run) (walk : Walk) : (engine.takeEffect run).1.gap walk ≤ room := by
  have hgap := (engine.takeEffect run).1.gap_le walk
  have hlength := length_line_takeEffect_le hsound run walk.stack
  have hroom := hroomy walk.stack
  rw [unanswered_of_job hjob, List.length_cons] at hroom
  split_ifs at hlength <;> omega

private theorem turnsIn_le (hsound : engine.history.Sound) (hroomy : engine.Roomy room)
    (hjob : engine.phase.job? = some job) : engine.turnsIn room engine.phase ≤ 3 * room + 4 := by
  have hgap : ∀ walk, engine.history.gap walk ≤ room := by
    intro walk
    have hless := engine.history.gap_le walk
    have hroom := hroomy walk.stack
    omega
  cases hphase : engine.phase with
  | idle => exact Nat.zero_le _
  | choosing job way =>
    cases way with
    | none => exact Nat.le_succ _
    | some walk =>
      have hless := hgap walk
      simp only [turnsIn]
      omega
  | acting run =>
    simp only [turnsIn]
    split
    · omega
    · next walk hwalk =>
      have hless := gap_takeEffect_le hsound hroomy hjob run walk
      split_ifs <;> omega
  | resting job walk =>
    have hless := hgap walk
    simp only [turnsIn]
    split_ifs <;> omega

private theorem turnsLeft_le (hsound : engine.history.Sound) (hroomy : engine.Roomy room) :
    engine.turnsLeft room ≤ engine.unanswered.length * (3 * room + 4) := by
  unfold turnsLeft
  cases hjob : engine.phase.job? with
  | none =>
    have hidle : engine.phase = .idle := by
      cases hphase : engine.phase with
      | idle => rfl
      | _ => simp [hphase, Phase.job?] at hjob
    rw [hidle, turnsIn_idle, unanswered_of_idle hidle, Nat.zero_add]
  | some job =>
    have hless := turnsIn_le hsound hroomy hjob
    rw [unanswered_of_job hjob, List.length_cons, Nat.add_mul, Nat.one_mul]
    omega

/-- How many steps of the worker there are at most, whatever calls are made, while no stack gets longer than `room`
and there are no more than `jobs` jobs: a call may lengthen the way of a jump, but only by taking commands away. -/
def load (room jobs : Nat) (engine : Engine) : Nat :=
  (engine.history.extent + engine.unanswered.length) * (jobs * (3 * room + 4) + 1) + engine.turnsLeft room

structure Bounded (room jobs : Nat) (engine : Engine) : Prop where
  roomy : engine.Roomy room
  few : engine.unanswered.length ≤ jobs

/-- A move that does not raise the measure. -/
structure Eases (room jobs : Nat) (engine after : Engine) : Prop where
  bounded : after.Bounded room jobs
  load_le : after.load room jobs ≤ engine.load room jobs

/-! ### Calls do not raise it -/

section Calls

variable (hbounded : engine.Bounded room jobs)

include hbounded

/-- A call that makes no stack longer and no way longer. -/
theorem eases_of_turnsIn (hphase : after.phase = engine.phase) (hqueue : after.queue = engine.queue)
    (hline : ∀ id, (after.history.line id).length ≤ (engine.history.line id).length)
    (hextent : after.history.extent ≤ engine.history.extent)
    (hturns : after.turnsIn room engine.phase ≤ engine.turnsIn room engine.phase) : Eases room jobs engine after := by
  have hunanswered : after.unanswered = engine.unanswered := by rw [unanswered, unanswered, hphase, hqueue]
  refine ⟨⟨hbounded.roomy.mono hline (by rw [hunanswered]), hunanswered ▸ hbounded.few⟩, ?_⟩
  unfold load turnsLeft
  rw [hphase, hqueue, hunanswered]
  have hstock := Nat.mul_le_mul_right (jobs * (3 * room + 4) + 1) (Nat.add_le_add_right hextent engine.unanswered.length)
  omega

private theorem eases_of_history (hphase : after.phase = engine.phase) (hqueue : after.queue = engine.queue)
    (hhistory : after.history = engine.history) (hgeneration : after.generation = engine.generation) :
    Eases room jobs engine after :=
  eases_of_turnsIn hbounded hphase hqueue (fun id => by rw [hhistory]) (by rw [hhistory])
    (turnsIn_congr hhistory hgeneration room engine.phase).le

/-- A call after which the stacks have the same commands on the same sides of their cursors. -/
theorem eases_of_alike (hworking : engine.Working) (hafter : after.history.Sound) (hphase : after.phase = engine.phase)
    (hqueue : after.queue = engine.queue) (hgeneration : after.generation = engine.generation)
    (halike : engine.history.Alike after.history) (hextent : after.history.extent = engine.history.extent) :
    Eases room jobs engine after := by
  have hline : ∀ id, after.history.line id = engine.history.line id := by
    intro id
    rw [History.line_of_lists (halike id), History.line]
  refine eases_of_turnsIn hbounded hphase hqueue (fun id => (congrArg _ (hline id)).le) hextent.le (le_of_eq ?_)
  cases hacting : engine.phase with
  | idle => rfl
  | choosing job way => cases way <;> simp [turnsIn, halike.gap_eq]
  | acting run =>
    simp only [turnsIn]
    split
    · rfl
    · next walk hwalk =>
      have hmove : run.step.operation ≠ .execute := by
        intro hexecute
        have hnone := hworking.single run (by rw [hacting]; rfl) hexecute
        rw [hwalk] at hnone
        cases hnone
      rw [hgeneration]
      split_ifs with hcurrent
      · rw [takeEffect_of_move (hgeneration.trans hcurrent.symm) hmove, takeEffect_of_move hcurrent.symm hmove]
        have hmoved := halike.moveCursor hworking.sound hafter run.step.stack run.step.command.id run.step.operation.direction
        rw [History.Alike.gap_eq hmoved]
      · rfl
  | resting job walk => simp only [turnsIn, hgeneration, halike.gap_eq]

private theorem eases_clear (hnumbered : engine.Numbered) : Eases room jobs engine engine.clear := by
  refine eases_of_turnsIn hbounded rfl rfl (fun id => ?_) ?_ ?_
  · have hnone : engine.clear.history.line id = [] := History.line_clear engine.history id
    rw [hnone]
    exact Nat.zero_le _
  · have hnone : engine.clear.history.extent = 0 := History.extent_clear engine.history
    rw [hnone]
    exact Nat.zero_le _
  · -- the jobs at hand are now older than the last clear
    have hgap : ∀ walk, engine.clear.history.gap walk = 0 := History.gap_clear engine.history
    have hstale : ∀ job, engine.phase.job? = some job → job.generation ≠ engine.clear.generation := by
      intro job hjob
      have hdated := hnumbered.dated job (mem_unanswered_of_job hjob)
      exact (Nat.lt_succ_of_le hdated).ne
    cases hphase : engine.phase with
    | idle => exact Nat.le_refl _
    | choosing job way => cases way <;> simp [turnsIn, hgap]
    | acting run =>
      simp only [turnsIn]
      split
      · exact Nat.le_refl _
      · rw [if_neg (hstale run.job (by rw [hphase]; rfl))]
        split_ifs <;> omega
    | resting job walk =>
      simp only [turnsIn, if_neg (hstale job (by rw [hphase]; rfl))]
      split_ifs <;> omega

private theorem eases_setLimit (hworking : engine.Working) (limit : Nat) :
    Eases room jobs engine (engine.setLimit limit) := by
  have hextent := History.extent_setLimit hworking.sound limit
  have hsound := hworking.sound.setLimit limit
  by_cases hnone : (engine.history.setLimit limit).2 = 0
  · refine eases_of_alike hbounded hworking hsound rfl rfl rfl (fun id => ?_) ?_
    · show ((engine.history.setLimit limit).1.past id, (engine.history.setLimit limit).1.future id) = _
      rw [History.setLimit_of_none hnone]
      rfl
    · show (engine.history.setLimit limit).1.extent = _
      omega
  · -- What goes from the stacks makes up for any way that gets longer.
    have hbounded' : (engine.setLimit limit).Bounded room jobs := by
      refine ⟨hbounded.roomy.mono (fun id => ?_) (Nat.le_refl _), hbounded.few⟩
      show ((engine.history.setLimit limit).1.line id).length ≤ _
      rw [History.line_of_lists (hworking.sound.lists_setLimit limit id)]
      exact (Stack.within_sublist ..).length_le
    refine ⟨hbounded', ?_⟩
    have hturns := turnsLeft_le hsound hbounded'.roomy
    have hfew := Nat.mul_le_mul_right (3 * room + 4) hbounded'.few
    have hless : (engine.setLimit limit).history.extent + (engine.setLimit limit).unanswered.length + 1 ≤
        engine.history.extent + engine.unanswered.length := by
      have hsame : (engine.setLimit limit).unanswered = engine.unanswered := rfl
      have hafter : (engine.setLimit limit).history.extent = (engine.history.setLimit limit).1.extent := rfl
      rw [hsame, hafter]
      omega
    have hstock := Nat.mul_le_mul_right (jobs * (3 * room + 4) + 1) hless
    rw [Nat.add_mul, Nat.one_mul] at hstock
    unfold load
    omega

private theorem eases_activate (hworking : engine.Working) (stack : Option StackId) :
    Eases room jobs engine (engine.activate stack) :=
  eases_of_alike hbounded hworking (hworking.sound.activate stack) rfl rfl rfl (History.alike_activate engine.history stack)
    (History.extent_withStack engine.history _)

end Calls

/-! ### Steps of the worker lower it -/

/-- Whether a move is a step of the worker: the end of the action that runs, or whatever it does when none runs. -/
def isTurn (engine : Engine) (move : Move) : Bool :=
  match engine.phase.run?, move with
  | none, .advance => true
  | some _, .finish _ => true
  | _, _ => false

def effort (engine : Engine) : List Move → Nat
  | [] => 0
  | move :: moves => (if engine.isTurn move then 1 else 0) + effort (engine.apply move) moves

theorem isTurn_iff : engine.isTurn move = true ↔
    (engine.phase.run? = none ∧ move = .advance) ∨ ∃ run outcome, engine.phase = .acting run ∧ move = .finish outcome := by
  unfold isTurn
  constructor
  · intro hturn
    split at hturn
    · next hnone => exact .inl ⟨hnone, rfl⟩
    · next run outcome hrun => exact .inr ⟨run, outcome, phase_of_run? hrun, rfl⟩
    · cases hturn
  · rintro (⟨hnone, rfl⟩ | ⟨run, outcome, hphase, rfl⟩)
    · rw [hnone]
    · rw [hphase]
      rfl

theorem descends_apply (hworking : engine.Working) (hroomy : engine.Roomy room) (hbusy : engine.isSettled = false)
    (hturn : engine.isTurn move = true) : Descends room engine (engine.apply move) := by
  rcases isTurn_iff.mp hturn with ⟨hnone, rfl⟩ | ⟨run, outcome, hphase, rfl⟩
  · have hdescends := Host.descends_turn ⟨fun _ _ => ⟨(), [], .brokeOff none⟩⟩ hworking hroomy hbusy ()
    rw [Host.turn_of_no_run hnone] at hdescends
    exact hdescends
  · have hdescends := Host.descends_turn ⟨fun _ _ => ⟨(), [], outcome⟩⟩ hworking hroomy hbusy ()
    unfold Host.turn at hdescends
    rw [hphase] at hdescends
    exact hdescends

private theorem extent_takeEffect_le (hsound : engine.history.Sound) (run : Run) :
    (engine.takeEffect run).1.extent ≤ engine.history.extent + if run.step.operation = .execute then 1 else 0 := by
  by_cases hcurrent : engine.generation = run.job.generation
  · by_cases hexecute : run.step.operation = .execute
    · rw [takeEffect_of_execute hcurrent hexecute, if_pos hexecute]
      split_ifs
      · exact Nat.le_succ _
      · exact History.extent_record_le hsound _ _
    · rw [takeEffect_of_move hcurrent hexecute]
      exact (History.extent_moveCursor_le hsound _ _ _).trans (Nat.le_add_right ..)
  · rw [takeEffect_of_stale hcurrent]
    exact Nat.le_add_right ..

theorem stock_le (hworking : engine.Working) (hturn : engine.isTurn move = true) :
    (engine.apply move).history.extent + (engine.apply move).unanswered.length ≤
      engine.history.extent + engine.unanswered.length := by
  rcases isTurn_iff.mp hturn with ⟨hnone, rfl⟩ | ⟨run, outcome, hphase, rfl⟩
  · have hless := (engine.passage_apply .advance).unanswered_suffix nofun
    have hhistory : (engine.apply .advance).history = engine.history := history_advance hworking.toSteady
    rw [hhistory]
    exact Nat.add_le_add_left hless.length_le _
  · have hless := ((engine.passage_apply (.finish outcome)).unanswered_suffix nofun).length_le
    have hextent := extent_takeEffect_le hworking.sound run
    obtain ⟨-, hhistory, hover⟩ := finish_of_acting hphase outcome
    show (engine.finish outcome).history.extent + _ ≤ _
    rw [hhistory]
    by_cases hsucceeded : Outcome.succeeded (outcome.settle run.step.command.text) = true
    swap
    · rw [if_neg hsucceeded]
      exact Nat.add_le_add_left hless _
    rw [if_pos hsucceeded]
    by_cases hexecute : run.step.operation = .execute
    swap
    · rw [if_neg hexecute] at hextent
      exact Nat.add_le_add hextent hless
    -- an execution is over with its action
    rw [if_pos hexecute] at hextent
    have hwalk := hworking.single run (by rw [hphase]; rfl) hexecute
    have hidle : (engine.finish outcome).phase = .idle := by
      refine hover.resolve_right ?_
      rintro ⟨walk, hsome, -⟩
      rw [hwalk] at hsome
      cases hsome
    have hjob : engine.phase.job? = some run.job := by rw [hphase]; rfl
    have hafter : (engine.apply (.finish outcome)).unanswered = engine.queue :=
      (unanswered_of_idle hidle).trans (framed_finish hphase outcome).queue
    rw [hafter, unanswered_of_job hjob, List.length_cons]
    omega

private theorem load_turn_lt (hworking : engine.Working) (hbounded : engine.Bounded room jobs)
    (hbusy : engine.isSettled = false) (hturn : engine.isTurn move = true) :
    (engine.apply move).Bounded room jobs ∧ (engine.apply move).load room jobs < engine.load room jobs := by
  have hdescends := descends_apply hworking hbounded.roomy hbusy hturn
  have hless := (engine.passage_apply move).unanswered_suffix fun request hmove => by
    rcases isTurn_iff.mp hturn with ⟨-, rfl⟩ | ⟨run, outcome, -, rfl⟩ <;> cases hmove
  refine ⟨⟨hdescends.roomy, hless.length_le.trans hbounded.few⟩, ?_⟩
  exact Nat.add_lt_add_of_le_of_lt (Nat.mul_le_mul_right _ (stock_le hworking hturn)) hdescends.less

theorem eases_apply (hworking : engine.Working) (hnumbered : engine.Numbered) (hbounded : engine.Bounded room jobs)
    (hmove : ∀ request, move ≠ .submit request) (hturn : engine.isTurn move = false) :
    Eases room jobs engine (engine.apply move) := by
  cases move with
  | submit request => exact absurd rfl (hmove request)
  | clear => exact eases_clear hbounded hnumbered
  | setLimit limit => exact eases_setLimit hbounded hworking limit
  | activate stack => exact eases_activate hbounded hworking stack
  | route scope stack =>
    obtain ⟨routes, hroute⟩ := exists_route_eq engine scope stack
    show Eases room jobs engine (engine.route scope stack).2
    rw [hroute]
    exact eases_of_history hbounded rfl rfl rfl rfl
  | shutDown => exact eases_of_history hbounded rfl rfl rfl rfl
  | advance =>
    have hsame : engine.apply .advance = engine := by
      cases hphase : engine.phase with
      | acting run =>
        show engine.advance = engine
        simp only [advance, hphase]
      | _ => simp [isTurn, hphase, Phase.run?] at hturn
    rw [hsame]
    exact ⟨hbounded, Nat.le_refl _⟩
  | report number event =>
    have hframed := framed_report engine number event
    obtain ⟨hhistory, hphase⟩ := report_frame engine number event
    exact eases_of_history hbounded hphase hframed.queue hhistory hframed.generation
  | finish outcome =>
    have hsame : engine.apply (.finish outcome) = engine := by
      cases hphase : engine.phase with
      | acting run => simp [isTurn, hphase, Phase.run?] at hturn
      | _ =>
        show engine.finish outcome = engine
        simp only [finish, hphase]
    rw [hsame]
    exact ⟨hbounded, Nat.le_refl _⟩

/-! ### What is submitted later waits -/

/-- The engine that has only the jobs of an earlier moment, and what has been added to it by later submissions. -/
structure Ahead (core engine : Engine) (arrival : Arrival) : Prop where
  eq : engine = core.receive arrival
  number : core.nextTicket ≤ arrival.number
  entries : ∀ entry ∈ arrival.entries, core.nextTicket ≤ entry.ticket

theorem Ahead.refl (core : Engine) : core.Ahead core ⟨core.nextTicket, [], []⟩ where
  eq := by simp [receive]
  number := Nat.le_refl _
  entries := nofun

private theorem number_arrivalOf (engine : Engine) (request : Request) :
    engine.nextTicket ≤ (engine.arrivalOf request).number := by
  unfold arrivalOf
  split_ifs
  · split
    · exact Nat.le_succ _
    · exact Nat.le_succ _
  · exact Nat.le_refl _

private theorem Ahead.submit {arrival : Arrival} (hahead : core.Ahead engine arrival)
    (hlistening : core.isListening = true) (request : Request) : ∃ more, core.Ahead (engine.submit request).2 more := by
  have hticket : engine.nextTicket = arrival.number := by rw [hahead.eq]; rfl
  have hnumber := hticket ▸ number_arrivalOf engine request
  have hfresh := fun entry hentry => hticket ▸ @ticket_of_mem_entries engine request entry hentry
  have hsubmit := submit_eq (show engine.isListening = true by rw [hahead.eq]; exact hlistening) request
  rw [hsubmit]
  generalize engine.arrivalOf request = added at hnumber hfresh ⊢
  refine ⟨⟨added.number, arrival.jobs ++ added.jobs, arrival.entries ++ added.entries⟩, ?_, ?_, ?_⟩
  · rw [hahead.eq]
    simp [receive, Nat.add_assoc]
  · exact hahead.number.trans hnumber
  · intro entry hentry
    rcases List.mem_append.mp hentry with hold | hnew
    · exact hahead.entries entry hold
    · rw [hfresh entry hnew]
      exact hahead.number

/-- The next move of a busy worker, or any call, does the same to the engine with later submissions as to the one
without. -/
theorem Ahead.apply {arrival : Arrival} (hahead : core.Ahead engine arrival) (hnumbered : core.Numbered)
    (hbusy : core.isSettled = false) (hmove : ∀ request, move ≠ .submit request) :
    ∃ more, (core.apply move).Ahead (engine.apply move) more := by
  have hsame : (engine.apply move) = (core.apply move).receive arrival → (core.apply move).nextTicket = core.nextTicket →
      ∃ more, (core.apply move).Ahead (engine.apply move) more :=
    fun heq hticket => ⟨arrival, heq, hticket ▸ hahead.number, hticket ▸ hahead.entries⟩
  obtain ⟨rfl, hnumber, hentries⟩ := hahead
  cases move with
  | submit request => exact absurd rfl (hmove request)
  | clear => exact ⟨{ arrival with entries := [] }, rfl, hnumber, nofun⟩
  | setLimit limit => exact hsame rfl rfl
  | activate stack => exact hsame rfl rfl
  | route scope stack =>
    have hroute : ((core.receive arrival).route scope stack).2 = (core.route scope stack).2.receive arrival ∧
        (core.route scope stack).2.nextTicket = core.nextTicket := by
      unfold route
      have hregistry : (core.receive arrival).registry = core.registry := rfl
      rw [hregistry]
      split
      · exact ⟨rfl, rfl⟩
      · split_ifs <;> exact ⟨rfl, rfl⟩
    exact hsame hroute.1 hroute.2
  | shutDown => exact hsame rfl rfl
  | advance => exact hsame (receive_advance arrival hnumbered hbusy hentries) (sameDesk_advance core).number
  | report number event => exact hsame (receive_report arrival number event) (sameDesk_report core number event).number
  | finish outcome =>
    refine hsame ?_ (sameDesk_finish core outcome).number
    cases hphase : core.phase with
    | acting run =>
      have hrunning : 0 < core.running := by
        rw [hnumbered.counted]
        exact List.length_pos_of_mem (mem_unanswered_of_job (show _ = some run.job by rw [hphase]; rfl))
      exact receive_finish arrival hphase hrunning outcome
    | _ =>
      show (core.receive arrival).finish outcome = (core.finish outcome).receive arrival
      simp only [finish, phase_receive, hphase]

/-! ### Enough steps -/

theorem isListening_apply (engine : Engine) (move : Move) : (engine.apply move).isListening = engine.isListening := by
  cases move with
  | submit request =>
    obtain ⟨waiting, queue, nextTicket, running, hsubmit⟩ := exists_submit_eq engine request
    show (engine.submit request).2.isListening = _
    rw [hsubmit]
  | route scope stack =>
    obtain ⟨routes, hroute⟩ := exists_route_eq engine scope stack
    show (engine.route scope stack).2.isListening = _
    rw [hroute]
  | advance => exact (sameDesk_advance engine).listening
  | report number event => exact (sameDesk_report engine number event).listening
  | finish outcome => exact (sameDesk_finish engine outcome).listening
  | _ => rfl

theorem Passage.tickets_eq (hpassage : engine.Passage move after) (hmove : ∀ request, move ≠ .submit request) :
    after.tickets = engine.tickets := by
  cases hpassage.turnover with
  | same hunanswered hanswers => rw [tickets, tickets, hunanswered, hanswers]
  | entered goal hunanswered =>
    have hless := (hpassage.unanswered_suffix hmove).length_le
    rw [hunanswered, List.length_append, List.length_singleton] at hless
    omega
  | left job result hunanswered hanswers =>
    rw [tickets, tickets, hunanswered, hanswers]
    simp

/-- The jobs of the engine without later submissions are answered when there are more steps than its measure says. -/
theorem Ahead.answered {arrival : Arrival} {moves : List Move} (hahead : core.Ahead engine arrival)
    (hworking : core.Working) (hnumbered : core.Numbered) (hlistening : core.isListening = true)
    (hbounded : core.Bounded room jobs) (henough : core.load room jobs < engine.effort moves) :
    ∀ ticket ∈ core.tickets, ticket ∈ (engine.applyAll moves).answers.map Prod.fst := by
  induction moves generalizing core engine arrival with
  | nil => exact absurd henough (Nat.not_lt_zero _)
  | cons move moves ih =>
    cases hsettled : core.isSettled with
    | true =>
      -- everything is answered already, and answers are not taken back
      intro ticket hticket
      have hanswers : core.answers = engine.answers := by rw [hahead.eq]; rfl
      rw [tickets, unanswered_of_isSettled hsettled, List.map_nil, List.append_nil, hanswers] at hticket
      exact List.map_subset Prod.fst (engine.answers_extended_applyAll (move :: moves)).subset hticket
    | false =>
      by_cases hmove : ∃ request, move = .submit request
      · obtain ⟨request, rfl⟩ := hmove
        obtain ⟨more, hmore⟩ := hahead.submit hlistening request
        refine ih hmore hworking hnumbered hlistening hbounded ?_
        have hturn : engine.isTurn (.submit request) = false := by
          unfold isTurn
          split <;> simp_all
        rw [effort, hturn] at henough
        simpa using henough
      · have hother := fun request heq => hmove ⟨request, heq⟩
        obtain ⟨more, hmore⟩ := hahead.apply hnumbered hsettled hother
        have hturn : engine.isTurn move = core.isTurn move := by rw [hahead.eq]; rfl
        have hpassage := core.passage_apply move
        have hstep : (core.apply move).Bounded room jobs ∧
            (core.apply move).load room jobs < (engine.apply move).effort moves := by
          rw [effort, hturn] at henough
          cases hdone : core.isTurn move with
          | true =>
            obtain ⟨hbounded, hless⟩ := load_turn_lt hworking hbounded hsettled hdone
            rw [hdone, if_pos rfl] at henough
            exact ⟨hbounded, by omega⟩
          | false =>
            obtain ⟨hbounded, hless⟩ := eases_apply hworking hnumbered hbounded hother hdone
            rw [hdone, if_neg Bool.false_ne_true] at henough
            exact ⟨hbounded, by omega⟩
        rw [← hpassage.tickets_eq hother]
        exact ih hmore (hworking.apply move) (hnumbered.change hpassage) ((core.isListening_apply move).trans hlistening)
          hstep.1 hstep.2

/-- **Every accepted job is answered**, once the worker has made enough steps. -/
theorem exists_effort (hworking : engine.Working) (hnumbered : engine.Numbered) (hlistening : engine.isListening = true) :
    ∃ bound, ∀ later, bound ≤ engine.effort later →
      ∀ ticket ∈ engine.tickets, ticket ∈ (engine.applyAll later).answers.map Prod.fst := by
  have hroomy : engine.Roomy
      ((engine.history.stackList.map Stack.count).foldl Nat.max 0 + engine.unanswered.length) := by
    intro id
    have hlength := Host.length_line_le_longest hworking.sound id
    omega
  generalize (engine.history.stackList.map Stack.count).foldl Nat.max 0 + engine.unanswered.length = room at hroomy
  refine ⟨engine.load room engine.unanswered.length + 1, fun later hlater => ?_⟩
  exact (Ahead.refl engine).answered hworking hnumbered hlistening ⟨hroomy, Nat.le_refl _⟩ hlater

end Engine

end Retrace
