import Retrace.Ledger.Book
import Retrace.Proofs.Recency
import Retrace.Proofs.Rest

/-!
# Submissions and turns change places

A submission reads nothing that a turn of a busy worker changes, and adds nothing that such a turn reads. So a
request that is submitted after some turns might as well have been submitted before them.
-/

namespace Retrace

namespace Engine

variable {engine after : Engine} {job : Job} {run : Run}

/-! ### What a submission reads -/

structure SameDesk (engine after : Engine) : Prop where
  registry : after.registry = engine.registry
  routes : after.routes = engine.routes
  active : after.history.active = engine.history.active
  generation : after.generation = engine.generation
  accepting : after.isAccepting = engine.isAccepting
  listening : after.isListening = engine.isListening
  number : after.nextTicket = engine.nextTicket

theorem SameDesk.refl (engine : Engine) : engine.SameDesk engine := ⟨rfl, rfl, rfl, rfl, rfl, rfl, rfl⟩

theorem SameDesk.trans {last : Engine} (hfirst : engine.SameDesk after) (hsecond : after.SameDesk last) :
    engine.SameDesk last where
  registry := hsecond.registry.trans hfirst.registry
  routes := hsecond.routes.trans hfirst.routes
  active := hsecond.active.trans hfirst.active
  generation := hsecond.generation.trans hfirst.generation
  accepting := hsecond.accepting.trans hfirst.accepting
  listening := hsecond.listening.trans hfirst.listening
  number := hsecond.number.trans hfirst.number

private theorem active_takeEffect (engine : Engine) (run : Run) :
    (engine.takeEffect run).1.active = engine.history.active := by
  by_cases hcurrent : engine.generation = run.job.generation
  · by_cases hexecute : run.step.operation = .execute
    · rw [takeEffect_of_execute hcurrent hexecute]
      split_ifs
      · rfl
      · exact (History.settings_record ..).1
    · rw [takeEffect_of_move hcurrent hexecute]
      exact (History.settings_moveCursor ..).1
  · rw [takeEffect_of_stale hcurrent]

section Worker

variable {ready : Engine} (hsame : engine.SameDesk ready)

include hsame

private theorem sameDesk_answer (job : Job) (result : ActionResult) : engine.SameDesk (ready.answer job result) :=
  { hsame with }

theorem sameDesk_conclude (run : Run) (result : ActionResult) : engine.SameDesk (ready.conclude run result) := by
  have hactive := (active_takeEffect ready run).trans hsame.active
  cases result with
  | error error => exact { hsame with }
  | ok value =>
    unfold conclude
    cases hwalk : run.walk with
    | none => exact { hsame with active := hactive }
    | some walk => exact { hsame with active := hactive }

private theorem sameDesk_begin (job : Job) (walk : Option Walk) (step : Step) :
    engine.SameDesk (ready.begin job walk step) := by
  have hready : engine.SameDesk { ready with bus := ready.bus.publishAll (around step true) } := { hsame with }
  unfold begin
  dsimp only
  split_ifs
  · exact sameDesk_conclude hready _ _
  · exact { hsame with }

private theorem sameDesk_choose (job : Job) (way : Option Walk) : engine.SameDesk (ready.choose job way) := by
  have hanswer := sameDesk_answer hsame job
  have hready : engine.SameDesk { ready with waiting := withoutTicket job.ticket ready.waiting } := { hsame with }
  have hmove : ∀ operation filter missing, engine.SameDesk (ready.beginMove job operation filter missing) := by
    intro operation filter missing
    unfold beginMove
    split
    · exact hanswer _
    · exact sameDesk_begin hsame _ _ _
  unfold choose
  split
  · exact sameDesk_begin hready _ _ _
  · exact hmove _ _ _
  · exact hmove _ _ _
  · unfold beginJump
    split
    · exact { hsame with }
    · split_ifs
      · exact hanswer _
      · exact { hsame with }
  · unfold continueJump
    split
    · exact hanswer _
    · split_ifs
      · split
        · exact hanswer _
        · exact sameDesk_begin hsame _ _ _
      · split
        · exact hanswer _
        · exact sameDesk_begin hsame _ _ _
      · exact hanswer _

end Worker

theorem sameDesk_advance (engine : Engine) : engine.SameDesk engine.advance := by
  unfold advance
  split
  · unfold take
    split
    · exact SameDesk.refl engine
    · dsimp only
      split_ifs <;> exact ⟨rfl, rfl, rfl, rfl, rfl, rfl, rfl⟩
  · exact sameDesk_choose (SameDesk.refl engine) _ _
  · exact SameDesk.refl engine
  · unfold resume
    split_ifs <;> exact ⟨rfl, rfl, rfl, rfl, rfl, rfl, rfl⟩

theorem sameDesk_report (engine : Engine) (number : Nat) (event : ProgressEvent) :
    engine.SameDesk (engine.report number event) := by
  unfold report
  split
  · split_ifs <;> exact ⟨rfl, rfl, rfl, rfl, rfl, rfl, rfl⟩
  · exact SameDesk.refl engine

theorem sameDesk_finish (engine : Engine) (outcome : Outcome) : engine.SameDesk (engine.finish outcome) := by
  cases hphase : engine.phase with
  | acting run =>
    rw [finish_eq hphase]
    have hready : ∀ statuses, engine.SameDesk { engine with statuses } :=
      fun _ => ⟨rfl, rfl, rfl, rfl, rfl, rfl, rfl⟩
    exact sameDesk_conclude (hready _) run _
  | _ =>
    simp only [finish, hphase]
    exact SameDesk.refl engine

/-! ### What a submission adds -/

/-- What a submission adds to an engine: its number is used up, and there may be a job with its entry in the
waiting list. -/
structure Arrival where
  number : Ticket
  jobs : List Job
  entries : List Waiting

def receive (engine : Engine) (arrival : Arrival) : Engine :=
  { engine with
    nextTicket := arrival.number
    waiting := engine.waiting ++ arrival.entries
    running := engine.running + arrival.jobs.length
    queue := engine.queue ++ arrival.jobs }

def arrivalOf (engine : Engine) (request : Request) : Arrival :=
  if engine.isAccepting then
    match engine.goalFor request with
    | .error _ => ⟨engine.nextTicket + 1, [], []⟩
    | .ok goal =>
      ⟨engine.nextTicket + 1, [⟨engine.nextTicket, engine.generation, goal⟩], waitingEntry engine.nextTicket goal⟩
  else ⟨engine.nextTicket, [], []⟩

def replyTo (engine : Engine) (request : Request) : Except EngineError Ticket :=
  if engine.isAccepting then (engine.goalFor request).map fun _ => engine.nextTicket else .error .shutDown

theorem submit_eq (hlistening : engine.isListening = true) (request : Request) :
    engine.submit request = (engine.replyTo request, engine.receive (engine.arrivalOf request)) := by
  unfold submit replyTo arrivalOf
  have hgoal : ({ engine with nextTicket := engine.nextTicket + 1 } : Engine).goalFor request =
      engine.goalFor request := by
    cases request <;> rfl
  split_ifs
  · dsimp only
    rw [hgoal]
    cases engine.goalFor request with
    | error error => simp [Except.map, receive]
    | ok goal => simp [schedule, hlistening, Except.map, receive]
  · simp [receive]

theorem ticket_of_mem_entries {request : Request} {entry : Waiting} (hentry : entry ∈ (engine.arrivalOf request).entries) :
    entry.ticket = engine.nextTicket := by
  unfold arrivalOf at hentry
  split_ifs at hentry
  · cases hgoal : engine.goalFor request with
    | error error => simp [hgoal] at hentry
    | ok goal => cases goal <;> simp_all [waitingEntry]
  · cases hentry

theorem submit_accepted (hlistening : engine.isListening = true) {request : Request} {ticket : Ticket}
    (hreply : (engine.submit request).1 = .ok ticket) :
    ∃ job, job.ticket = ticket ∧ (engine.submit request).2.unanswered = engine.unanswered ++ [job] := by
  rw [submit_eq hlistening] at hreply ⊢
  dsimp only at hreply ⊢
  unfold replyTo at hreply
  unfold arrivalOf
  split_ifs at hreply ⊢ with haccepting
  cases hgoal : engine.goalFor request with
  | error error =>
    rw [hgoal] at hreply
    cases hreply
  | ok goal =>
    rw [hgoal] at hreply
    refine ⟨⟨engine.nextTicket, engine.generation, goal⟩, Except.ok.inj hreply, ?_⟩
    exact (List.append_assoc ..).symm

theorem submit_refused (hlistening : engine.isListening = true) {request : Request} {error : EngineError}
    (hreply : (engine.submit request).1 = .error error) :
    (engine.submit request).2.unanswered = engine.unanswered := by
  have hnothing : ∀ number, (engine.receive ⟨number, [], []⟩).unanswered = engine.unanswered := by
    intro number
    show engine.phase.job?.toList ++ (engine.queue ++ []) = _
    rw [List.append_nil]
    rfl
  rw [submit_eq hlistening] at hreply ⊢
  dsimp only at hreply ⊢
  unfold replyTo at hreply
  unfold arrivalOf
  split_ifs at hreply ⊢ with haccepting
  · cases hgoal : engine.goalFor request with
    | error error => exact hnothing _
    | ok goal =>
      rw [hgoal] at hreply
      cases hreply
  · exact hnothing _

theorem SameDesk.goalFor_eq (hsame : engine.SameDesk after) (request : Request) :
    after.goalFor request = engine.goalFor request := by
  have hcheck : ∀ filter, after.checkFilter filter = engine.checkFilter filter := by
    intro filter
    cases filter with
    | none => rfl
    | some filter => rw [checkFilter, checkFilter, hsame.registry]
  have hrouted : ∀ scope, after.routed? scope = engine.routed? scope := by
    intro scope
    cases scope with
    | all => rfl
    | areas bits => simp only [routed?, hsame.routes]
  cases request with
  | execute command => simp only [goalFor, stackFor, hsame.registry, hrouted, hsame.active]
  | undo filter => simp only [goalFor, hcheck]
  | redo filter => simp only [goalFor, hcheck]
  | jump target => rfl

private theorem SameDesk.arrivalOf_eq (hsame : engine.SameDesk after) (request : Request) :
    after.arrivalOf request = engine.arrivalOf request := by
  unfold arrivalOf
  rw [hsame.goalFor_eq, hsame.accepting, hsame.number, hsame.generation]

private theorem SameDesk.replyTo_eq (hsame : engine.SameDesk after) (request : Request) :
    after.replyTo request = engine.replyTo request := by
  unfold replyTo
  rw [hsame.goalFor_eq, hsame.accepting, hsame.number]

/-! ### A step of the worker does not mind an arrival -/

theorem advance_of_choosing {way : Option Walk} (hphase : engine.phase = .choosing job way) :
    engine.advance = engine.choose job way := by
  simp only [advance, hphase]

private theorem advance_of_resting {walk : Walk} (hphase : engine.phase = .resting job walk) :
    engine.advance = engine.resume job walk := by
  simp only [advance, hphase]

section Receive

variable (arrival : Arrival)

theorem history_receive : (engine.receive arrival).history = engine.history := rfl

variable (engine) in
theorem phase_receive : (engine.receive arrival).phase = engine.phase := rfl

theorem receive_answer (hrunning : 0 < engine.running) (job : Job) (result : ActionResult) :
    (engine.receive arrival).answer job result = (engine.answer job result).receive arrival := by
  unfold receive answer
  congr 1
  dsimp only
  omega

theorem receive_conclude (hrunning : 0 < engine.running) (run : Run) (result : ActionResult) :
    (engine.receive arrival).conclude run result = (engine.conclude run result).receive arrival := by
  cases result with
  | error error =>
    have hready : 0 < ({ engine with
      bus := engine.bus.publishAll (closingEvents run.step (.error error) false) } : Engine).running := hrunning
    exact receive_answer arrival hready run.job (.error error)
  | ok value =>
    have hready : 0 < ({ engine with
      history := (engine.takeEffect run).1
      bus := engine.bus.publishAll (closingEvents run.step (.ok value) (engine.takeEffect run).2) } :
        Engine).running := hrunning
    unfold conclude
    cases hwalk : run.walk with
    | none => exact receive_answer arrival hready run.job (.ok value)
    | some walk => rfl

private theorem receive_begin (hrunning : 0 < engine.running) (job : Job) (walk : Option Walk) (step : Step) :
    (engine.receive arrival).begin job walk step = (engine.begin job walk step).receive arrival := by
  have hready : 0 < ({ engine with bus := engine.bus.publishAll (around step true) } : Engine).running := hrunning
  unfold begin
  dsimp only
  split_ifs
  · exact receive_conclude arrival hready _ _
  · rfl

private theorem receive_choose (hrunning : 0 < engine.running) (job : Job) (way : Option Walk)
    (hentries : ∀ entry ∈ arrival.entries, entry.ticket ≠ job.ticket) :
    (engine.receive arrival).choose job way = (engine.choose job way).receive arrival := by
  have hanswer := receive_answer arrival hrunning job
  have hbegin := receive_begin arrival hrunning job
  have hmove : ∀ operation filter missing, (engine.receive arrival).beginMove job operation filter missing =
      (engine.beginMove job operation filter missing).receive arrival := by
    intro operation filter missing
    simp only [beginMove, history_receive]
    cases engine.history.target operation.direction filter with
    | none => exact hanswer _
    | some candidate => exact hbegin _ _
  cases hgoal : job.goal with
  | execute command stack =>
    have hwaiting : withoutTicket job.ticket (engine.waiting ++ arrival.entries) =
        withoutTicket job.ticket engine.waiting ++ arrival.entries := by
      have hkept : withoutTicket job.ticket arrival.entries = arrival.entries :=
        List.filter_eq_self.mpr (by simpa using hentries)
      rw [withoutTicket, List.filter_append, ← withoutTicket, ← withoutTicket, hkept]
    have hready : 0 < ({ engine with waiting := withoutTicket job.ticket engine.waiting } : Engine).running := hrunning
    simp only [choose, hgoal]
    rw [← receive_begin arrival hready]
    simp only [receive, hwaiting]
  | undo filter =>
    simp only [choose, hgoal]
    exact hmove _ _ _
  | redo filter =>
    simp only [choose, hgoal]
    exact hmove _ _ _
  | jump target =>
    cases way with
    | none =>
      simp only [choose, hgoal]
      cases target with
      | none => rfl
      | some index =>
        unfold beginJump
        dsimp only
        by_cases hrange : engine.count ≤ index
        · rw [if_pos hrange, if_pos (by exact hrange)]
          exact hanswer _
        · rw [if_neg hrange, if_neg (by exact hrange)]
          rfl
    | some walk =>
      simp only [choose, hgoal, continueJump, history_receive]
      cases engine.history.stack? walk.stack with
      | none => exact hanswer _
      | some stack =>
        dsimp only
        split_ifs
        · cases stack.undoCommand with
          | none => exact hanswer _
          | some command => exact hbegin _ _
        · cases stack.redoCommand with
          | none => exact hanswer _
          | some command => exact hbegin _ _
        · exact hanswer _

theorem receive_advance (hnumbered : engine.Numbered) (hbusy : engine.isSettled = false)
    (hentries : ∀ entry ∈ arrival.entries, engine.nextTicket ≤ entry.ticket) :
    (engine.receive arrival).advance = engine.advance.receive arrival := by
  have hrunning : ∀ {job}, job ∈ engine.unanswered → 0 < engine.running := by
    intro job hjob
    rw [hnumbered.counted]
    exact List.length_pos_of_mem hjob
  cases hphase : engine.phase with
  | idle =>
    cases hqueue : engine.queue with
    | nil =>
      rw [Host.isSettled_of_idle hphase hqueue] at hbusy
      cases hbusy
    | cons job rest =>
      have hadvance : (engine.receive arrival).advance =
          if job.generation = engine.generation then
            { engine.receive arrival with queue := rest ++ arrival.jobs, phase := .choosing job none }
          else { engine.receive arrival with queue := rest ++ arrival.jobs }.answer job (.error .cancelled) := by
        simp only [advance, receive, hphase, take, hqueue, List.cons_append]
      have hready : 0 < ({ engine with queue := rest } : Engine).running :=
        hrunning (mem_unanswered_of_queue (hqueue ▸ List.mem_cons_self))
      rw [hadvance]
      simp only [advance, hphase, take, hqueue]
      split_ifs
      · rfl
      · exact receive_answer arrival hready job _
  | choosing job way =>
    have hjob := mem_unanswered_of_job (show engine.phase.job? = some job by rw [hphase]; rfl)
    rw [advance_of_choosing hphase, advance_of_choosing (engine.phase_receive arrival ▸ hphase)]
    refine receive_choose arrival (hrunning hjob) job way fun entry hentry => ?_
    have hgiven := hnumbered.given job.ticket (List.mem_append_right _ (List.mem_map_of_mem hjob))
    exact (hgiven.trans_le (hentries entry hentry)).ne'
  | acting run =>
    simp only [advance, receive, hphase]
  | resting job walk =>
    have hjob := mem_unanswered_of_job (show engine.phase.job? = some job by rw [hphase]; rfl)
    rw [advance_of_resting hphase, advance_of_resting (engine.phase_receive arrival ▸ hphase)]
    unfold resume
    by_cases hcurrent : job.generation = engine.generation
    · rw [if_pos hcurrent, if_pos (by exact hcurrent)]
      rfl
    · rw [if_neg hcurrent, if_neg (by exact hcurrent)]
      exact receive_answer arrival (hrunning hjob) job _

theorem receive_report (number : Nat) (event : ProgressEvent) :
    (engine.receive arrival).report number event = (engine.report number event).receive arrival := by
  unfold report
  rw [phase_receive]
  split
  · split_ifs <;> rfl
  · rfl

theorem receive_finish (hphase : engine.phase = .acting run) (hrunning : 0 < engine.running) (outcome : Outcome) :
    (engine.receive arrival).finish outcome = (engine.finish outcome).receive arrival := by
  have hready : ∀ statuses, 0 < ({ engine with statuses } : Engine).running := fun _ => hrunning
  have hsame : (engine.receive arrival).phase = .acting run := hphase
  rw [finish_eq hphase, finish_eq hsame, ← receive_conclude arrival (hready _) run _]
  rfl

end Receive

end Engine

namespace Host

variable {World : Type} {host : Host World} {engine : Engine} {world : World}

open Engine

variable (host) in
theorem sameDesk_turn (engine : Engine) (world : World) : engine.SameDesk (host.turn engine world).1 := by
  unfold turn
  split
  · next run hphase =>
    have hreported : ∀ (events : List ProgressEvent) (ready : Engine), engine.SameDesk ready →
        engine.SameDesk (events.foldl (fun engine event => engine.report run.number event) ready) := by
      intro events
      induction events with
      | nil => exact fun ready hsame => hsame
      | cons event events ih =>
        exact fun ready hsame => ih _ (hsame.trans (sameDesk_report ready run.number event))
    exact (hreported _ engine (SameDesk.refl engine)).trans (sameDesk_finish _ _)
  · exact sameDesk_advance engine

theorem turn_receive {arrival : Arrival} (hnumbered : engine.Numbered) (hbusy : engine.isSettled = false)
    (hentries : ∀ entry ∈ arrival.entries, engine.nextTicket ≤ entry.ticket) (world : World) :
    host.turn (engine.receive arrival) world =
      ((host.turn engine world).1.receive arrival, (host.turn engine world).2) := by
  cases hphase : engine.phase with
  | acting run =>
    have hreports : ∀ (events : List ProgressEvent) (ready : Engine),
        events.foldl (fun engine event => engine.report run.number event) (ready.receive arrival) =
          (events.foldl (fun engine event => engine.report run.number event) ready).receive arrival := by
      intro events
      induction events with
      | nil => exact fun _ => rfl
      | cons event events ih =>
        intro ready
        rw [List.foldl_cons, List.foldl_cons, receive_report]
        exact ih _
    obtain ⟨-, -, hstill⟩ := foldl_report run.number (host.perform run.step world).reports engine
    have hreported := hnumbered.applyAll ((host.perform run.step world).reports.map (Move.report run.number))
    rw [← foldl_report_eq_applyAll] at hreported
    unfold turn
    rw [phase_receive, hphase]
    dsimp only
    rw [hreports]
    generalize (host.perform run.step world).reports.foldl (fun engine event => engine.report run.number event)
      engine = reported at hreported hstill
    rw [hphase] at hstill
    have hrunning : 0 < reported.running := by
      rw [hreported.counted]
      exact List.length_pos_of_mem (mem_unanswered_of_job (show _ = some run.job by rw [hstill]; rfl))
    rw [receive_finish arrival hstill hrunning]
  | _ =>
    have hrun : engine.phase.run? = none := by rw [hphase]; rfl
    rw [turn_of_no_run hrun, turn_of_no_run (engine.phase_receive arrival ▸ hrun)]
    rw [receive_advance arrival hnumbered hbusy hentries]

/-- Whether a request comes before or after the turn of a busy worker makes no difference. -/
theorem turn_submit (hlistening : engine.isListening = true) (hnumbered : engine.Numbered)
    (hbusy : engine.isSettled = false) (request : Request) (world : World) :
    host.turn (engine.submit request).2 world =
        (((host.turn engine world).1.submit request).2, (host.turn engine world).2) ∧
      ((host.turn engine world).1.submit request).1 = (engine.submit request).1 := by
  have hsame := sameDesk_turn host engine world
  have hentries : ∀ entry ∈ (engine.arrivalOf request).entries, engine.nextTicket ≤ entry.ticket :=
    fun entry hentry => (ticket_of_mem_entries hentry).ge
  rw [submit_eq hlistening, submit_eq (hsame.listening.trans hlistening), hsame.arrivalOf_eq, hsame.replyTo_eq]
  exact ⟨turn_receive hnumbered hbusy hentries world, rfl⟩

/-! ### Several turns -/

variable (host) in
def turns : Nat → Engine × World → Engine × World
  | 0, state => state
  | number + 1, state => turns number (host.turn state.1 state.2)

theorem turns_add (first second : Nat) (state : Engine × World) :
    host.turns (first + second) state = host.turns second (host.turns first state) := by
  induction first generalizing state with
  | zero => rw [Nat.zero_add, turns]
  | succ first ih =>
    rw [Nat.succ_add, turns, turns]
    exact ih _

theorem turns_of_settled {state : Engine × World} (hsettled : state.1.isSettled = true) (number : Nat) :
    host.turns number state = state := by
  induction number with
  | zero => rfl
  | succ number ih =>
    rw [turns, turn_of_settled hsettled]
    exact ih

theorem turns_eq_of_settled {state : Engine × World} {first second : Nat}
    (hfirst : (host.turns first state).1.isSettled = true) (hsecond : (host.turns second state).1.isSettled = true) :
    host.turns first state = host.turns second state := by
  rcases Nat.le_total first second with hle | hle
  · obtain ⟨more, rfl⟩ := Nat.exists_eq_add_of_le hle
    rw [turns_add, turns_of_settled hfirst]
  · obtain ⟨more, rfl⟩ := Nat.exists_eq_add_of_le hle
    rw [turns_add, turns_of_settled hsecond]

variable (host) in
theorem sameDesk_turns (number : Nat) (state : Engine × World) : state.1.SameDesk (host.turns number state).1 := by
  induction number generalizing state with
  | zero => exact SameDesk.refl _
  | succ number ih => exact (sameDesk_turn host state.1 state.2).trans (ih _)

variable (host) in
theorem turnUntil_eq_turns (stop : Engine → Bool) (bound : Nat) (state : Engine × World) :
    ∃ number, host.turnUntil stop bound state = host.turns number state := by
  induction bound generalizing state with
  | zero => exact ⟨0, rfl⟩
  | succ bound ih =>
    rw [turnUntil]
    split_ifs
    · exact ⟨0, rfl⟩
    · obtain ⟨number, hnumber⟩ := ih (host.turn state.1 state.2)
      exact ⟨number + 1, hnumber⟩

theorem ne_submit_of_movesOf {move : Move} (hmove : move ∈ host.movesOf engine world) (request : Request) :
    move ≠ .submit request := by
  unfold movesOf at hmove
  split at hmove
  · simp only [List.mem_append, List.mem_map, List.mem_singleton] at hmove
    rcases hmove with ⟨event, -, rfl⟩ | rfl <;> simp
  · rw [List.mem_singleton.mp hmove]
    simp

variable (host) in
theorem turns_eq_applyAll (number : Nat) (state : Engine × World) :
    ∃ moves, (∀ move ∈ moves, ∀ request, move ≠ .submit request) ∧
      (host.turns number state).1 = state.1.applyAll moves := by
  induction number generalizing state with
  | zero => exact ⟨[], by simp, rfl⟩
  | succ number ih =>
    obtain ⟨moves, hmoves, hlater⟩ := ih (host.turn state.1 state.2)
    refine ⟨host.movesOf state.1 state.2 ++ moves, ?_, ?_⟩
    · intro move hmove
      rcases List.mem_append.mp hmove with hnow | hlater
      · exact ne_submit_of_movesOf hnow
      · exact hmoves move hlater
    · rw [applyAll_append, ← turn_eq_applyAll]
      exact hlater

end Host

/-! ### Errands on a book -/

/-- What a statement asks of an engine and a book. -/
inductive Errand where
  | post (posting : Posting) (scope : Scope)
  | undo (filter : Option Scope)
  | redo (filter : Option Scope)
  | jump (target : Option Nat)

namespace Errand

def request (book : Book) : Errand → Request
  | post posting scope => .execute (book.write posting scope).2
  | undo filter => .undo filter
  | redo filter => .redo filter
  | jump target => .jump target

/-- The book with what an errand writes into it. -/
def written (book : Book) : Errand → Book
  | post posting scope => (book.write posting scope).1
  | _ => book

/-- The state after an errand. -/
def place (errand : Errand) (state : Engine × Book) : Engine × Book :=
  ((state.1.submit (errand.request state.2)).2, errand.written state.2)

def reply (errand : Errand) (state : Engine × Book) : Except EngineError Ticket :=
  (state.1.submit (errand.request state.2)).1

end Errand

namespace Engine

variable {engine after : Engine} {move : Move} {bound : Nat}

/-- Every command that an engine may run has a number below a bound. -/
structure Below (bound : Nat) (engine : Engine) : Prop where
  pending : ∀ command ∈ engine.pending, command.id < bound
  lines : ∀ id, ∀ command ∈ engine.history.line id, command.id < bound
  running : ∀ run, engine.phase.run? = some run → run.step.command.id < bound

theorem Below.change (hbelow : engine.Below bound) (hsound : engine.history.Sound) (hchange : engine.Change move after)
    (hmove : ∀ command ∈ move.command?, command.id < bound) : after.Below bound where
  pending := by
    intro command hmem
    rcases List.mem_append.mp (hchange.pending.subset hmem) with hold | hnew
    · exact hbelow.pending command hold
    · exact hmove command (Option.mem_toList.mp hnew)
  lines := by
    intro id command hmem
    cases hchange.flow hsound with
    | shrunk hline => exact hbelow.lines id command ((hline id).subset hmem)
    | grown run hphase hcurrent hoperation hmutating hover hline =>
      rcases List.mem_append.mp ((hline id).subset hmem) with hold | hnew
      · exact hbelow.lines id command hold
      · split_ifs at hnew
        · rw [List.mem_singleton.mp hnew]
          exact hbelow.running run (by rw [hphase]; rfl)
        · cases hnew
  running := by
    intro run hrun
    rcases hchange.started hrun with hsame | ⟨hjob, horigin⟩
    · exact hbelow.running run hsame
    · cases horigin with
      | submitted hoperation hwalk hgoal =>
        refine hbelow.pending _ ?_
        rw [pending_of_job hjob, hgoal]
        exact List.mem_cons_self
      | recorded hoperation hgoal hnext => exact hbelow.lines _ _ (History.mem_line_of_next hnext)

theorem Below.applyAll (hbelow : engine.Below bound) (hsteady : engine.Steady) {moves : List Move}
    (hmoves : ∀ move ∈ moves, ∀ command ∈ move.command?, command.id < bound) :
    (engine.applyAll moves).Below bound := by
  induction moves generalizing engine with
  | nil => exact hbelow
  | cons move moves ih =>
    have hchange := hsteady.change_apply move
    have hnow := hbelow.change hsteady.sound hchange (hmoves move List.mem_cons_self)
    exact ih hnow (hsteady.change hchange) fun later hlater => hmoves later (List.mem_cons_of_mem _ hlater)

private theorem command?_of_ne_submit (hmove : ∀ request, move ≠ .submit request) : move.command? = none := by
  cases move with
  | submit request => exact absurd rfl (hmove request)
  | _ => rfl

private theorem Below.mono {more : Nat} (hbelow : engine.Below bound) (hmore : bound ≤ more) : engine.Below more where
  pending := fun command hmem => (hbelow.pending command hmem).trans_le hmore
  lines := fun id command hmem => (hbelow.lines id command hmem).trans_le hmore
  running := fun run hrun => (hbelow.running run hrun).trans_le hmore

theorem Fresh.below (hfresh : engine.Fresh) (bound : Nat) : engine.Below bound := by
  have hline := hfresh.line_eq
  obtain ⟨registry, routes, defaultStack, limit, capacity, rfl⟩ := hfresh
  constructor
  · intro command hmem
    cases hmem
  · intro id command hmem
    rw [hline] at hmem
    cases hmem
  · intro run hrun
    cases hrun

end Engine

namespace Book

variable {state : Engine × Book}

/-- What holds of an engine and the book that its commands are written in. -/
structure InOrder (state : Engine × Book) : Prop where
  working : state.1.Working
  numbered : state.1.Numbered
  listening : state.1.isListening = true
  below : state.1.Below state.2.entries.length

private theorem length_perform (book : Book) (id : CommandId) (direction : Direction) :
    (book.perform id direction).world.entries.length = book.entries.length := by
  unfold perform
  split
  · rfl
  · exact List.length_set

theorem perform_write {book : Book} {id : CommandId} (hid : id < book.entries.length) (direction : Direction)
    (posting : Posting) (scope : Scope) :
    (book.write posting scope).1.perform id direction =
      { book.perform id direction with world := ((book.perform id direction).world.write posting scope).1 } := by
  have hentry : (book.entries ++ [⟨posting, none⟩])[id]? = some book.entries[id] := by
    rw [List.getElem?_append_left hid, List.getElem?_eq_getElem hid]
  simp only [perform, write, hentry, List.getElem?_eq_getElem hid, List.set_append_left _ _ hid]

theorem length_turn (engine : Engine) (book : Book) :
    (Book.host.turn engine book).2.entries.length = book.entries.length := by
  unfold Host.turn
  split
  · exact length_perform ..
  · rfl

theorem length_turns (number : Nat) (state : Engine × Book) :
    (Book.host.turns number state).2.entries.length = state.2.entries.length := by
  induction number generalizing state with
  | zero => rfl
  | succ number ih => exact (ih _).trans (length_turn ..)

private theorem turn_write {engine : Engine} {book : Book} (hbelow : engine.Below book.entries.length)
    (posting : Posting) (scope : Scope) :
    Book.host.turn engine (book.write posting scope).1 =
      ((Book.host.turn engine book).1, ((Book.host.turn engine book).2.write posting scope).1) := by
  cases hphase : engine.phase with
  | acting run =>
    have hid := hbelow.running run (by rw [hphase]; rfl)
    have hperform := perform_write hid run.step.operation.direction posting scope
    have hhost : ∀ book, Book.host.perform run.step book =
        book.perform run.step.command.id run.step.operation.direction := fun _ => rfl
    simp only [Host.turn, hphase, hhost, hperform]
  | _ =>
    have hrun : engine.phase.run? = none := by rw [hphase]; rfl
    rw [Host.turn_of_no_run hrun, Host.turn_of_no_run hrun]

namespace InOrder

variable (horder : InOrder state)

include horder

theorem turn : InOrder (Book.host.turn state.1 state.2) where
  working := Host.working_turn Book.host horder.working state.2
  numbered := by
    rw [Host.turn_eq_applyAll]
    exact horder.numbered.applyAll _
  listening := (Host.sameDesk_turn Book.host state.1 state.2).listening.trans horder.listening
  below := by
    rw [length_turn, Host.turn_eq_applyAll]
    refine horder.below.applyAll horder.working.toSteady fun move hmove command hcommand => ?_
    rw [Engine.command?_of_ne_submit (Host.ne_submit_of_movesOf hmove)] at hcommand
    cases hcommand

theorem turns (number : Nat) : InOrder (Book.host.turns number state) := by
  induction number generalizing state with
  | zero => exact horder
  | succ number ih => exact ih horder.turn

theorem place (errand : Errand) : InOrder (errand.place state) where
  working := horder.working.apply (.submit (errand.request state.2))
  numbered := horder.numbered.change (state.1.passage_apply (.submit (errand.request state.2)))
  listening := by
    unfold Errand.place
    rw [Engine.submit_eq horder.listening]
    exact horder.listening
  below := by
    have hmore : state.2.entries.length ≤ (errand.written state.2).entries.length := by
      cases errand <;> simp [Errand.written, write]
    refine (horder.below.mono hmore).change horder.working.sound
      (horder.working.toSteady.change_apply (.submit (errand.request state.2))) ?_
    intro command hcommand
    cases errand with
    | post posting scope =>
      obtain rfl : (state.2.write posting scope).2 = command := Option.some.inj hcommand
      simp [Errand.written, write]
    | undo filter => cases hcommand
    | redo filter => cases hcommand
    | jump target => cases hcommand

/-- An errand that comes after the turn of a busy worker might as well come before it. -/
theorem turn_place (hbusy : state.1.isSettled = false) (errand : Errand) :
    Book.host.turn (errand.place state).1 (errand.place state).2 = errand.place (Book.host.turn state.1 state.2) ∧
      errand.reply (Book.host.turn state.1 state.2) = errand.reply state := by
  obtain ⟨engine, book⟩ := state
  have hrequest : errand.request (Book.host.turn engine book).2 = errand.request book := by
    cases errand with
    | post posting scope => simp only [Errand.request, write, length_turn]
    | _ => rfl
  have hwritten : Book.host.turn engine (errand.written book) =
      ((Book.host.turn engine book).1, errand.written (Book.host.turn engine book).2) := by
    cases errand with
    | post posting scope => exact turn_write horder.below posting scope
    | _ => rfl
  -- The submission changes places with the turn, and then what was written does.
  obtain ⟨hturn, hreply⟩ :=
    Host.turn_submit horder.listening horder.numbered hbusy (errand.request book) (errand.written book)
  rw [hwritten] at hturn hreply
  simp only [Errand.place, Errand.reply, hrequest]
  exact ⟨hturn, hreply⟩

/-- An errand that comes after some turns might as well come first. -/
theorem exists_turns_place (number : Nat) (errand : Errand) :
    ∃ more, errand.place (Book.host.turns number state) = Book.host.turns more (errand.place state) ∧
      errand.reply (Book.host.turns number state) = errand.reply state := by
  induction number generalizing state with
  | zero => exact ⟨0, rfl, rfl⟩
  | succ number ih =>
    cases hsettled : state.1.isSettled with
    | true =>
      rw [Host.turns_of_settled hsettled]
      exact ⟨0, rfl, rfl⟩
    | false =>
      obtain ⟨hplace, hreply⟩ := horder.turn_place hsettled errand
      obtain ⟨more, hmore, hsame⟩ := ih horder.turn
      refine ⟨more + 1, ?_, hsame.trans hreply⟩
      rw [Host.turns, Host.turns, hplace]
      exact hmore

end InOrder

end Book

end Retrace
