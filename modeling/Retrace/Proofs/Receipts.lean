import Retrace.Proofs.Chronicle
import Retrace.Proofs.Drain

/-!
# Submissions and answers

Each submission that the engine looks at has a receipt: its ticket and the reply to it. The accepted tickets are those
of the answers and of the jobs that are still to be answered, in this order, and the worker starts the jobs one after
the other in the same order.
-/

namespace Retrace

namespace Engine

variable {engine start : Engine} {move : Move} {moves : List Move} {run : Run}

def receipts (engine : Engine) : Move → List (Ticket × Except EngineError Ticket)
  | .submit request => if engine.isAccepting then [(engine.nextTicket, (engine.submit request).1)] else []
  | _ => []

/-- The tickets of the submissions that a run accepts. -/
def accepted (engine : Engine) (moves : List Move) : List Ticket :=
  (engine.along receipts moves).filterMap fun receipt => receipt.2.toOption

def takes (engine : Engine) (move : Move) : List Ticket :=
  match engine.phase, move with
  | .idle, .advance => (engine.queue.map Job.ticket).take 1
  | _, _ => []

def handled (engine : Engine) : List Ticket := engine.answers.map Prod.fst ++ (engine.phase.job?.map Job.ticket).toList

/-! ### What a move adds -/

theorem accepted_append (engine : Engine) (first second : List Move) :
    engine.accepted (first ++ second) = engine.accepted first ++ (engine.applyAll first).accepted second := by
  rw [accepted, along_append, List.filterMap_append]
  rfl

private theorem receipts_of_other (hmove : ∀ request, move ≠ .submit request) : engine.receipts move = [] := by
  cases move with
  | submit request => exact absurd rfl (hmove request)
  | _ => rfl

theorem tickets_apply (hlistening : engine.isListening = true) (move : Move) :
    (engine.apply move).tickets = engine.tickets ++ engine.accepted [move] := by
  rw [accepted, along, along, List.append_nil]
  by_cases hmove : ∃ request, move = .submit request
  · obtain ⟨request, rfl⟩ := hmove
    have hjobs : (engine.receive (engine.arrivalOf request)).tickets =
        engine.tickets ++ (engine.arrivalOf request).jobs.map Job.ticket := by
      simp [tickets, unanswered, receive]
    show (engine.submit request).2.tickets = _
    rw [receipts, submit_eq hlistening, hjobs]
    unfold arrivalOf replyTo
    split_ifs
    · cases engine.goalFor request <;> rfl
    · rfl
  · have hother := fun request heq => hmove ⟨request, heq⟩
    rw [(engine.passage_apply move).tickets_eq hother, receipts_of_other hother]
    exact (List.append_nil _).symm

private theorem handled_of_passage {after : Engine} (hpassage : engine.Passage move after)
    (hother : engine.phase = .idle → move ≠ .advance) : after.handled = engine.handled := by
  unfold handled
  cases hpassage with
  | kept hjob _ hanswers => rw [hjob, hanswers]
  | joined _ _ _ hphase _ hanswers => rw [hphase, hanswers]
  | cleared _ hphase _ hanswers => rw [hphase, hanswers]
  | taken job hmove hidle => exact absurd hmove (hother hidle)
  | dropped job hmove hidle => exact absurd hmove (hother hidle)
  | answered job result hjob hphase _ hanswers =>
    rw [hjob, hphase, hanswers]
    simp [Phase.job?]

theorem handled_apply (engine : Engine) (move : Move) :
    (engine.apply move).handled = engine.handled ++ engine.takes move := by
  by_cases htaking : engine.phase = .idle ∧ move = .advance
  · obtain ⟨hidle, rfl⟩ := htaking
    show engine.advance.handled = _
    cases hqueue : engine.queue with
    | nil => simp [advance, hidle, take, hqueue, takes]
    | cons job rest =>
      simp only [advance, hidle, take, hqueue, takes]
      split_ifs <;> simp [handled, answer, hidle, Phase.job?]
  · have hother : engine.phase = .idle → move ≠ .advance := fun hidle hmove => htaking ⟨hidle, hmove⟩
    have hnone : engine.takes move = [] := by
      unfold takes
      split
      · next hidle => exact absurd rfl (hother hidle)
      · rfl
    rw [hnone, List.append_nil]
    exact handled_of_passage (engine.passage_apply move) hother

theorem handled_prefix (engine : Engine) : engine.handled <+: engine.tickets := by
  rw [handled, tickets, List.prefix_append_right_inj, unanswered, List.map_append]
  cases engine.phase.job? <;> simp

/-! ### The tickets are given out in order -/

private theorem pairwise_receipts (engine : Engine) (move : Move) :
    ((engine.receipts move).map Prod.fst).Pairwise (· < ·) := by
  unfold receipts
  split
  · split_ifs <;> simp
  · exact List.Pairwise.nil

private theorem mem_receipts (hlistening : engine.isListening = true) {receipt : Ticket × Except EngineError Ticket}
    (hmem : receipt ∈ engine.receipts move) : receipt.1 = engine.nextTicket ∧
      (engine.apply move).nextTicket = engine.nextTicket + 1 ∧ ∀ reply, receipt.2 = .ok reply → reply = receipt.1 := by
  unfold receipts at hmem
  split at hmem
  · next request =>
    split_ifs at hmem with haccepting
    · obtain rfl := List.mem_singleton.mp hmem
      rw [submit_eq hlistening]
      refine ⟨rfl, ?_, ?_⟩
      · show (engine.submit request).2.nextTicket = _
        rw [submit_eq hlistening]
        unfold arrivalOf
        rw [if_pos haccepting]
        cases engine.goalFor request <;> rfl
      · intro reply hreply
        simp only [replyTo, if_pos haccepting] at hreply
        cases hgoal : engine.goalFor request with
        | error error =>
          rw [hgoal] at hreply
          cases hreply
        | ok goal =>
          rw [hgoal] at hreply
          exact (Except.ok.inj hreply).symm
    · cases hmem
  · cases hmem

structure Receipted (receipts : List (Ticket × Except EngineError Ticket)) (engine : Engine) : Prop where
  increasing : (receipts.map Prod.fst).Pairwise (· < ·)
  given : ∀ receipt ∈ receipts, receipt.1 < engine.nextTicket
  replies : ∀ receipt ∈ receipts, ∀ reply, receipt.2 = .ok reply → reply = receipt.1

theorem Receipted.apply {noted : List (Ticket × Except EngineError Ticket)} (hreceipted : Receipted noted engine)
    (hlistening : engine.isListening = true) (move : Move) :
    Receipted (noted ++ engine.receipts move) (engine.apply move) where
  increasing := by
    rw [List.map_append, List.pairwise_append]
    refine ⟨hreceipted.increasing, engine.pairwise_receipts move, ?_⟩
    intro old hold new hnew
    obtain ⟨receipt, hreceipt, rfl⟩ := List.mem_map.mp hold
    obtain ⟨added, hadded, rfl⟩ := List.mem_map.mp hnew
    rw [(mem_receipts hlistening hadded).1]
    exact hreceipted.given receipt hreceipt
  given := by
    intro receipt hreceipt
    rcases List.mem_append.mp hreceipt with hold | hnew
    · exact (hreceipted.given receipt hold).trans_le (engine.passage_apply move).nextTicket_le
    · obtain ⟨hticket, hnumber, -⟩ := mem_receipts hlistening hnew
      rw [hticket, hnumber]
      exact Nat.lt_succ_self _
  replies := by
    intro receipt hreceipt
    rcases List.mem_append.mp hreceipt with hold | hnew
    · exact hreceipted.replies receipt hold
    · exact (mem_receipts hlistening hnew).2.2

private theorem Receipted.refused {noted : List (Ticket × Except EngineError Ticket)}
    (hreceipted : Receipted noted engine) {ticket : Ticket} {error : EngineError}
    (hrefused : (ticket, .error error) ∈ noted) :
    ticket ∉ noted.filterMap fun receipt => receipt.2.toOption := by
  intro haccepted
  obtain ⟨receipt, hreceipt, hreply⟩ := List.mem_filterMap.mp haccepted
  cases hsecond : receipt.2 with
  | error other =>
    rw [hsecond] at hreply
    cases hreply
  | ok reply =>
    rw [hsecond] at hreply
    have hticket : reply = ticket := Option.some.inj hreply
    have hsame := hreceipted.replies receipt hreceipt reply hsecond
    have hnodup : (noted.map Prod.fst).Nodup := hreceipted.increasing.imp Nat.ne_of_lt
    have heq := List.inj_on_of_nodup_map hnodup hreceipt hrefused (hsame.symm.trans hticket)
    rw [heq] at hsecond
    cases hsecond

/-! ### The actions of the jobs -/

/-- The jobs of the actions started so far, in order, are among those that the worker has taken. -/
structure Started (runs : List Run) (engine : Engine) : Prop where
  ordered : (runs.map fun run => run.job.ticket).Pairwise (· ≤ ·)
  taken : ∀ run ∈ runs, run.job.ticket ∈ engine.handled

theorem job_of_starts (hsteady : engine.Steady) (hrun : run ∈ engine.starts move) : engine.phase.job? = some run.job := by
  unfold starts at hrun
  split at hrun
  · next hidle =>
    have hafter : (engine.apply move).phase.run? = some run := by simpa using hrun
    cases notice_apply hsteady move with
    | silent _ hsame =>
      rw [hsame, hidle] at hafter
      cases hafter
    | called _ _ _ hphase =>
      rw [hphase, hidle] at hafter
      cases hafter
    | began other _ _ hphase hjob =>
      rw [hphase] at hafter
      rw [hjob, Option.some.inj hafter]
    | reported other _ _ hacting =>
      rw [hacting] at hidle
      cases hidle
    | ended other _ _ hacting =>
      rw [hacting] at hidle
      cases hidle
  · cases hrun

private theorem pairwise_starts (engine : Engine) (move : Move) :
    ((engine.starts move).map fun run => run.job.ticket).Pairwise (· ≤ ·) := by
  unfold starts
  split
  · cases (engine.apply move).phase.run? <;> simp
  · exact List.Pairwise.nil

theorem Started.apply {runs : List Run} (hstarted : Started runs engine) (hsteady : engine.Steady)
    (hnumbered : engine.Numbered) (move : Move) : Started (runs ++ engine.starts move) (engine.apply move) := by
  have hincreasing := hnumbered.increasing.sublist engine.handled_prefix.sublist
  have hlast : ∀ run ∈ engine.starts move, engine.handled = engine.answers.map Prod.fst ++ [run.job.ticket] := by
    intro run hrun
    rw [handled, job_of_starts hsteady hrun]
    rfl
  constructor
  · rw [List.map_append, List.pairwise_append]
    refine ⟨hstarted.ordered, engine.pairwise_starts move, ?_⟩
    intro old hold new hnew
    obtain ⟨earlier, hearlier, rfl⟩ := List.mem_map.mp hold
    obtain ⟨run, hrun, rfl⟩ := List.mem_map.mp hnew
    -- the job at hand is the last one taken
    have htaken := hstarted.taken earlier hearlier
    rw [hlast run hrun] at htaken hincreasing
    rcases List.mem_append.mp htaken with hanswered | hsame
    · exact ((List.pairwise_append.mp hincreasing).2.2 _ hanswered _ (List.mem_singleton.mpr rfl)).le
    · exact (List.mem_singleton.mp hsame).le
  · intro run hrun
    rw [handled_apply]
    rcases List.mem_append.mp hrun with hold | hnew
    · exact List.mem_append_left _ (hstarted.taken run hold)
    · rw [hlast run hnew]
      exact List.mem_append_left _ (List.mem_append_right _ (List.mem_singleton.mpr rfl))

/-! ### Whole runs -/

theorem isAccepting_apply (engine : Engine) (move : Move) :
    (engine.apply move).isAccepting = true → engine.isAccepting = true ∧ move ≠ .shutDown := by
  intro haccepting
  cases move with
  | submit request =>
    obtain ⟨waiting, queue, nextTicket, running, hsubmit⟩ := exists_submit_eq engine request
    have hopen : (engine.submit request).2.isAccepting = true := haccepting
    rw [hsubmit] at hopen
    exact ⟨hopen, nofun⟩
  | route scope stack =>
    obtain ⟨routes, hroute⟩ := exists_route_eq engine scope stack
    have hopen : (engine.route scope stack).2.isAccepting = true := haccepting
    rw [hroute] at hopen
    exact ⟨hopen, nofun⟩
  | shutDown => cases haccepting
  | advance => exact ⟨(sameDesk_advance engine).accepting ▸ haccepting, nofun⟩
  | report number event => exact ⟨(sameDesk_report engine number event).accepting ▸ haccepting, nofun⟩
  | finish outcome => exact ⟨(sameDesk_finish engine outcome).accepting ▸ haccepting, nofun⟩
  | clear => exact ⟨haccepting, nofun⟩
  | setLimit limit => exact ⟨haccepting, nofun⟩
  | activate stack => exact ⟨haccepting, nofun⟩

private theorem closed_of_shutDown (hmoves : engine.isAccepting = false ∨ .shutDown ∈ moves) :
    (engine.applyAll moves).isAccepting = false := by
  induction moves generalizing engine with
  | nil => exact hmoves.resolve_right List.not_mem_nil
  | cons move moves ih =>
    refine ih ?_
    by_contra hnone
    obtain ⟨hopen, hlater⟩ := not_or.mp hnone
    obtain ⟨haccepting, hmove⟩ := engine.isAccepting_apply move (by simpa using hopen)
    rcases hmoves with hclosed | hshut
    · rw [haccepting] at hclosed
      cases hclosed
    · rcases List.mem_cons.mp hshut with hnow | hthen
      · exact hmove hnow.symm
      · exact hlater hthen

theorem submit_of_closed (hclosed : engine.isAccepting = false) (request : Request) :
    engine.submit request = (.error .shutDown, engine) := by
  simp [submit, hclosed]

private theorem accepted_of_closed (hclosed : engine.isAccepting = false) (moves : List Move) :
    engine.accepted moves = [] := by
  have hnone : engine.along receipts moves = [] := by
    induction moves generalizing engine with
    | nil => rfl
    | cons move moves ih =>
      have hlater : (engine.apply move).isAccepting = false := by
        by_contra hopen
        have haccepting := (engine.isAccepting_apply move (by simpa using hopen)).1
        rw [hclosed] at haccepting
        cases haccepting
      have hnow : engine.receipts move = [] := by
        unfold receipts
        split
        · simp [hclosed]
        · rfl
      rw [along, hnow, ih hlater]
      rfl
  rw [accepted, hnone]
  rfl

/-- What is noted of a run and holds at its end. -/
structure Noted (start : Engine) (moves : List Move) : Prop where
  receipted : Receipted (start.along receipts moves) (start.applyAll moves)
  tickets_eq : (start.applyAll moves).tickets = start.accepted moves
  handled_eq : (start.applyAll moves).handled = start.along takes moves
  started : Started (start.begun moves) (start.applyAll moves)
  steady : (start.applyAll moves).Steady
  numbered : (start.applyAll moves).Numbered
  listening : (start.applyAll moves).isListening = true

theorem Fresh.noted (hfresh : start.Fresh) (moves : List Move) : start.Noted moves := by
  induction moves using List.reverseRecOn with
  | nil =>
    have hsteady := hfresh.steady
    have hnumbered := hfresh.numbered
    obtain ⟨registry, routes, defaultStack, limit, capacity, rfl⟩ := hfresh
    exact ⟨⟨List.Pairwise.nil, List.forall_mem_nil _, List.forall_mem_nil _⟩, rfl, rfl,
      ⟨List.Pairwise.nil, List.forall_mem_nil _⟩, hsteady, hnumbered, rfl⟩
  | append_singleton moves move ih =>
    obtain ⟨hreceipted, htickets, hhandled, hstarted, hsteady, hnumbered, hlistening⟩ := ih
    constructor
    · rw [along_concat, applyAll_concat]
      exact hreceipted.apply hlistening move
    · rw [applyAll_concat, tickets_apply hlistening, htickets, ← accepted_append]
    · rw [applyAll_concat, handled_apply, hhandled, ← along_concat]
    · rw [begun, along_concat, applyAll_concat]
      exact hstarted.apply hsteady hnumbered move
    · rw [applyAll_concat]
      exact hsteady.change (hsteady.change_apply move)
    · rw [applyAll_concat]
      exact hnumbered.change (passage_apply _ move)
    · rw [applyAll_concat, isListening_apply]
      exact hlistening

/-- What is said of the submissions of a run and of their answers. -/
structure Accounted (start : Engine) (moves : List Move) : Prop where
  /-- Every submission that the engine looks at has a larger ticket than those before it. -/
  increasing : ((start.along receipts moves).map Prod.fst).Pairwise (· < ·)
  /-- The reply to an accepted submission is its ticket. -/
  replies : ∀ receipt ∈ start.along receipts moves, ∀ reply, receipt.2 = .ok reply → reply = receipt.1
  /-- Each accepted ticket is accepted once, in order. -/
  once : (start.accepted moves).Pairwise (· < ·)
  /-- The answers are those to the first of the accepted tickets, in order, and the others are still to come. -/
  answered : start.accepted moves =
    (start.applyAll moves).answers.map Prod.fst ++ (start.applyAll moves).unanswered.map Job.ticket
  /-- A refused ticket is never accepted, and so neither taken nor answered. -/
  refused : ∀ ticket error, (ticket, .error error) ∈ start.along receipts moves → ticket ∉ start.accepted moves
  /-- The jobs are taken in the same order, each after the answer to the one before. -/
  taken : start.along takes moves =
    (start.applyAll moves).answers.map Prod.fst ++ ((start.applyAll moves).phase.job?.map Job.ticket).toList
  /-- The actions are started in the order of the jobs that they are run for, and for no other jobs. -/
  actions : ((start.begun moves).map fun run => run.job.ticket).Pairwise (· ≤ ·) ∧
    ∀ run ∈ start.begun moves, run.job.ticket ∈ start.along takes moves
  /-- The counter is the number of accepted jobs that have no answer. -/
  counted : (start.applyAll moves).running + (start.applyAll moves).answers.length = (start.accepted moves).length
  /-- The engine says that nothing runs exactly when every accepted job has its answer. -/
  idle : (start.applyAll moves).isRunning = false ↔
    start.accepted moves = (start.applyAll moves).answers.map Prod.fst
  /-- After a shutdown every submission is refused, and nothing else happens. -/
  closed : .shutDown ∈ moves → ∀ request,
    (start.applyAll moves).submit request = (.error .shutDown, start.applyAll moves)
  /-- Whatever happens later, every job that is accepted by now is answered when the worker has made enough steps. -/
  drained : ∃ bound, ∀ later, bound ≤ (start.applyAll moves).effort later →
    ∀ ticket ∈ start.accepted moves, ticket ∈ (start.applyAll (moves ++ later)).answers.map Prod.fst
  /-- After a shutdown the jobs that are accepted by then are all there is to answer. -/
  finished : .shutDown ∈ moves → ∃ bound, ∀ later, bound ≤ (start.applyAll moves).effort later →
    (start.applyAll (moves ++ later)).answers.map Prod.fst = start.accepted moves

private theorem Noted.drained (hnoted : start.Noted moves) (hworking : (start.applyAll moves).Working) :
    ∃ bound, ∀ later, bound ≤ (start.applyAll moves).effort later →
      ∀ ticket ∈ start.accepted moves, ticket ∈ (start.applyAll (moves ++ later)).answers.map Prod.fst := by
  obtain ⟨bound, hbound⟩ := exists_effort hworking hnoted.numbered hnoted.listening
  refine ⟨bound, fun later hlater => ?_⟩
  rw [← hnoted.tickets_eq, applyAll_append]
  exact hbound later hlater

private theorem Numbered.answers_eq (hnumbered : engine.Numbered)
    (hall : ∀ ticket ∈ engine.tickets, ticket ∈ engine.answers.map Prod.fst) :
    engine.answers.map Prod.fst = engine.tickets := by
  have hincreasing := (List.pairwise_append.mp hnumbered.increasing).2.2
  have hnone : engine.unanswered.map Job.ticket = [] := by
    refine List.eq_nil_iff_forall_not_mem.mpr fun ticket hticket => ?_
    have hanswered := hall ticket (List.mem_append_right _ hticket)
    exact absurd (hincreasing ticket hanswered ticket hticket) (Nat.lt_irrefl _)
  rw [tickets, hnone, List.append_nil]

/-- **Submissions and answers** in every run, whatever else happens in it. -/
theorem accounted (hfresh : start.Fresh) (moves : List Move) : start.Accounted moves := by
  have hnoted := hfresh.noted moves
  have hdrained := hnoted.drained (hfresh.working.applyAll moves)
  have hanswered : start.accepted moves =
      (start.applyAll moves).answers.map Prod.fst ++ (start.applyAll moves).unanswered.map Job.ticket :=
    hnoted.tickets_eq.symm
  have hcounted := hnoted.numbered.counted
  exact {
    increasing := hnoted.receipted.increasing
    replies := hnoted.receipted.replies
    once := hnoted.tickets_eq ▸ hnoted.numbered.increasing
    answered := hanswered
    refused := fun ticket error => hnoted.receipted.refused
    taken := hnoted.handled_eq.symm
    actions := ⟨hnoted.started.ordered, hnoted.handled_eq ▸ hnoted.started.taken⟩
    counted := by
      rw [hanswered, List.length_append, List.length_map, List.length_map]
      omega
    idle := by
      rw [hanswered, List.append_right_eq_self, List.map_eq_nil_iff, ← List.length_eq_zero_iff, ← hcounted]
      simp [isRunning]
    closed := fun hshut => submit_of_closed (closed_of_shutDown (.inr hshut))
    drained := hdrained
    finished := by
      intro hshut
      obtain ⟨bound, hbound⟩ := hdrained
      refine ⟨bound, fun later hlater => ?_⟩
      have hnever : start.accepted (moves ++ later) = start.accepted moves := by
        rw [accepted_append, accepted_of_closed (closed_of_shutDown (.inr hshut)), List.append_nil]
      have hlast := hfresh.noted (moves ++ later)
      rw [hlast.numbered.answers_eq ?_, hlast.tickets_eq, hnever]
      rw [hlast.tickets_eq, hnever]
      exact hbound later hlater }

/-- While the first action runs, a request with a scope that has no name is refused, a jump is accepted, everything is
cleared, and the engine is shut down before one more request is made. -/
def lastOrders : List Move :=
  underway (.execute (sampleCommand 0)) ++
    [.submit (.undo (some (.areas 1))), .submit (.jump none), .clear, .shutDown, .submit (.redo none), success, .advance]

/-- The jump has the third ticket and is answered all the same; the last request has no ticket. -/
theorem accounted_lastOrders :
    sampleEngine.Accounted lastOrders ∧ (sampleEngine.along receipts lastOrders).map Prod.fst = [1, 2, 3] ∧
      sampleEngine.accepted lastOrders = [1, 3] ∧
      (sampleEngine.applyAll lastOrders).answers = [(1, .ok .null), (3, .error .cancelled)] ∧
      (sampleEngine.applyAll lastOrders).isRunning = false :=
  ⟨accounted sampleEngine_fresh lastOrders, rfl, rfl, rfl, rfl⟩

end Engine

end Retrace
