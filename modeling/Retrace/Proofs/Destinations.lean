import Retrace.Proofs.Integrity
import Retrace.Proofs.Refusals
import Retrace.Proofs.Verdicts

/-!
# Where commands are recorded

The stack of a command is settled when it is submitted: the one it names, else that of the first route with an area in
common, else the active one. A route for a scope that has one already takes its place and comes after all others. So the
choice is told from the routes in the order in which they were laid, of which only those count that no later one has
replaced; nothing that happens to the engine afterwards changes it.
-/

namespace Retrace

/-! ### Areas in common -/

/-- Whether two scopes have an area in common, neither of them being everything. -/
def Scope.SharesArea (first second : Scope) : Prop :=
  ∃ left right position, first = .areas left ∧ second = .areas right ∧
    left.getLsbD position = true ∧ right.getLsbD position = true

theorem Scope.selects_iff_sharesArea {left right : BitVec 32} :
    (areas left).selects (areas right) = true ↔ (areas right).SharesArea (areas left) := by
  rw [areas_selects_areas, bne_iff_ne]
  constructor
  · intro hcommon
    by_contra hnone
    refine hcommon (BitVec.eq_of_getLsbD_eq fun position _ => ?_)
    rw [BitVec.getLsbD_and, BitVec.getLsbD_zero]
    by_contra hboth
    rw [Bool.not_eq_false, Bool.and_eq_true] at hboth
    exact hnone ⟨right, left, position, rfl, rfl, hboth.2, hboth.1⟩
  · rintro ⟨first, second, position, hfirst, hsecond, hleft, hright⟩ hnone
    obtain rfl := areas.inj hfirst
    obtain rfl := areas.inj hsecond
    have hboth := congrArg (fun bits : BitVec 32 => bits.getLsbD position) hnone
    simp [BitVec.getLsbD_and, hleft, hright] at hboth

/-! ### Routes and their replacements -/

namespace Route

variable {laid : List Route} {route first : Route} {holds : Scope → Prop}

def surviving : List Route → List Route
  | [] => []
  | route :: later =>
    if ∃ other ∈ later, other.scope = route.scope then surviving later else route :: surviving later

/-- The first of the routes with a property of their scopes, not counting those that a later one has replaced. -/
def Prevails (holds : Scope → Prop) (laid : List Route) (route : Route) : Prop :=
  ∃ front back : List Route, laid = front ++ route :: back ∧ holds route.scope ∧
    (∀ later ∈ back, later.scope ≠ route.scope) ∧
    ∀ (before : List Route) (earlier : Route) (after : List Route), front = before ++ earlier :: after →
      holds earlier.scope → ∃ later ∈ after ++ route :: back, later.scope = earlier.scope

theorem surviving_concat (laid : List Route) (route : Route) :
    surviving (laid ++ [route]) = (surviving laid).filter (fun other => other.scope != route.scope) ++ [route] := by
  induction laid with
  | nil => rfl
  | cons first laid ih =>
    rw [List.cons_append, surviving, surviving]
    by_cases hreplaced : ∃ other ∈ laid, other.scope = first.scope
    · have hlater : ∃ other ∈ laid ++ [route], other.scope = first.scope := by
        obtain ⟨other, hmem, hsame⟩ := hreplaced
        exact ⟨other, List.mem_append_left _ hmem, hsame⟩
      rw [if_pos hlater, if_pos hreplaced, ih]
    · rw [if_neg hreplaced, List.filter_cons]
      by_cases hsame : route.scope = first.scope
      · -- now it is the new route that replaces the first one
        have hlater : ∃ other ∈ laid ++ [route], other.scope = first.scope :=
          ⟨route, List.mem_append_right _ List.mem_cons_self, hsame⟩
        rw [if_pos hlater, if_neg (by simp [hsame]), ih]
      · have hlater : ¬ ∃ other ∈ laid ++ [route], other.scope = first.scope := by
          rintro ⟨other, hmem, hother⟩
          rcases List.mem_append.mp hmem with hold | hnew
          · exact hreplaced ⟨other, hold, hother⟩
          · exact hsame (List.mem_singleton.mp hnew ▸ hother)
        rw [if_neg hlater, if_pos (by simpa using Ne.symm hsame), ih, List.cons_append]

private theorem surviving_of_nodup (hnodup : (laid.map Route.scope).Nodup) : surviving laid = laid := by
  induction laid with
  | nil => rfl
  | cons route laid ih =>
    obtain ⟨hnew, hrest⟩ := List.nodup_cons.mp hnodup
    have hstands : ¬ ∃ other ∈ laid, other.scope = route.scope := by
      rintro ⟨other, hmem, hsame⟩
      exact hnew (hsame ▸ List.mem_map_of_mem hmem)
    rw [surviving, if_neg hstands, ih hrest]

private theorem prevails_cons_of_passed
    (hpassed : (∃ later ∈ laid, later.scope = first.scope) ∨ ¬ holds first.scope) :
    Prevails holds (first :: laid) route ↔ Prevails holds laid route := by
  constructor
  · rintro ⟨front, back, hlaid, hholds, hlast, hfirst⟩
    rcases List.cons_eq_append_iff.mp hlaid with ⟨-, hhead⟩ | ⟨front, rfl, rfl⟩
    · obtain ⟨rfl, rfl⟩ := List.cons.inj hhead
      rcases hpassed with ⟨later, hmem, hsame⟩ | hnot
      · exact absurd hsame (hlast later hmem)
      · exact absurd hholds hnot
    · refine ⟨front, back, rfl, hholds, hlast, fun before earlier after hfront => ?_⟩
      exact hfirst (first :: before) earlier after (by rw [hfront]; rfl)
  · rintro ⟨front, back, rfl, hholds, hlast, hfirst⟩
    refine ⟨first :: front, back, rfl, hholds, hlast, fun before earlier after hfront hearlier => ?_⟩
    rcases List.cons_eq_append_iff.mp hfront with ⟨-, hhead⟩ | ⟨before, -, hrest⟩
    · obtain ⟨rfl, rfl⟩ := List.cons.inj hhead
      exact hpassed.resolve_right (not_not.mpr hearlier)
    · exact hfirst before earlier after hrest hearlier

private theorem prevails_cons_of_first (hstands : ¬ ∃ later ∈ laid, later.scope = first.scope)
    (hholds : holds first.scope) : Prevails holds (first :: laid) route ↔ first = route := by
  constructor
  · rintro ⟨front, back, hlaid, -, -, hfirst⟩
    rcases List.cons_eq_append_iff.mp hlaid with ⟨-, hhead⟩ | ⟨front, rfl, rfl⟩
    · exact (List.cons.inj hhead).1.symm
    · exact absurd (hfirst [] first front rfl hholds) hstands
  · rintro rfl
    refine ⟨[], laid, rfl, hholds, fun later hmem hsame => hstands ⟨later, hmem, hsame⟩, ?_⟩
    intro before earlier after hfront
    simp at hfront

private theorem find?_surviving_iff (select : Scope → Bool) :
    (surviving laid).find? (fun route => select route.scope) = some route ↔
      Prevails (fun scope => select scope = true) laid route := by
  induction laid with
  | nil => simp [surviving, Prevails]
  | cons first laid ih =>
    rw [surviving]
    split_ifs with hreplaced
    · rw [ih, prevails_cons_of_passed (.inl hreplaced)]
    · rw [List.find?_cons]
      split
      · next hselects => rw [prevails_cons_of_first hreplaced hselects, Option.some.injEq]
      · next hselects => rw [ih, prevails_cons_of_passed (.inr (by simp [hselects]))]

private theorem find?_surviving_eq_none_iff (select : Scope → Bool) :
    (surviving laid).find? (fun route => select route.scope) = none ↔ ∀ route ∈ laid, ¬ select route.scope = true := by
  induction laid with
  | nil => simp [surviving]
  | cons first laid ih =>
    rw [surviving, List.forall_mem_cons, ← ih]
    split_ifs with hreplaced
    · obtain ⟨other, hmem, hsame⟩ := hreplaced
      refine ⟨fun hnone => ⟨?_, hnone⟩, And.right⟩
      rw [← hsame]
      exact ih.mp hnone other hmem
    · rw [List.find?_cons]
      cases select first.scope <;> simp

theorem Prevails.congr {other : Scope → Prop} (hsame : ∀ route ∈ laid, holds route.scope ↔ other route.scope) :
    Prevails holds laid route ↔ Prevails other laid route := by
  refine exists_congr fun front => exists_congr fun back => and_congr_right fun hlaid => ?_
  subst hlaid
  refine and_congr (hsame route (List.mem_append_right _ List.mem_cons_self)) (and_congr_right fun _ => ?_)
  refine forall₃_congr fun before earlier after => forall_congr' fun hfront => ?_
  have hmem : earlier ∈ front := by rw [hfront]; exact List.mem_append_right _ List.mem_cons_self
  exact imp_congr_left (hsame earlier (List.mem_append_left _ hmem))

end Route

/-! ### The stack of a command -/

/-- The stack on which a command is to be recorded, from the routes in the order in which they were laid and the stack
that is active. -/
inductive Destined (laid : List Route) (active : StackId) (command : Command) : StackId → Prop where
  | named (stack : StackId) (hnamed : command.stack = some stack) : Destined laid active command stack
  | routed (hnamed : command.stack = none) (route : Route)
      (hprevails : Route.Prevails command.scope.SharesArea laid route) : Destined laid active command route.stack
  | active (hnamed : command.stack = none) (hunrouted : ∀ route ∈ laid, ¬ command.scope.SharesArea route.scope) :
      Destined laid active command active

namespace Engine

variable {engine after start : Engine} {move : Move} {moves : List Move} {run : Run} {command : Command}
  {stack : StackId} {ticket : Ticket} {laid : List Route}

def lays (engine : Engine) : Move → List Route
  | .route scope stack =>
    match (engine.route scope stack).1 with
    | .ok () => [⟨scope, stack⟩]
    | .error _ => []
  | _ => []

/-- The routes of an engine are those that have been laid and not replaced. -/
structure Laid (engine : Engine) (laid : List Route) : Prop where
  routes_eq : engine.routes = Route.surviving laid
  specific : ∀ route ∈ laid, ∃ bits, route.scope = .areas bits

theorem Laid.selects_iff (hlaid : engine.Laid laid) (bits : BitVec 32) {route : Route} (hroute : route ∈ laid) :
    route.scope.selects (.areas bits) = true ↔ (Scope.areas bits).SharesArea route.scope := by
  obtain ⟨other, hscope⟩ := hlaid.specific route hroute
  rw [hscope, Scope.selects_iff_sharesArea]

private theorem Laid.routed?_eq_some_iff (hlaid : engine.Laid laid) (scope : Scope) :
    engine.routed? scope = some stack ↔ ∃ route, Route.Prevails scope.SharesArea laid route ∧ route.stack = stack := by
  cases scope with
  | all =>
    refine ⟨nofun, ?_⟩
    rintro ⟨route, ⟨-, -, -, ⟨left, -, -, hall, -⟩, -⟩, -⟩
    cases hall
  | areas bits =>
    have hprevails : ∀ route, engine.routes.find? (fun route => route.scope.selects (.areas bits)) = some route ↔
        Route.Prevails (Scope.areas bits).SharesArea laid route := by
      intro route
      rw [hlaid.routes_eq, Route.find?_surviving_iff fun scope => scope.selects (.areas bits)]
      exact Route.Prevails.congr fun route hroute => hlaid.selects_iff bits hroute
    simp only [routed?, Option.map_eq_some_iff, hprevails]

private theorem Laid.routed?_eq_none_iff (hlaid : engine.Laid laid) (scope : Scope) :
    engine.routed? scope = none ↔ ∀ route ∈ laid, ¬ scope.SharesArea route.scope := by
  cases scope with
  | all =>
    refine ⟨fun _ route _ hshares => ?_, fun _ => rfl⟩
    obtain ⟨left, -, -, hall, -⟩ := hshares
    cases hall
  | areas bits =>
    simp only [routed?, Option.map_eq_none_iff, hlaid.routes_eq]
    rw [Route.find?_surviving_eq_none_iff fun scope => scope.selects (.areas bits)]
    exact forall₂_congr fun route hroute => not_congr (hlaid.selects_iff bits hroute)

theorem Laid.destined_iff (hlaid : engine.Laid laid) :
    Destined laid engine.history.active command stack ↔ engine.stackFor command = stack := by
  unfold stackFor
  constructor
  · intro hdestined
    cases hdestined with
    | named _ hnamed => rw [hnamed]
    | routed hnamed route hprevails =>
      rw [hnamed, (hlaid.routed?_eq_some_iff _).mpr ⟨route, hprevails, rfl⟩]
      rfl
    | active hnamed hunrouted =>
      rw [hnamed, (hlaid.routed?_eq_none_iff _).mpr hunrouted]
      rfl
  · rintro rfl
    cases hnamed : command.stack with
    | some stack => exact .named stack hnamed
    | none =>
      dsimp only
      cases hrouted : engine.routed? command.scope with
      | none => exact .active hnamed ((hlaid.routed?_eq_none_iff _).mp hrouted)
      | some stack =>
        obtain ⟨route, hprevails, rfl⟩ := (hlaid.routed?_eq_some_iff _).mp hrouted
        exact .routed hnamed route hprevails

theorem Laid.frame (hlaid : engine.Laid laid) (hroutes : after.routes = engine.routes) : after.Laid laid :=
  ⟨hroutes.trans hlaid.routes_eq, hlaid.specific⟩

private theorem route_of_accepted {scope : Scope} (haccepted : (engine.route scope stack).1 = .ok ()) :
    (∃ bits, scope = .areas bits) ∧ (engine.route scope stack).2.routes =
      (engine.routes.filter fun route => route.scope != scope) ++ [⟨scope, stack⟩] := by
  unfold route at haccepted ⊢
  split at haccepted
  · cases haccepted
  · split_ifs at haccepted ⊢ with hgeneral
    refine ⟨?_, rfl⟩
    cases scope with
    | all => exact absurd rfl hgeneral
    | areas bits => exact ⟨bits, rfl⟩

private theorem Laid.route (hlaid : engine.Laid laid) (scope : Scope) (stack : StackId) :
    (engine.route scope stack).2.Laid (laid ++ engine.lays (.route scope stack)) := by
  unfold lays
  dsimp only
  cases hreply : (engine.route scope stack).1 with
  | error error =>
    rw [route_of_refused hreply, List.append_nil]
    exact hlaid
  | ok =>
    obtain ⟨hspecific, hroutes⟩ := route_of_accepted hreply
    constructor
    · rw [hroutes, Route.surviving_concat, hlaid.routes_eq]
    · intro route hroute
      rcases List.mem_append.mp hroute with hold | hnew
      · exact hlaid.specific route hold
      · rw [List.mem_singleton.mp hnew]
        exact hspecific

theorem Laid.apply (hlaid : engine.Laid laid) (move : Move) : (engine.apply move).Laid (laid ++ engine.lays move) := by
  have haside : engine.lays move = [] → (engine.apply move).routes = engine.routes →
      (engine.apply move).Laid (laid ++ engine.lays move) := by
    intro hlays hroutes
    rw [hlays, List.append_nil]
    exact hlaid.frame hroutes
  cases move with
  | submit request =>
    obtain ⟨waiting, queue, nextTicket, running, hsubmit⟩ := exists_submit_eq engine request
    refine haside rfl ?_
    show (engine.submit request).2.routes = _
    rw [hsubmit]
  | clear => exact haside rfl rfl
  | setLimit limit => exact haside rfl rfl
  | activate stack => exact haside rfl rfl
  | route scope stack => exact hlaid.route scope stack
  | shutDown => exact haside rfl rfl
  | advance => exact haside rfl (sameDesk_advance engine).routes
  | report number event => exact haside rfl (sameDesk_report engine number event).routes
  | finish outcome => exact haside rfl (sameDesk_finish engine outcome).routes

theorem Laid.applyAll (hlaid : engine.Laid laid) (moves : List Move) :
    (engine.applyAll moves).Laid (laid ++ engine.along lays moves) := by
  induction moves generalizing engine laid with
  | nil =>
    rw [along, List.append_nil]
    exact hlaid
  | cons move moves ih =>
    rw [along, ← List.append_assoc]
    exact ih (hlaid.apply move)

/-! ### The job of a command -/

private theorem Situation.job_eq {job : Job} {deeds : List Block} (hsituation : Situation job deeds engine)
    (hnumbered : engine.Numbered) (hacting : engine.phase = .acting run) (hticket : run.job.ticket = job.ticket) :
    run.job = job := by
  have hrun : run.job ∈ engine.unanswered := mem_unanswered_of_job (by rw [hacting]; rfl)
  have hother : ∀ {phase : Phase}, engine.phase = phase → phase ≠ .acting run → run.job = job :=
    fun hphase hne => absurd (hphase.symm.trans hacting) hne
  cases hsituation with
  | waiting hwaiting => exact hnumbered.eq_of_ticket (mem_unanswered_of_queue hwaiting) hrun hticket
  | choosing way hphase => exact hother hphase nofun
  | acting other hphase hjob =>
    obtain rfl := Phase.acting.inj (hphase.symm.trans hacting)
    exact hjob
  | resting walk hphase => exact hother hphase nofun
  | answered result hanswer => exact absurd hticket (hnumbered.not_answered hrun hanswer).ne'

/-- The action for an execution is that of its command, on the stack that was settled. -/
def Obeys (engine : Engine) : Prop :=
  ∀ run, engine.phase.run? = some run → ∀ command stack, run.job.goal = .execute command stack →
    run.step = ⟨command, stack, .execute⟩

theorem Obeys.change (hobeys : engine.Obeys) (hchange : engine.Change move after) : after.Obeys := by
  intro run hrun command stack hgoal
  rcases hchange.started hrun with hsame | ⟨-, horigin⟩
  · exact hobeys run hsame command stack hgoal
  · cases horigin with
    | submitted hoperation _ hsubmitted =>
      obtain ⟨hcommand, hstack⟩ := Goal.execute.inj (hgoal.symm.trans hsubmitted)
      rw [hcommand, hstack, ← hoperation]
    | recorded _ hnone =>
      rw [hgoal] at hnone
      cases hnone

private theorem Fresh.obeys (hfresh : start.Fresh) (moves : List Move) : (start.applyAll moves).Obeys := by
  induction moves using List.reverseRecOn with
  | nil =>
    obtain ⟨registry, routes, defaultStack, limit, capacity, rfl⟩ := hfresh
    intro run hrun
    cases hrun
  | append_singleton moves move ih =>
    rw [applyAll_concat]
    exact ih.change ((hfresh.steady.applyAll moves).change_apply move)

theorem generation_apply (engine : Engine) (move : Move) :
    (engine.apply move).generation = engine.generation + [move].count .clear := by
  cases move with
  | submit request =>
    obtain ⟨waiting, queue, nextTicket, running, hsubmit⟩ := exists_submit_eq engine request
    show (engine.submit request).2.generation = _
    rw [hsubmit]
    rfl
  | clear => rfl
  | setLimit limit => rfl
  | activate stack => rfl
  | route scope stack =>
    obtain ⟨routes, hroute⟩ := exists_route_eq engine scope stack
    show (engine.route scope stack).2.generation = _
    rw [hroute]
    rfl
  | shutDown => rfl
  | advance => exact (sameDesk_advance engine).generation
  | report number event => exact (sameDesk_report engine number event).generation
  | finish outcome => exact (sameDesk_finish engine outcome).generation

theorem generation_applyAll (engine : Engine) (moves : List Move) :
    (engine.applyAll moves).generation = engine.generation + moves.count .clear := by
  induction moves generalizing engine with
  | nil => rfl
  | cons move moves ih =>
    rw [applyAll_cons, ih, generation_apply, Nat.add_assoc, ← List.count_append, List.singleton_append]

/-- A command has been recorded on a stack: it is the last that is applied there and nothing can be redone, and no other
stack is touched. -/
structure Recorded (before after : History) (stack : StackId) (command : Command) : Prop where
  after_eq : after = before.record stack command
  last : (after.past stack).getLast? = some command
  ahead : after.future stack = []
  others : ∀ other, other ≠ stack → after.past other = before.past other ∧ after.future other = before.future other

private theorem recorded_record {history : History} (hsound : history.Sound) (stack : StackId) (command : Command) :
    Recorded history (history.record stack command) stack command := by
  have hlists := hsound.lists_record stack command
  obtain ⟨hlast, hahead⟩ := Stack.within_concat history.limit (history.past stack) command
  constructor
  · rfl
  · rw [History.past_of_lists ((hlists stack).trans (if_pos rfl))]
    exact hlast
  · rw [History.future_of_lists ((hlists stack).trans (if_pos rfl))]
    exact hahead
  · intro other hother
    exact Prod.mk.inj ((hlists other).trans (if_neg hother))

theorem history_finish_execute (hacting : engine.phase = .acting run) (hstep : run.step = ⟨command, stack, .execute⟩)
    (outcome : Outcome) : (engine.finish outcome).history =
      if outcome.isValue = true ∧ command.isQuery = false ∧ engine.generation = run.job.generation then
        engine.history.record stack command
      else engine.history := by
  have heffect : engine.generation = run.job.generation → (engine.takeEffect run).1 =
      if command.isQuery then engine.history else engine.history.record stack command := by
    intro hcurrent
    rw [takeEffect_of_execute hcurrent (by rw [hstep]), hstep]
  rw [(finish_of_acting hacting outcome).2.1, Outcome.succeeded_settle]
  by_cases hcurrent : engine.generation = run.job.generation
  · rw [heffect hcurrent]
    cases outcome.isValue <;> cases command.isQuery <;> simp [hcurrent]
  · rw [takeEffect_of_stale hcurrent]
    simp [hcurrent]

theorem exists_finish {journal : Journal} {block : Block} (hblock : block ∈ (journal.keep engine moves).blocks)
    (hnew : block ∉ journal.blocks) : ∃ middle rest, moves = middle ++ .finish block.outcome :: rest ∧
      (engine.applyAll middle).phase = .acting block.run := by
  induction moves generalizing engine journal with
  | nil => exact absurd hblock hnew
  | cons move moves ih =>
    by_cases hnow : block ∈ (journal.note engine move).blocks
    · rcases journal.blocks_note_cases engine move with hsame | ⟨run, outcome, hacting, rfl, hblocks⟩
      · exact absurd (hsame ▸ hnow) hnew
      · rw [hblocks] at hnow
        obtain rfl := List.mem_singleton.mp ((List.mem_append.mp hnow).resolve_left hnew)
        exact ⟨[], moves, rfl, hacting⟩
    · obtain ⟨middle, rest, rfl, hacting⟩ := ih hblock hnow
      exact ⟨move :: middle, rest, rfl, hacting⟩

/-! ### Whole runs -/

/-- What becomes of an accepted command, once its stack is settled. -/
structure Settled (start : Engine) (before : List Move) (command : Command) (ticket : Ticket) (stack : StackId)
    (later : List Move) : Prop where
  /-- When its action ends with a value, the command is recorded on that stack, unless it is a query or a clear came in
  between; at any other end of its action the history stays as it is. -/
  ended : ∀ (middle rest : List Move) (outcome : Outcome) (run : Run), later = middle ++ .finish outcome :: rest →
    let reached := start.applyAll (before ++ .submit (.execute command) :: middle)
    reached.phase = .acting run → run.job.ticket = ticket →
      run.step = ⟨command, stack, .execute⟩ ∧
        (outcome.isValue = true ∧ command.isQuery = false ∧ .clear ∉ middle →
          Recorded reached.history (reached.apply (.finish outcome)).history stack command) ∧
        (¬ (outcome.isValue = true ∧ command.isQuery = false ∧ .clear ∉ middle) →
          (reached.apply (.finish outcome)).history = reached.history)
  /-- When the job is answered with a value, its action has ended with it. -/
  answered : ∀ value, (start.applyAll (before ++ .submit (.execute command) :: later)).answer? ticket = some (.ok value) →
    ∃ (middle rest : List Move) (run : Run), later = middle ++ .finish (.returned (.ok value)) :: rest ∧
      (start.applyAll (before ++ .submit (.execute command) :: middle)).phase = .acting run ∧ run.job.ticket = ticket

theorem Verdict.single_of_value {job : Job} {deeds : List Block} {result : ActionResult}
    (hverdict : Verdict job deeds result) (hgoal : ∀ target, job.goal ≠ .jump target) {value : Json}
    (hvalue : result = .ok value) : ∃ block, deeds = [block] ∧ block.outcome = .returned (.ok value) := by
  have hjump : ¬ Walked job deeds := fun hwalked => hwalked.jump.elim hgoal
  cases hverdict with
  | discarded => cases hvalue
  | unmoved hunmoved =>
    subst hvalue
    cases hunmoved
  | single _ block => exact ⟨block, rfl, Outcome.settle_eq_ok_iff.mp hvalue⟩
  | settled hwalked => exact absurd hwalked hjump
  | givenUp => cases hvalue
  | stumbled hwalked => exact absurd hwalked.jump (not_exists.mpr hgoal)

private theorem Fresh.settled (hfresh : start.Fresh) (before : List Move)
    (haccepted : ((start.applyAll before).submit (.execute command)).1 = .ok ticket) (later : List Move) :
    start.Settled before command ticket ((start.applyAll before).stackFor command) later := by
  have hgoal : ∀ {goal}, (start.applyAll before).goalFor (.execute command) = .ok goal →
      goal = .execute command ((start.applyAll before).stackFor command) := eq_of_checked
  constructor
  · rintro middle rest outcome run rfl reached hacting hticket
    obtain ⟨goal, hfound, hsituation⟩ := hfresh.situation before haccepted middle
    have hjob := hsituation.job_eq (hfresh.numbered.applyAll _) hacting hticket
    have hstep := hfresh.obeys (before ++ .submit (.execute command) :: middle) run (by rw [hacting]; rfl) command
      ((start.applyAll before).stackFor command) (by rw [hjob, hgoal hfound])
    have hgeneration : reached.generation = (start.applyAll before).generation + middle.count .clear := by
      show (start.applyAll _).generation = _
      rw [applyAll_append, generation_applyAll, List.count_cons_of_ne (by simp)]
    have hcurrent : reached.generation = run.job.generation ↔ .clear ∉ middle := by
      rw [hjob, hgeneration, Nat.add_eq_left, List.count_eq_zero]
    have hsound : reached.history.Sound := (hfresh.steady.applyAll _).sound
    have hended : (reached.apply (.finish outcome)).history = _ := history_finish_execute hacting hstep outcome
    rw [← hcurrent, hended]
    refine ⟨hstep, fun hrecorded => ?_, fun hkept => if_neg hkept⟩
    rw [if_pos hrecorded]
    exact recorded_record hsound _ command
  · intro value hanswer
    obtain ⟨goal, hfound, hsituation⟩ := hfresh.situation before haccepted later
    have hverdict := hsituation.verdict (hfresh.numbered.applyAll _) hanswer
    have hjump : ∀ target, goal ≠ .jump target := by rw [hgoal hfound]; nofun
    obtain ⟨block, hdeeds, houtcome⟩ := hverdict.single_of_value hjump rfl
    have hdeed : block ∈ start.deedsOf (before ++ .submit (.execute command) :: later) ticket := by
      rw [hdeeds]
      exact List.mem_cons_self
    obtain ⟨hblock, hticket⟩ := List.mem_filter.mp hdeed
    have hnew : block ∉ (start.journal before).blocks := by
      intro hold
      obtain ⟨-, -, hnumber, -⟩ := admitted_of_submit haccepted
      have hearly : block ∈ start.deedsOf before ticket := List.mem_filter.mpr ⟨hold, hticket⟩
      rw [hnumber, hfresh.deedsOf_eq_nil] at hearly
      cases hearly
    rw [journal_submit] at hblock
    obtain ⟨middle, rest, rfl, hacting⟩ := exists_finish hblock hnew
    rw [houtcome]
    refine ⟨middle, rest, block.run, rfl, ?_, of_decide_eq_true hticket⟩
    rw [applyAll_append, applyAll_cons]
    exact hacting

theorem laid_of_startEngine {config : Config} (hstart : config.startEngine = .ok start) :
    start.Fresh ∧ start.Laid start.routes ∧
      List.Forall₂ (fun entry route => start.registry.scope entry.1 = .ok route.scope ∧ route.stack = ⟨entry.2⟩)
        config.routes.entries start.routes := by
  cases hvalid : config.validate with
  | error error =>
    unfold Config.startEngine at hstart
    rw [hvalid] at hstart
    cases hstart
  | ok registry =>
    obtain ⟨hproper, hroutes⟩ := Config.checked_of_validate hvalid
    have hnames : ∀ entry ∈ config.routes.entries, entry.1 ∈ registry.names :=
      fun entry => Config.mem_names_of_checkRoutes hroutes
    rw [Config.startEngine_eq hvalid] at hstart
    obtain rfl := Except.ok.inj hstart
    refine ⟨⟨_, _, _, _, _, rfl⟩, ⟨?_, ?_⟩, ?_⟩
    · exact (Route.surviving_of_nodup (Config.nodup_scopes hproper hnames)).symm
    · intro route hroute
      obtain ⟨entry, -, rfl⟩ := List.mem_map.mp hroute
      exact ⟨_, rfl⟩
    · refine List.forall₂_map_right_iff.mpr (List.forall₂_same.mpr fun entry hentry => ⟨?_, rfl⟩)
      exact hproper.scope_eq (hnames entry hentry)

/-- **The stack of a command is settled at its submission**, by one order of precedence: the stack it names, the first
route with an area in common that no later one has replaced, the active stack. The routes of the settings come before
those that were laid later, in the order of their names. Whatever happens after the submission, the command is recorded
on this stack and on no other. -/
theorem destination_settled {config : Config} (hstart : config.startEngine = .ok start) (before : List Move)
    (haccepted : ((start.applyAll before).submit (.execute command)).1 = .ok ticket) :
    config.routes.entries.Pairwise (fun first second => Text.before first.1 second.1 = true) ∧
      List.Forall₂ (fun entry route => start.registry.scope entry.1 = .ok route.scope ∧ route.stack = ⟨entry.2⟩)
        config.routes.entries start.routes ∧
      ∃ stack, (∀ other, Destined (start.routes ++ start.along lays before) (start.applyAll before).history.active command
          other ↔ other = stack) ∧
        ∀ later, start.Settled before command ticket stack later := by
  obtain ⟨hfresh, hlaid, hconfigured⟩ := laid_of_startEngine hstart
  refine ⟨config.routes.sorted, hconfigured, (start.applyAll before).stackFor command, fun other => ?_, ?_⟩
  · exact (hlaid.applyAll before).destined_iff.trans eq_comm
  · exact hfresh.settled before haccepted

/-- The route of the settings is replaced when another one for an area of it has been laid, and further routes are laid
while the command waits. -/
def rerouted : List Move :=
  [.route (.areas 3) ⟨"both"⟩, .route (.areas 2) ⟨"late"⟩, .submit (.execute (scopedCommand 0 (.areas 2))),
    .route (.areas 3) ⟨"other"⟩, .activate (some ⟨"side"⟩), .advance, .advance, success]

/-- The command is recorded on the stack of the route that came first when it was submitted. -/
theorem destination_settled_rerouted :
    ∃ start, routedSettings.startEngine = .ok start ∧
      ((start.applyAll (rerouted.take 2)).submit (.execute (scopedCommand 0 (.areas 2)))).1 = .ok 1 ∧
      (∃ stack, (∀ other, Destined (start.routes ++ start.along lays (rerouted.take 2))
          (start.applyAll (rerouted.take 2)).history.active (scopedCommand 0 (.areas 2)) other ↔ other = stack) ∧
        ∀ later, start.Settled (rerouted.take 2) (scopedCommand 0 (.areas 2)) 1 stack later) ∧
      (start.applyAll rerouted).history.past ⟨"both"⟩ = [scopedCommand 0 (.areas 2)] := by
  have hvalid : routedSettings.validate = .ok ⟨["plan", "budget"]⟩ := by rfl
  have hstart := Config.startEngine_eq hvalid
  refine ⟨_, hstart, rfl, ?_, rfl⟩
  exact (destination_settled hstart (rerouted.take 2) rfl).2.2

end Engine

end Retrace
