import Retrace.Proofs.Refinement

/-!
# Undos and redos that do not fail

A host can be audited: a mark beside its world is lost with the first action of an undo or a redo that fails,
and nothing else is different. As long as the mark is there, no such failure has been announced.
-/

namespace Retrace

def EngineEvent.isFault : EngineEvent → Bool
  | .completed _ _ operation (some _) => operation != .execute
  | _ => false

namespace Engine

/-- No undo or redo that failed has been announced. -/
def Faultless (engine : Engine) : Prop := ∀ event ∈ engine.bus.published, event.isFault = false

variable {engine ready after : Engine} {run : Run}

theorem Faultless.publish (hfaultless : engine.Faultless) {events : List EngineEvent}
    (hevents : ∀ event ∈ events, event.isFault = false)
    (hpublished : after.bus.published = engine.bus.published ++ events) : after.Faultless := by
  intro event hmem
  rw [hpublished] at hmem
  rcases List.mem_append.mp hmem with hold | hnew
  · exact hfaultless event hold
  · exact hevents event hnew

theorem isFault_around {step : Step} {active : Bool} {event : EngineEvent} (hmem : event ∈ around step active) :
    event.isFault = false := by
  unfold around at hmem
  split at hmem
  · cases hmem
  · rw [List.mem_singleton.mp hmem]
    rfl
  · rw [List.mem_singleton.mp hmem]
    rfl

private theorem isFault_closingEvents {step : Step} {result : ActionResult} {changed : Bool} {event : EngineEvent}
    (hgood : step.operation = .execute ∨ Outcome.succeeded result = true)
    (hmem : event ∈ closingEvents step result changed) : event.isFault = false := by
  unfold closingEvents at hmem
  rcases List.mem_append.mp hmem with hopening | hchanged
  · rcases List.mem_append.mp hopening with haround | hcompleted
    · exact isFault_around haround
    · rw [List.mem_singleton.mp hcompleted]
      cases result with
      | ok value => rfl
      | error error =>
        rcases hgood with hexecute | hsucceeded
        · rw [hexecute]
          rfl
        · cases hsucceeded
  · split_ifs at hchanged
    · rw [List.mem_singleton.mp hchanged]
      rfl
    · cases hchanged

section Worker

variable (hfaultless : ready.Faultless)

include hfaultless

theorem faultless_conclude {result : ActionResult}
    (hgood : run.step.operation = .execute ∨ Outcome.succeeded result = true) :
    (ready.conclude run result).Faultless := by
  have hpublished : ∃ changed, (ready.conclude run result).bus.published =
      ready.bus.published ++ closingEvents run.step result changed := by
    cases result <;> cases hwalk : run.walk <;> simp only [conclude, hwalk] <;> exact ⟨_, rfl⟩
  obtain ⟨changed, hpublished⟩ := hpublished
  exact hfaultless.publish (fun event hmem => isFault_closingEvents hgood hmem) hpublished

private theorem faultless_begin (job : Job) (walk : Option Walk) (step : Step) :
    (ready.begin job walk step).Faultless := by
  have hready : ({ ready with bus := ready.bus.publishAll (around step true) } : Engine).Faultless :=
    hfaultless.publish (fun event hmem => isFault_around hmem) rfl
  unfold begin
  dsimp only
  split_ifs
  · exact faultless_conclude hready (.inr rfl)
  · exact hready

private theorem faultless_choose (job : Job) (way : Option Walk) : (ready.choose job way).Faultless := by
  have hready : ({ ready with waiting := withoutTicket job.ticket ready.waiting } : Engine).Faultless := hfaultless
  have hmove : ∀ operation filter missing, (ready.beginMove job operation filter missing).Faultless := by
    intro operation filter missing
    unfold beginMove
    split
    · exact hfaultless
    · exact faultless_begin hfaultless _ _ _
  unfold choose
  split
  · exact faultless_begin hready _ _ _
  · exact hmove _ _ _
  · exact hmove _ _ _
  · unfold beginJump
    split
    · exact hfaultless
    · split_ifs <;> exact hfaultless
  · unfold continueJump
    split
    · exact hfaultless
    · split_ifs
      · split
        · exact hfaultless
        · exact faultless_begin hfaultless _ _ _
      · split
        · exact hfaultless
        · exact faultless_begin hfaultless _ _ _
      · exact hfaultless

private theorem faultless_advance : ready.advance.Faultless := by
  unfold advance
  split
  · unfold take
    split
    · exact hfaultless
    · dsimp only
      split_ifs <;> exact hfaultless
  · exact faultless_choose hfaultless _ _
  · exact hfaultless
  · unfold resume
    split_ifs <;> exact hfaultless

private theorem faultless_report (number : Nat) (event : ProgressEvent) : (ready.report number event).Faultless := by
  unfold report
  split
  · split_ifs
    · refine hfaultless.publish (fun event hmem => ?_) rfl
      rw [List.mem_singleton.mp hmem]
      rfl
    · exact hfaultless
  · exact hfaultless

private theorem faultless_finish (hphase : ready.phase = .acting run) (outcome : Outcome)
    (hgood : run.step.operation = .execute ∨ Outcome.succeeded (outcome.settle run.step.command.text) = true) :
    (ready.finish outcome).Faultless := by
  have hboard : ∀ statuses, ({ ready with statuses } : Engine).Faultless := fun _ => hfaultless
  rw [finish_eq hphase]
  exact faultless_conclude (hboard _) hgood

private theorem faultless_submit (request : Request) : (ready.submit request).2.Faultless := by
  obtain ⟨waiting, queue, nextTicket, running, hsubmit⟩ := exists_submit_eq ready request
  rw [hsubmit]
  exact hfaultless

private theorem faultless_setLimit (limit : Nat) : (ready.setLimit limit).Faultless := by
  unfold setLimit
  dsimp only
  refine hfaultless.publish (fun event hmem => ?_) rfl
  split_ifs at hmem
  · rw [List.mem_singleton.mp hmem]
    rfl
  · cases hmem

private theorem faultless_route (scope : Scope) (stack : StackId) : (ready.route scope stack).2.Faultless := by
  obtain ⟨routes, hroute⟩ := exists_route_eq ready scope stack
  rw [hroute]
  exact hfaultless

private theorem faultless_directive (directive : Directive) : (ready.apply directive.move).Faultless := by
  have hchanged : ∀ event ∈ [EngineEvent.stateChanged], event.isFault = false := by
    intro event hmem
    rw [List.mem_singleton.mp hmem]
    rfl
  cases directive with
  | request request => exact faultless_submit hfaultless request
  | clear => exact hfaultless.publish hchanged rfl
  | setLimit limit => exact faultless_setLimit hfaultless limit
  | activate stack => exact hfaultless.publish hchanged rfl
  | route scope stack => exact faultless_route hfaultless scope stack

end Worker

end Engine

namespace Host

variable {World : Type} {host : Host World} {engine : Engine} {state : Engine × World} {mark : Bool}

/-- The host with a mark that is lost when an undo or a redo fails. -/
def audited (host : Host World) : Host (World × Bool) where
  perform step world :=
    let done := host.perform step world.1
    { world := (done.world,
        world.2 && (step.operation == .execute || Outcome.succeeded (done.outcome.settle step.command.text)))
      reports := done.reports, outcome := done.outcome }

theorem run_audited (host : Host World) (step : Step) (world : World × Bool) :
    host.audited.run step world =
      ((host.run step world.1).1,
        ((host.run step world.1).2, world.2 && (step.operation == .execute || (host.run step world.1).1))) :=
  rfl

theorem shownBy_audited (host : Host World) : ShownBy Prod.fst host.audited host := fun _ _ => rfl

theorem carryOut_audited (state : Engine × World) (mark : Bool) (directive : Directive) :
    ∃ later, host.audited.carryOut (state.1, state.2, mark) directive =
      ((host.carryOut state directive).1, (host.carryOut state directive).2, later) := by
  have hshown := (shownBy_audited host).carryOut_eq directive state.1 (state.2, mark)
  exact ⟨_, Prod.ext (congrArg Prod.fst hshown).symm (Prod.ext (congrArg Prod.snd hshown).symm rfl)⟩

theorem mark_turn (engine : Engine) (world : World × Bool) (hmark : (host.audited.turn engine world).2.2 = true) :
    world.2 = true := by
  unfold turn at hmark
  split at hmark
  · exact (Bool.and_eq_true_iff.mp hmark).1
  · exact hmark

theorem faultless_turn (hfaultless : engine.Faultless) (world : World × Bool)
    (hmark : (host.audited.turn engine world).2.2 = true) : (host.audited.turn engine world).1.Faultless := by
  unfold turn at hmark ⊢
  split at hmark
  · next run hphase =>
    have hgood := (Bool.and_eq_true_iff.mp hmark).2
    rw [Bool.or_eq_true_iff, beq_iff_eq] at hgood
    have hreported : ∀ (events : List ProgressEvent) (ready : Engine), ready.Faultless →
        (events.foldl (fun engine event => engine.report run.number event) ready).Faultless := by
      intro events
      induction events with
      | nil => exact fun ready hready => hready
      | cons event events ih => exact fun ready hready => ih _ (Engine.faultless_report hready run.number event)
    obtain ⟨-, -, hstill⟩ := foldl_report run.number (host.audited.perform run.step world).reports engine
    exact Engine.faultless_finish (hreported _ engine hfaultless) (hstill.trans hphase) _ hgood
  · exact Engine.faultless_advance hfaultless

private theorem mark_turnUntil (stop : Engine → Bool) (bound : Nat) (engine : Engine) (world : World × Bool)
    (hmark : (host.audited.turnUntil stop bound (engine, world)).2.2 = true) : world.2 = true := by
  induction bound generalizing engine world with
  | zero => exact hmark
  | succ bound ih =>
    rw [turnUntil] at hmark
    split_ifs at hmark
    · exact hmark
    · exact mark_turn engine world (ih _ _ hmark)

private theorem faultless_turnUntil (stop : Engine → Bool) (bound : Nat) (hfaultless : engine.Faultless)
    (world : World × Bool) (hmark : (host.audited.turnUntil stop bound (engine, world)).2.2 = true) :
    (host.audited.turnUntil stop bound (engine, world)).1.Faultless := by
  induction bound generalizing engine world with
  | zero => exact hfaultless
  | succ bound ih =>
    rw [turnUntil] at hmark ⊢
    split_ifs at hmark ⊢
    · exact hfaultless
    · have hnow := mark_turnUntil stop bound _ _ hmark
      exact ih (faultless_turn hfaultless world hnow) _ hmark

/-- A directive that keeps the mark announces no failure. -/
theorem faultless_carryOut (hfaultless : engine.Faultless) (world : World × Bool) (directive : Directive)
    (hmark : (host.audited.carryOut (engine, world) directive).2.2 = true) :
    (host.audited.carryOut (engine, world) directive).1.Faultless :=
  faultless_turnUntil _ _ (Engine.faultless_directive hfaultless directive) world hmark

end Host

end Retrace
