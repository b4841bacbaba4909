import Retrace.Proofs.Watching

/-!
# What the acts of a scene do

A scene has an action that runs from the move that starts it to the first part of its end, and events that the worker has
still to publish for an end. `Course` lists what an act does to the two and what it publishes.
-/

namespace Retrace

def Deed.event? : Deed → Option EngineEvent
  | .publish event => some event
  | _ => none

/-- The command and the progress of an announcement of progress. -/
def EngineEvent.progress? : EngineEvent → Option (CommandId × ProgressEvent)
  | .progress command event => some (command, event)
  | _ => none

/-- Whether a report is made in one go. -/
def Act.isReport : Act → Bool
  | .start _ (.report _ _) => true
  | _ => false

namespace Engine

variable {engine : Engine} {move : Move} {run : Run} {number : Nat}

/-! ### Reports and other moves -/

theorem report_of_acting (hacting : engine.phase = .acting run) (event : ProgressEvent) :
    engine.report run.number event = { engine with
      reports := engine.reports ++ [(run.job.ticket, event)]
      bus := engine.bus.publish (.progress run.step.command.id event) } := by
  simp [report, hacting]

theorem report_of_other (hother : engine.phase.run?.map Run.number ≠ some number) (event : ProgressEvent) :
    engine.report number event = engine := by
  unfold report
  split
  · next run hacting =>
    refine if_neg fun hnumber => hother ?_
    rw [hacting, ← hnumber]
    rfl
  · rfl

private theorem reports_conclude (engine : Engine) (run : Run) (result : ActionResult) :
    (engine.conclude run result).reports = engine.reports := by
  cases result <;> cases hwalk : run.walk <;> simp only [conclude, hwalk] <;> rfl

private theorem reports_begin (engine : Engine) (job : Job) (walk : Option Walk) (step : Step) :
    (engine.begin job walk step).reports = engine.reports := by
  unfold begin
  dsimp only
  split_ifs
  · exact reports_conclude ..
  · rfl

private theorem reports_choose (engine : Engine) (job : Job) (way : Option Walk) :
    (engine.choose job way).reports = engine.reports := by
  have hmove : ∀ operation filter missing, (engine.beginMove job operation filter missing).reports = engine.reports := by
    intro operation filter missing
    unfold beginMove
    split
    · rfl
    · exact reports_begin ..
  unfold choose
  split
  · exact reports_begin ..
  · exact hmove _ _ _
  · exact hmove _ _ _
  · unfold beginJump
    split
    · rfl
    · split_ifs <;> rfl
  · unfold continueJump
    split
    · rfl
    · split_ifs
      · split
        · rfl
        · exact reports_begin ..
      · split
        · rfl
        · exact reports_begin ..
      · rfl

private theorem reports_advance (engine : Engine) : engine.advance.reports = engine.reports := by
  unfold advance
  split
  · unfold take
    split
    · rfl
    · dsimp only
      split_ifs <;> rfl
  · exact reports_choose ..
  · rfl
  · unfold resume
    split_ifs <;> rfl

theorem reports_touch (engine : Engine) (hother : ∀ number event, move ≠ .report number event) :
    (engine.touch move).1.reports = engine.reports := by
  cases move with
  | submit request =>
    obtain ⟨waiting, queue, nextTicket, running, hsubmit⟩ := exists_submit_eq engine request
    rw [show (engine.touch (.submit request)).1 = _ from hsubmit]
  | route scope stack =>
    obtain ⟨routes, hroute⟩ := exists_route_eq engine scope stack
    rw [show (engine.touch (.route scope stack)).1 = _ from hroute]
  | clear => rfl
  | setLimit limit => rfl
  | activate stack => rfl
  | shutDown => rfl
  | advance => exact reports_advance engine
  | report number event => exact absurd rfl (hother number event)
  | finish outcome =>
    cases hphase : engine.phase with
    | acting run => rw [touch_finish hphase]
    | _ => rw [touch_finish_of_idle (by rw [hphase]; rfl)]

private theorem answers_touch (engine : Engine) (move : Move) : engine.answers <+: (engine.touch move).1.answers := by
  cases move with
  | clear => exact List.prefix_refl _
  | setLimit limit => exact List.prefix_refl _
  | activate stack => exact List.prefix_refl _
  | finish outcome =>
    cases hphase : engine.phase with
    | acting run => rw [touch_finish hphase]
    | _ => rw [touch_finish_of_idle (by rw [hphase]; rfl)]
  | submit request => exact (engine.passage_apply (.submit request)).answers_extended
  | route scope stack => exact (engine.passage_apply (.route scope stack)).answers_extended
  | shutDown => exact (engine.passage_apply .shutDown).answers_extended
  | advance => exact (engine.passage_apply .advance).answers_extended
  | report number event => exact (engine.passage_apply (.report number event)).answers_extended

theorem progress?_of_mem_around {step : Step} {active : Bool} {event : EngineEvent} (hmem : event ∈ around step active) :
    event.progress? = none := by
  unfold around at hmem
  split at hmem
  · cases hmem
  · rw [List.mem_singleton.mp hmem]
    rfl
  · rw [List.mem_singleton.mp hmem]
    rfl

theorem progress?_of_mem_closingEvents {step : Step} {result : ActionResult} {changed : Bool} {event : EngineEvent}
    (hmem : event ∈ closingEvents step result changed) : event.progress? = none := by
  rcases List.mem_append.mp hmem with hmem | hmem
  · rcases List.mem_append.mp hmem with hmem | hmem
    · exact progress?_of_mem_around hmem
    · rw [List.mem_singleton.mp hmem]
      rfl
  · split_ifs at hmem
    · rw [List.mem_singleton.mp hmem]
      rfl
    · cases hmem

private theorem event?_lastDeed (run : Run) (result : ActionResult) : (lastDeed run result).event? = none := by
  cases result with
  | error error => rfl
  | ok value => cases hwalk : run.walk <;> simp only [lastDeed, hwalk] <;> rfl

theorem lastDeed_of_over {result : ActionResult} (hover : run.walk = none ∨ Outcome.succeeded result = false) :
    lastDeed run result = .answer run.job result := by
  cases result with
  | error error => rfl
  | ok value =>
    have hwalk : run.walk = none := hover.resolve_right nofun
    simp only [lastDeed, hwalk]

theorem perform_lastDeed (engine : Engine) (run : Run) (result : ActionResult) :
    (engine.perform (lastDeed run result)).phase.run? = none ∧
      (engine.perform (lastDeed run result)).bus = engine.bus ∧
      (engine.perform (lastDeed run result)).runs = engine.runs := by
  cases result with
  | error error => exact ⟨rfl, rfl, rfl⟩
  | ok value => cases hwalk : run.walk <;> simp only [lastDeed, hwalk] <;> exact ⟨rfl, rfl, rfl⟩

end Engine

namespace Scene

variable {scene : Scene} {act : Act} {agent : Agent} {move : Move} {run : Run} {number : Nat}

/-- The action that runs: it has been started, and no part of its end has been made. -/
def running? (scene : Scene) : Option Run :=
  if (scene.owed .worker).isEmpty then scene.engine.phase.run? else none

def pending (scene : Scene) : List EngineEvent := (scene.owed .worker).filterMap Deed.event?

theorem running?_of_nil (howed : scene.owed .worker = []) : scene.running? = scene.engine.phase.run? := by
  rw [running?, howed]
  rfl

theorem running?_of_ne_nil (howed : scene.owed .worker ≠ []) : scene.running? = none :=
  if_neg (mt List.isEmpty_iff.mp howed)

theorem owed_of_running (hrunning : scene.running? = some run) : scene.owed .worker = [] := by
  by_contra howed
  rw [running?_of_ne_nil howed] at hrunning
  cases hrunning

theorem pending_of_nil (howed : scene.owed .worker = []) : scene.pending = [] := by rw [pending, howed]; rfl

theorem pending_of_running (hrunning : scene.running? = some run) : scene.pending = [] :=
  pending_of_nil (owed_of_running hrunning)

/-- What the worker owes is the rest of what closes an action. -/
def Ending (scene : Scene) (run : Run) (events : List EngineEvent) : Prop :=
  scene.engine.phase = .acting run ∧ ∃ result changed, events <:+ Engine.closingEvents run.step result changed ∧
    scene.owed .worker = events.map Deed.publish ++ [Engine.lastDeed run result]

/-- What is kept of a scene, callers owing nothing but that the history has changed. -/
structure Tidy (scene : Scene) : Prop where
  steady : scene.engine.Steady
  callers : ∀ number, ∀ deed ∈ scene.owed (.caller number), deed = .publish .stateChanged
  worker : scene.owed .worker = [] ∨ ∃ run events, scene.Ending run events

theorem pending_of_owed {events : List EngineEvent} {result : ActionResult}
    (howed : scene.owed .worker = events.map Deed.publish ++ [Engine.lastDeed run result]) : scene.pending = events := by
  rw [pending, howed, List.filterMap_append, List.filterMap_cons_none (Engine.event?_lastDeed run result)]
  simp [Function.comp_def, Deed.event?]

theorem owed_pass_caller (scene : Scene) (number : Nat) (engine : Engine) (deeds : List Deed) :
    (scene.pass (.caller number) engine deeds).owed .worker = scene.owed .worker :=
  owed_pass_of_ne scene _ engine deeds nofun

theorem play_receive (scene : Scene) :
    (scene.play .receive).engine = scene.engine ∧ (scene.play .receive).owed = scene.owed := by
  simp only [play]
  split <;> exact ⟨rfl, rfl⟩

/-! ### What an act does -/

/-- What an act does to the action that runs and to the events, reports in one go apart. -/
inductive Course (scene : Scene) (act : Act) (after : Scene) : Prop where
  | quiet (hpublished : after.published = scene.published) (hrunning : after.running? = scene.running?)
      (hpending : after.pending = scene.pending) (hruns : after.engine.runs = scene.engine.runs)
      (hact : ∀ outcome, act = .start .worker (.finish outcome) → scene.running? = none)
  | called (number : Nat) (hact : act = .go (.caller number))
      (hpublished : after.published = scene.published ++ [.stateChanged]) (hrunning : after.running? = scene.running?)
      (hpending : after.pending = scene.pending) (hruns : after.engine.runs = scene.engine.runs)
  | began (run : Run) (hact : act = .start .worker .advance) (hidle : scene.running? = none)
      (hnothing : scene.pending = []) (hrunning : after.running? = some run) (hnumber : run.number = scene.engine.runs)
      (hruns : after.engine.runs = scene.engine.runs + 1)
      (hpublished : after.published = scene.published ++ Engine.around run.step true)
  | ended (run : Run) (outcome : Outcome) (hact : act = .start .worker (.finish outcome))
      (hrunning : scene.running? = some run) (hidle : after.running? = none)
      (hpending : after.pending = Engine.closingEvents run.step (outcome.settle run.step.command.text)
        (scene.engine.alters run outcome))
      (hhistory : after.engine.history = (scene.engine.finish outcome).history)
      (howed : Engine.lastDeed run (outcome.settle run.step.command.text) ∈ after.owed .worker)
      (hruns : after.engine.runs = scene.engine.runs) (hpublished : after.published = scene.published)
  | closed (event : EngineEvent) (hact : act = .go .worker) (hevent : event.progress? = none)
      (hidle : scene.running? = none) (hafter : after.running? = none) (hpending : scene.pending = event :: after.pending)
      (hruns : after.engine.runs = scene.engine.runs) (hpublished : after.published = scene.published ++ [event])

theorem Course.published_extended {after : Scene} (hcourse : scene.Course act after) :
    scene.published <+: after.published := by
  cases hcourse with
  | quiet hpublished => rw [hpublished]
  | called number _ hpublished => exact ⟨_, hpublished.symm⟩
  | began run _ _ _ _ _ _ hpublished => exact ⟨_, hpublished.symm⟩
  | ended run outcome _ _ _ _ _ _ _ hpublished => rw [hpublished]
  | closed event _ _ _ _ _ _ hpublished => exact ⟨_, hpublished.symm⟩

theorem Course.of_same {after : Scene} (hbus : after.published = scene.published)
    (hphase : after.engine.phase = scene.engine.phase) (hruns : after.engine.runs = scene.engine.runs)
    (howed : after.owed .worker = scene.owed .worker)
    (hact : ∀ outcome, act = .start .worker (.finish outcome) → scene.running? = none) : Course scene act after := by
  refine .quiet hbus ?_ ?_ hruns hact
  · rw [running?, running?, howed, hphase]
  · rw [pending, pending, howed]

theorem touch_of_caller (engine : Engine) (hmakes : (Agent.caller number).makes move = true)
    (hother : ∀ number event, move ≠ .report number event) :
    (engine.touch move).1.bus = engine.bus ∧ (engine.touch move).1.phase = engine.phase ∧
      (engine.touch move).1.runs = engine.runs ∧ ∀ deed ∈ (engine.touch move).2, deed = .publish .stateChanged := by
  cases move with
  | submit request =>
    obtain ⟨waiting, queue, nextTicket, running, hsubmit⟩ := Engine.exists_submit_eq engine request
    rw [show engine.touch (.submit request) = ((engine.submit request).2, []) from rfl, hsubmit]
    exact ⟨rfl, rfl, rfl, List.forall_mem_nil _⟩
  | route scope stack =>
    obtain ⟨routes, hroute⟩ := Engine.exists_route_eq engine scope stack
    rw [show engine.touch (.route scope stack) = ((engine.route scope stack).2, []) from rfl, hroute]
    exact ⟨rfl, rfl, rfl, List.forall_mem_nil _⟩
  | clear => exact ⟨rfl, rfl, rfl, fun deed => List.mem_singleton.mp⟩
  | activate stack => exact ⟨rfl, rfl, rfl, fun deed => List.mem_singleton.mp⟩
  | setLimit limit =>
    refine ⟨rfl, rfl, rfl, fun deed hdeed => ?_⟩
    change deed ∈ if 0 < (engine.history.setLimit limit).2 then [Deed.publish .stateChanged] else [] at hdeed
    split_ifs at hdeed
    · exact List.mem_singleton.mp hdeed
    · cases hdeed
  | shutDown => exact ⟨rfl, rfl, rfl, List.forall_mem_nil _⟩
  | report number event => exact absurd rfl (hother number event)
  | advance => cases hmakes
  | finish outcome => cases hmakes

private theorem course_caller (hadmits : scene.admits (.caller number) move = true)
    (hother : ∀ number event, move ≠ .report number event) :
    Course scene (.start (.caller number) move) (scene.play (.start (.caller number) move)) := by
  obtain ⟨hbus, hphase, hruns, -⟩ := touch_of_caller scene.engine (admits_iff hadmits).1 hother
  rw [play_start hadmits]
  exact .of_same (congrArg Bus.published hbus) hphase hruns (owed_pass_caller ..) nofun

private theorem course_advance (htidy : scene.Tidy) (hadmits : scene.admits .worker .advance = true) :
    Course scene (.start .worker .advance) (scene.play (.start .worker .advance)) := by
  have howed := (admits_iff hadmits).2
  have hplay : scene.play (.start .worker .advance) = { scene with engine := scene.engine.advance } := by
    rw [play_start hadmits, show (scene.engine.touch .advance).2 = scene.owed .worker from howed.symm, pass_self]
    rfl
  have hrunning : (scene.play (.start .worker .advance)).running? = scene.engine.advance.phase.run? := by
    rw [hplay]
    exact running?_of_nil howed
  have hpending : (scene.play (.start .worker .advance)).pending = scene.pending := by rw [hplay]; rfl
  have hidle := running?_of_nil howed
  cases Engine.notice_apply htidy.steady .advance with
  | silent hpublished hrun hruns =>
    refine .quiet ?_ (hrunning.trans (hrun.trans hidle.symm)) hpending ?_ nofun
    · rw [hplay]
      exact hpublished
    · rw [hplay]
      exact hruns
  | began run _ hnone hphase _ hnumber hruns hpublished =>
    refine .began run rfl (hidle.trans hnone) (pending_of_nil howed) ?_ hnumber ?_ ?_
    · rw [hrunning, show scene.engine.advance.phase = .acting run from hphase]
      rfl
    · rw [hplay]
      exact hruns
    · rw [hplay]
      exact hpublished
  | called _ _ _ _ _ hcall => cases hcall
  | reported _ _ hmove => cases hmove
  | ended _ _ hmove => cases hmove

private theorem course_finish {outcome : Outcome} (hadmits : scene.admits .worker (.finish outcome) = true) :
    Course scene (.start .worker (.finish outcome)) (scene.play (.start .worker (.finish outcome))) := by
  have howed := (admits_iff hadmits).2
  rw [play_start hadmits]
  cases hrun : scene.engine.phase.run? with
  | none =>
    rw [Engine.touch_finish_of_idle hrun]
    have hpass : scene.pass .worker scene.engine [] = scene := by rw [← howed, pass_self]
    rw [hpass]
    exact .of_same rfl rfl rfl rfl fun _ _ => (running?_of_nil howed).trans hrun
  | some run =>
    have hacting := Engine.phase_of_run? hrun
    have hhistory := Engine.history_touch scene.engine (.finish outcome)
    rw [Engine.touch_finish hacting] at hhistory ⊢
    refine .ended run outcome rfl ((running?_of_nil howed).trans hrun) ?_ ?_ hhistory ?_ rfl rfl
    · refine running?_of_ne_nil ?_
      rw [owed_pass_self]
      simp
    · exact pending_of_owed (owed_pass_self ..)
    · rw [owed_pass_self]
      exact List.mem_append_right _ List.mem_cons_self

private theorem course_go (htidy : scene.Tidy) (agent : Agent) :
    Course scene (.go agent) (scene.play (.go agent)) := by
  cases howed : scene.owed agent with
  | nil =>
    rw [play_go_of_nil howed]
    exact .of_same rfl rfl rfl rfl nofun
  | cons deed deeds =>
    rw [play_go howed]
    cases agent with
    | caller number =>
      have hdeed := htidy.callers number deed (howed ▸ List.mem_cons_self)
      have hworker := owed_pass_caller scene number (scene.engine.perform deed) deeds
      rw [hdeed] at hworker ⊢
      refine .called number rfl rfl ?_ ?_ rfl
      · rw [running?, running?, hworker]
        rfl
      · rw [pending, pending, hworker]
    | worker =>
      rcases htidy.worker with hnothing | ⟨run, events, -, result, changed, hsuffix, hdeeds⟩
      · rw [howed] at hnothing
        cases hnothing
      have hbusy : scene.running? = none := running?_of_ne_nil (by rw [howed]; nofun)
      have hpending := pending_of_owed hdeeds
      rw [howed] at hdeeds
      cases events with
      | nil =>
        -- the last deed publishes nothing
        obtain ⟨rfl, rfl⟩ := List.cons.inj hdeeds
        obtain ⟨hidle, hbus, hruns⟩ := Engine.perform_lastDeed scene.engine run result
        refine .quiet (congrArg Bus.published hbus) ?_ ?_ hruns nofun
        · rw [running?_of_nil (owed_pass_self ..), hbusy]
          exact hidle
        · rw [pending_of_nil (owed_pass_self ..), hpending]
      | cons event events =>
        obtain ⟨rfl, rfl⟩ := List.cons.inj hdeeds
        refine .closed event rfl ?_ hbusy ?_ ?_ rfl rfl
        · exact Engine.progress?_of_mem_closingEvents (hsuffix.subset List.mem_cons_self)
        · refine running?_of_ne_nil ?_
          rw [owed_pass_self]
          simp
        · exact hpending.trans (congrArg (List.cons event) (pending_of_owed (owed_pass_self ..)).symm)

/-- **What an act does** is on the list. -/
theorem course_play (htidy : scene.Tidy) (act : Act) (hother : act.isReport = false) :
    Course scene act (scene.play act) := by
  cases act with
  | go agent => exact course_go htidy agent
  | subscribe => exact .of_same rfl rfl rfl rfl (by simp)
  | receive =>
    obtain ⟨hengine, howed⟩ := play_receive scene
    exact .of_same (by rw [published, hengine]; rfl) (by rw [hengine]) (by rw [hengine]) (by rw [howed]) (by simp)
  | read => exact .of_same rfl rfl rfl rfl (by simp)
  | start agent move =>
    cases hadmits : scene.admits agent move with
    | false =>
      rw [play, hadmits]
      refine .of_same rfl rfl rfl rfl fun outcome hact => ?_
      obtain ⟨rfl, rfl⟩ := Act.start.inj hact
      refine running?_of_ne_nil fun howed => ?_
      simp [admits, howed, Agent.makes] at hadmits
    | true =>
      cases agent with
      | caller number =>
        refine course_caller hadmits ?_
        rintro run event rfl
        cases hother
      | worker =>
        have hmakes := (admits_iff hadmits).1
        cases move with
        | advance => exact course_advance htidy hadmits
        | finish outcome => exact course_finish hadmits
        | _ => cases hmakes

theorem Tidy.start (htidy : scene.Tidy) (hadmits : scene.admits agent move = true)
    (hother : ∀ number event, move ≠ .report number event) : (scene.play (.start agent move)).Tidy := by
  rw [play_start hadmits]
  refine ⟨htidy.steady.touch move, fun number => ?_, ?_⟩
  · by_cases hself : agent = .caller number
    · subst hself
      rw [owed_pass_self]
      exact (touch_of_caller scene.engine (admits_iff hadmits).1 hother).2.2.2
    · rw [owed_pass_of_ne _ _ _ _ (Ne.symm hself)]
      exact htidy.callers number
  · cases agent with
    | caller number =>
      obtain ⟨-, hphase, -⟩ := touch_of_caller scene.engine (admits_iff hadmits).1 hother
      rcases htidy.worker with hnothing | ⟨run, events, hacting, hrest⟩
      · exact .inl ((owed_pass_caller ..).trans hnothing)
      · refine .inr ⟨run, events, hphase.trans hacting, ?_⟩
        rw [owed_pass_caller]
        exact hrest
    | worker =>
      rw [owed_pass_self]
      have hmakes := (admits_iff hadmits).1
      cases move with
      | advance => exact .inl rfl
      | finish outcome =>
        cases hrun : scene.engine.phase.run? with
        | none =>
          rw [Engine.touch_finish_of_idle hrun]
          exact .inl rfl
        | some run =>
          have hacting := Engine.phase_of_run? hrun
          refine .inr ⟨run, Engine.closingEvents run.step (outcome.settle run.step.command.text)
            (scene.engine.alters run outcome), ?_, _, _, List.suffix_refl _, ?_⟩
          · rw [Engine.touch_finish hacting]
            exact hacting
          · rw [owed_pass_self, Engine.touch_finish hacting]
      | _ => cases hmakes

private theorem Tidy.go (htidy : scene.Tidy) (agent : Agent) : (scene.play (.go agent)).Tidy := by
  cases howed : scene.owed agent with
  | nil =>
    rw [play_go_of_nil howed]
    exact htidy
  | cons deed deeds =>
    rw [play_go howed]
    refine ⟨htidy.steady.perform deed, fun number => ?_, ?_⟩
    · by_cases hself : agent = .caller number
      · subst hself
        rw [owed_pass_self]
        exact fun other hother => htidy.callers number other (howed ▸ List.mem_cons_of_mem _ hother)
      · rw [owed_pass_of_ne _ _ _ _ (Ne.symm hself)]
        exact htidy.callers number
    · cases agent with
      | caller number =>
        have hdeed := htidy.callers number deed (howed ▸ List.mem_cons_self)
        rcases htidy.worker with hnothing | ⟨run, events, hacting, hrest⟩
        · exact .inl ((owed_pass_caller ..).trans hnothing)
        · refine .inr ⟨run, events, hdeed ▸ hacting, ?_⟩
          rw [owed_pass_caller]
          exact hrest
      | worker =>
        rw [owed_pass_self]
        rcases htidy.worker with hnothing | ⟨run, events, hacting, result, changed, hsuffix, hdeeds⟩
        · rw [howed] at hnothing
          cases hnothing
        · rw [howed] at hdeeds
          cases events with
          | nil => exact .inl (List.cons.inj hdeeds).2
          | cons event events =>
            obtain ⟨rfl, rfl⟩ := List.cons.inj hdeeds
            exact .inr ⟨run, events, hacting, result, changed, (List.suffix_cons _ _).trans hsuffix, owed_pass_self ..⟩

theorem Tidy.play (htidy : scene.Tidy) (act : Act) (hother : act.isReport = false) : (scene.play act).Tidy := by
  cases act with
  | go agent => exact htidy.go agent
  | subscribe => exact ⟨htidy.steady, htidy.callers, htidy.worker⟩
  | receive =>
    obtain ⟨hengine, howed⟩ := play_receive scene
    exact ⟨hengine ▸ htidy.steady, howed ▸ htidy.callers, by
      simpa only [Ending, hengine, howed] using htidy.worker⟩
  | read => exact ⟨htidy.steady, htidy.callers, htidy.worker⟩
  | start agent move =>
    cases hadmits : scene.admits agent move with
    | false =>
      rw [Scene.play, hadmits]
      exact htidy
    | true =>
      refine htidy.start hadmits ?_
      rintro number event rfl
      cases hother

theorem reports_play (scene : Scene) (hother : act.isReport = false) :
    (scene.play act).engine.reports = scene.engine.reports := by
  cases act with
  | go agent =>
    cases howed : scene.owed agent with
    | nil => rw [play_go_of_nil howed]
    | cons deed deeds =>
      rw [play_go howed]
      cases deed <;> rfl
  | subscribe => rfl
  | receive => rw [(play_receive scene).1]
  | read => rfl
  | start agent move =>
    unfold play
    dsimp only
    split_ifs
    · refine Engine.reports_touch scene.engine ?_
      rintro number event rfl
      cases hother
    · rfl

theorem answers_play (scene : Scene) (act : Act) : scene.engine.answers <+: (scene.play act).engine.answers := by
  cases act with
  | start agent move =>
    unfold play
    dsimp only
    split_ifs
    · exact scene.engine.answers_touch move
    · exact List.prefix_refl _
  | go agent =>
    cases howed : scene.owed agent with
    | nil => rw [play_go_of_nil howed]
    | cons deed deeds =>
      rw [play_go howed]
      cases deed with
      | answer job result => exact List.prefix_append ..
      | publish event => exact List.prefix_refl _
      | rest job walk => exact List.prefix_refl _
  | subscribe => exact List.prefix_refl _
  | receive => rw [(play_receive scene).1]
  | read => exact List.prefix_refl _

theorem owed_play (scene : Scene) (act : Act) {job : Job} {result : ActionResult}
    (howed : .answer job result ∈ scene.owed .worker) :
    (job.ticket, result) ∈ (scene.play act).engine.answers ∨ .answer job result ∈ (scene.play act).owed .worker := by
  cases act with
  | start agent move =>
    cases hadmits : scene.admits agent move with
    | false =>
      rw [play, hadmits]
      exact .inr howed
    | true =>
      rw [play_start hadmits]
      cases agent with
      | caller number => exact .inr (by rwa [owed_pass_caller])
      | worker => rw [(admits_iff hadmits).2] at howed; cases howed
  | go agent =>
    cases hdeeds : scene.owed agent with
    | nil => rw [play_go_of_nil hdeeds]; exact .inr howed
    | cons deed deeds =>
      rw [play_go hdeeds]
      cases agent with
      | caller number => exact .inr (by rwa [owed_pass_caller])
      | worker =>
        rw [owed_pass_self]
        rw [hdeeds] at howed
        rcases List.mem_cons.mp howed with rfl | hlater
        · exact .inl (List.mem_append_right _ List.mem_cons_self)
        · exact .inr hlater
  | subscribe => exact .inr howed
  | receive => exact .inr (by rwa [(play_receive scene).2])
  | read => exact .inr howed

end Scene

end Retrace
