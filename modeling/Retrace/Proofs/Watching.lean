import Mathlib.Logic.Function.Basic
import Retrace.Proofs.Deeds

/-!
# Watching the history

A scene is an engine with its worker and any number of callers, whose moves are made in parts that fall between those of
the others, and a subscriber who reads the history again after each announcement that it has changed. Whoever changes
the history owes its announcement until it is published, and the subscriber never keeps what is out of date when
nothing is owed any more.
-/

namespace Retrace

/-- Whoever makes moves. -/
inductive Agent where
  | worker
  | caller (number : Nat)
  deriving DecidableEq

/-- The worker takes its own steps and ends the actions, and everything else is done by callers. -/
def Agent.makes : Agent → Move → Bool
  | .worker, .advance | .worker, .finish _ => true
  | .worker, _ => false
  | .caller _, .advance | .caller _, .finish _ => false
  | .caller _, _ => true

/-- An engine, what everybody has still to do for a move already begun, and a subscriber: how many events it has behind
it, whether it has still to read the history, whether it has missed events, and the history as it has read it last. -/
structure Scene where
  engine : Engine
  owed : Agent → List Deed
  position : Nat
  isTold : Bool
  hasMissed : Bool
  seen : History

/-- What can happen in a scene: the first part of a move and each further one, and what the subscriber does. -/
inductive Act where
  | start (agent : Agent) (move : Move)
  | go (agent : Agent)
  | subscribe
  | receive
  | read

namespace Scene

open Engine (sampleCommand success sampleEngine sampleEngine_fresh)

variable {scene : Scene} {agent : Agent} {move : Move}

/-- Whether a move may be begun: nobody begins one before the last is over, and a reporter is closed at the end of its
action. -/
def admits (scene : Scene) (agent : Agent) (move : Move) : Bool :=
  agent.makes move && (scene.owed agent).isEmpty &&
    match move with
    | .report _ _ => (scene.owed .worker).isEmpty
    | _ => true

/-- The scene when a part of an agent's move is done and others are left. -/
def pass (scene : Scene) (agent : Agent) (engine : Engine) (deeds : List Deed) : Scene :=
  { scene with engine, owed := Function.update scene.owed agent deeds }

def play (scene : Scene) : Act → Scene
  | .start agent move =>
    if scene.admits agent move then scene.pass agent (scene.engine.touch move).1 (scene.engine.touch move).2 else scene
  | .go agent =>
    match scene.owed agent with
    | [] => scene
    | deed :: deeds => scene.pass agent (scene.engine.perform deed) deeds
  | .subscribe =>
    { scene with position := scene.engine.bus.published.length, isTold := true, hasMissed := false }
  | .receive =>
    match scene.engine.bus.unread scene.position with
    | .event event :: _ =>
      { scene with position := scene.position + 1, isTold := scene.isTold || event == .stateChanged }
    | .missed count :: _ => { scene with position := scene.position + count, hasMissed := true }
    | _ => scene
  | .read => { scene with seen := scene.engine.history, isTold := false }

def playAll (scene : Scene) (acts : List Act) : Scene := acts.foldl play scene

/-- An engine that nobody has begun a move on, with a subscriber who has yet to read. -/
def opening (engine : Engine) : Scene :=
  { engine, owed := fun _ => [], position := engine.bus.published.length, isTold := true, hasMissed := false,
    seen := engine.history }

def published (scene : Scene) : List EngineEvent := scene.engine.bus.published

theorem playAll_append (scene : Scene) (first second : List Act) :
    scene.playAll (first ++ second) = (scene.playAll first).playAll second :=
  List.foldl_append

section Pass

variable (scene : Scene) (agent : Agent) (engine : Engine) (deeds : List Deed)

theorem owed_pass_self : (scene.pass agent engine deeds).owed agent = deeds := Function.update_self ..

theorem owed_pass_of_ne {other : Agent} (hother : other ≠ agent) :
    (scene.pass agent engine deeds).owed other = scene.owed other :=
  Function.update_of_ne hother ..

theorem pass_pass (later : Engine) (rest : List Deed) :
    (scene.pass agent engine deeds).pass agent later rest = scene.pass agent later rest := by
  simp [pass]

theorem pass_self : scene.pass agent engine (scene.owed agent) = { scene with engine } := by
  rw [pass, Function.update_eq_self]

end Pass

theorem play_start (hadmits : scene.admits agent move = true) :
    scene.play (.start agent move) = scene.pass agent (scene.engine.touch move).1 (scene.engine.touch move).2 :=
  if_pos hadmits

theorem play_go {deed : Deed} {deeds : List Deed} (howed : scene.owed agent = deed :: deeds) :
    scene.play (.go agent) = scene.pass agent (scene.engine.perform deed) deeds := by
  simp only [play, howed]

theorem play_go_of_nil (howed : scene.owed agent = []) : scene.play (.go agent) = scene := by
  simp only [play, howed]

theorem admits_iff : scene.admits agent move = true →
    agent.makes move = true ∧ scene.owed agent = [] := by
  intro hadmits
  simp only [admits, Bool.and_eq_true, List.isEmpty_iff] at hadmits
  exact hadmits.1

/-! ### Moves in one go -/

private theorem playAll_go (agent : Agent) {deeds : List Deed} (howed : scene.owed agent = deeds) :
    scene.playAll (List.replicate deeds.length (.go agent)) =
      scene.pass agent (deeds.foldl Engine.perform scene.engine) [] := by
  induction deeds generalizing scene with
  | nil =>
    rw [← howed, pass_self, howed]
    rfl
  | cons deed deeds ih =>
    rw [List.length_cons, List.replicate_succ]
    show (scene.play (.go agent)).playAll _ = _
    rw [play_go howed, ih (owed_pass_self ..), pass_pass]
    rfl

theorem playAll_start (hadmits : scene.admits agent move = true) :
    scene.playAll (.start agent move :: List.replicate (scene.engine.touch move).2.length (.go agent)) =
      { scene with engine := scene.engine.apply move } := by
  show (scene.play (.start agent move)).playAll _ = _
  rw [play_start hadmits, playAll_go agent (owed_pass_self ..), pass_pass, ← (admits_iff hadmits).2, pass_self,
    Engine.apply_eq_deeds]
  rfl

/-! ### What is owed is published -/

def Owes (scene : Scene) (agent : Agent) : Prop := .publish .stateChanged ∈ scene.owed agent

/-- What is kept of a scene: the callers have only events to publish, and the worker only when an action has ended,
with what comes last after it. -/
structure Sane (scene : Scene) : Prop where
  steady : scene.engine.Steady
  behind : scene.position ≤ scene.published.length
  callers : ∀ number, ∃ events : List EngineEvent, scene.owed (.caller number) = events.map Deed.publish
  worker : scene.owed .worker = [] ∨ ∃ (run : Run) (events : List EngineEvent) (deed : Deed),
    scene.engine.phase = .acting run ∧ scene.owed .worker = events.map Deed.publish ++ [deed]

/-- What becomes of a scene with an act: what was published stays, what was owed is still owed or is published, and what
can be seen of the history does not change unless somebody owes the announcement of it. -/
structure Advances (scene after : Scene) : Prop where
  published : scene.published <+: after.published
  owed : ∀ agent, scene.Owes agent →
    after.Owes agent ∨ .stateChanged ∈ after.published.drop scene.published.length
  changed : scene.engine.history.SameView after.engine.history ∨ ∃ agent, after.Owes agent

theorem Advances.of_engine {after : Scene} (hengine : after.engine = scene.engine) (howed : after.owed = scene.owed) :
    scene.Advances after where
  published := by rw [Scene.published, Scene.published, hengine]
  owed := fun agent howes => .inl (by rw [Owes, howed]; exact howes)
  changed := .inl (hengine ▸ History.SameView.refl _)

private theorem touch_caller (engine : Engine) {number : Nat} (hmakes : (Agent.caller number).makes move = true) :
    (engine.touch move).1.phase = engine.phase ∧
      ∃ events : List EngineEvent, (engine.touch move).2 = events.map Deed.publish := by
  cases move with
  | submit request => exact ⟨(Engine.submit_frame engine request).2, [], rfl⟩
  | clear => exact ⟨rfl, [.stateChanged], rfl⟩
  | setLimit limit =>
    refine ⟨rfl, if 0 < (engine.history.setLimit limit).2 then [.stateChanged] else [], ?_⟩
    exact (apply_ite (List.map Deed.publish) (0 < (engine.history.setLimit limit).2) [.stateChanged] []).symm
  | activate stack => exact ⟨rfl, [.stateChanged], rfl⟩
  | route scope stack => exact ⟨(Engine.route_frame engine scope stack).2, [], rfl⟩
  | shutDown => exact ⟨rfl, [], rfl⟩
  | advance => cases hmakes
  | report run event => exact ⟨(Engine.report_frame engine run event).2, [], rfl⟩
  | finish outcome => cases hmakes

private theorem touch_worker (engine : Engine) (hmakes : Agent.worker.makes move = true) :
    (engine.touch move).2 = [] ∨ ∃ (run : Run) (events : List EngineEvent) (deed : Deed),
      (engine.touch move).1.phase = .acting run ∧ (engine.touch move).2 = events.map Deed.publish ++ [deed] := by
  cases move with
  | advance => exact .inl rfl
  | finish outcome =>
    cases hphase : engine.phase with
    | acting run =>
      rw [Engine.touch_finish hphase]
      exact .inr ⟨run, _, _, hphase, rfl⟩
    | _ =>
      rw [Engine.touch_finish_of_idle (by rw [hphase]; rfl)]
      exact .inl rfl
  | _ => cases hmakes

theorem Sane.start (hsane : scene.Sane) (hadmits : scene.admits agent move = true) :
    (scene.play (.start agent move)).Sane ∧ scene.Advances (scene.play (.start agent move)) := by
  obtain ⟨hmakes, hnothing⟩ := admits_iff hadmits
  have hpublished := Engine.published_touch hsane.steady move
  rw [play_start hadmits]
  refine ⟨⟨hsane.steady.touch move, hsane.behind.trans hpublished.length_le, ?_, ?_⟩, hpublished, ?_, ?_⟩
  · intro number
    by_cases hself : agent = .caller number
    · subst hself
      rw [owed_pass_self]
      exact (touch_caller scene.engine hmakes).2
    · rw [owed_pass_of_ne _ _ _ _ (Ne.symm hself)]
      exact hsane.callers number
  · cases agent with
    | worker =>
      rw [owed_pass_self]
      exact touch_worker scene.engine hmakes
    | caller number =>
      have hphase : (scene.pass (.caller number) (scene.engine.touch move).1 (scene.engine.touch move).2).engine.phase =
          scene.engine.phase := (touch_caller scene.engine hmakes).1
      rw [owed_pass_of_ne _ _ _ _ (by simp), hphase]
      exact hsane.worker
  · intro other howes
    have hother : other ≠ agent := by
      rintro rfl
      rw [Owes, hnothing] at howes
      cases howes
    refine .inl ?_
    rw [Owes, owed_pass_of_ne _ _ _ _ hother]
    exact howes
  · refine (Engine.sameView_or_mem_deeds hsane.steady move).imp_right fun hmem => ⟨agent, ?_⟩
    rw [Owes, owed_pass_self]
    exact hmem

theorem Sane.callers_go (hsane : scene.Sane) {deed : Deed} {deeds : List Deed} {number : Nat}
    (howed : scene.owed (.caller number) = deed :: deeds) :
    ∃ event events, deed = .publish event ∧ deeds = List.map Deed.publish events := by
  obtain ⟨events, hevents⟩ := hsane.callers number
  rw [howed] at hevents
  cases events with
  | nil => cases hevents
  | cons event events => exact ⟨event, events, (List.cons.inj hevents).1, (List.cons.inj hevents).2⟩

private theorem Sane.go (hsane : scene.Sane) (agent : Agent) :
    (scene.play (.go agent)).Sane ∧ scene.Advances (scene.play (.go agent)) := by
  cases howed : scene.owed agent with
  | nil =>
    rw [play_go_of_nil howed]
    exact ⟨hsane, .of_engine rfl rfl⟩
  | cons deed deeds =>
    have hpublished := Engine.published_perform scene.engine deed
    rw [play_go howed]
    refine ⟨⟨hsane.steady.perform deed, hsane.behind.trans hpublished.length_le, ?_, ?_⟩, hpublished, ?_, ?_⟩
    · intro number
      by_cases hself : agent = .caller number
      · subst hself
        obtain ⟨-, events, -, hdeeds⟩ := hsane.callers_go howed
        rw [owed_pass_self]
        exact ⟨events, hdeeds⟩
      · rw [owed_pass_of_ne _ _ _ _ (Ne.symm hself)]
        exact hsane.callers number
    · cases agent with
      | worker =>
        rw [owed_pass_self]
        rcases hsane.worker with hnothing | ⟨run, events, last, hacting, hdeeds⟩
        · rw [howed] at hnothing
          cases hnothing
        · rw [howed] at hdeeds
          cases events with
          | nil => exact .inl (List.cons.inj hdeeds).2
          | cons event events =>
            obtain ⟨rfl, rfl⟩ := List.cons.inj hdeeds
            exact .inr ⟨run, events, last, hacting, rfl⟩
      | caller number =>
        obtain ⟨event, -, rfl, -⟩ := hsane.callers_go howed
        rw [owed_pass_of_ne _ _ _ _ (by simp)]
        exact hsane.worker
    · intro other howes
      by_cases hself : other = agent
      · subst hself
        rw [Owes, howed] at howes
        rcases List.mem_cons.mp howes with rfl | hlater
        · -- this is the announcement
          refine .inr ?_
          show _ ∈ (scene.published ++ [EngineEvent.stateChanged]).drop scene.published.length
          rw [List.drop_left]
          exact List.mem_singleton.mpr rfl
        · refine .inl ?_
          rw [Owes, owed_pass_self]
          exact hlater
      · refine .inl ?_
        rw [Owes, owed_pass_of_ne _ _ _ _ hself]
        exact howes
    · refine .inl ?_
      show scene.engine.history.SameView (scene.engine.perform deed).history
      rw [Engine.history_perform]
      exact History.SameView.refl _

/-! ### The subscriber -/

/-- What a subscriber receives next: the next event, or that it has missed some, or nothing but the end. -/
theorem unread_cases (bus : Bus) (position : Nat) :
    (∃ event rest deliveries, bus.published.drop position = event :: rest ∧
        bus.unread position = .event event :: deliveries) ∨
      (∃ count deliveries, position + count ≤ bus.published.length ∧ bus.unread position = .missed count :: deliveries) ∨
      (bus.unread position = [] ∨ ∃ deliveries, bus.unread position = .closed :: deliveries) := by
  unfold Bus.unread
  dsimp only
  by_cases hlost : (bus.published.drop position).length - bus.kept = 0
  · rw [if_pos hlost, hlost, List.drop_zero, List.nil_append]
    cases hwaiting : bus.published.drop position with
    | nil =>
      refine .inr (.inr ?_)
      cases bus.isClosed with
      | true => exact .inr ⟨[], rfl⟩
      | false => exact .inl rfl
    | cons event rest => exact .inl ⟨event, rest, _, rfl, rfl⟩
  · rw [if_neg hlost]
    refine .inr (.inl ⟨_, _, ?_, rfl⟩)
    rw [List.length_drop] at hlost ⊢
    omega

/-- A subscriber that has missed nothing either sees the history as it is, or it has still to read it, or to receive the
announcement of a change, or somebody has still to make one. -/
def Watches (scene : Scene) : Prop :=
  scene.hasMissed = false →
    scene.seen.SameView scene.engine.history ∨ scene.isTold = true ∨
      .stateChanged ∈ scene.published.drop scene.position ∨ ∃ agent, scene.Owes agent

private theorem Advances.watches {after : Scene} (hadvances : scene.Advances after)
    (hbehind : scene.position ≤ scene.published.length) (hwatches : scene.Watches)
    (hmissed : after.hasMissed = scene.hasMissed) (hseen : after.seen = scene.seen)
    (htold : after.isTold = scene.isTold) (hposition : after.position = scene.position) : after.Watches := by
  intro hnone
  rw [hseen, htold, hposition]
  have hlater : ∀ {count}, count ≤ scene.published.length →
      .stateChanged ∈ after.published.drop scene.published.length → .stateChanged ∈ after.published.drop count :=
    fun hcount hmem => List.drop_subset_drop_left _ hcount hmem
  rcases hwatches (hmissed ▸ hnone) with hsame | hread | hcoming | ⟨agent, howes⟩
  · rcases hadvances.changed with hview | howing
    · exact .inl (hsame.trans hview)
    · exact .inr (.inr (.inr howing))
  · exact .inr (.inl hread)
  · exact .inr (.inr (.inl ((hadvances.published.drop scene.position).subset hcoming)))
  · rcases hadvances.owed agent howes with hstill | hpublished
    · exact .inr (.inr (.inr ⟨agent, hstill⟩))
    · exact .inr (.inr (.inl (hlater hbehind hpublished)))

theorem Sane.of_engine {after : Scene} (hsane : scene.Sane) (hengine : after.engine = scene.engine)
    (howed : after.owed = scene.owed) (hbehind : after.position ≤ scene.published.length) : after.Sane where
  steady := hengine ▸ hsane.steady
  behind := by
    rw [Scene.published, hengine]
    exact hbehind
  callers := by
    rw [howed]
    exact hsane.callers
  worker := by
    rw [howed, hengine]
    exact hsane.worker

private theorem receive_kept (hsane : scene.Sane) (hwatches : scene.Watches) :
    (scene.play .receive).Sane ∧ scene.Advances (scene.play .receive) ∧ (scene.play .receive).Watches := by
  rcases unread_cases scene.engine.bus scene.position with
    ⟨event, rest, deliveries, hwaiting, hunread⟩ | ⟨count, deliveries, hcount, hunread⟩ | hnothing
  · have hplay : scene.play .receive =
        { scene with position := scene.position + 1, isTold := scene.isTold || event == .stateChanged } := by
      simp only [play, hunread]
    have hroom : scene.position + 1 ≤ scene.published.length := by
      have hlength := congrArg List.length hwaiting
      rw [List.length_drop, List.length_cons] at hlength
      show scene.position + 1 ≤ scene.engine.bus.published.length
      omega
    have hrest : scene.published.drop (scene.position + 1) = rest := by
      rw [← List.drop_drop]
      show (scene.engine.bus.published.drop scene.position).drop 1 = rest
      rw [hwaiting, List.drop_one, List.tail_cons]
    rw [hplay]
    refine ⟨hsane.of_engine rfl rfl hroom, .of_engine rfl rfl, fun hnone => ?_⟩
    rcases hwatches hnone with hsame | hread | hcoming | howing
    · exact .inl hsame
    · exact .inr (.inl (by simp [hread]))
    · rw [published, hwaiting] at hcoming
      rcases List.mem_cons.mp hcoming with rfl | hlater
      · exact .inr (.inl (by simp))
      · exact .inr (.inr (.inl (by rw [← hrest] at hlater; exact hlater)))
    · exact .inr (.inr (.inr howing))
  · have hplay : scene.play .receive = { scene with position := scene.position + count, hasMissed := true } := by
      simp only [play, hunread]
    rw [hplay]
    exact ⟨hsane.of_engine rfl rfl hcount, .of_engine rfl rfl, nofun⟩
  · have hplay : scene.play .receive = scene := by
      rcases hnothing with hnone | ⟨deliveries, hclosed⟩
      · simp only [play, hnone]
      · simp only [play, hclosed]
    rw [hplay]
    exact ⟨hsane, .of_engine rfl rfl, hwatches⟩

/-- **An act** keeps a scene sane and its subscriber up to date, and what is owed is not forgotten. -/
theorem play_kept (hsane : scene.Sane) (hwatches : scene.Watches) (act : Act) :
    (scene.play act).Sane ∧ scene.Advances (scene.play act) ∧ (scene.play act).Watches := by
  cases act with
  | start agent move =>
    cases hadmits : scene.admits agent move with
    | true =>
      obtain ⟨hafter, hadvances⟩ := hsane.start hadmits
      refine ⟨hafter, hadvances, hadvances.watches hsane.behind hwatches ?_ ?_ ?_ ?_⟩ <;> rw [play_start hadmits] <;> rfl
    | false =>
      have hplay : scene.play (.start agent move) = scene := by simp [play, hadmits]
      rw [hplay]
      exact ⟨hsane, .of_engine rfl rfl, hwatches⟩
  | go agent =>
    obtain ⟨hafter, hadvances⟩ := hsane.go agent
    cases howed : scene.owed agent with
    | nil =>
      rw [play_go_of_nil howed]
      exact ⟨hsane, .of_engine rfl rfl, hwatches⟩
    | cons deed deeds =>
      refine ⟨hafter, hadvances, hadvances.watches hsane.behind hwatches ?_ ?_ ?_ ?_⟩ <;> rw [play_go howed] <;> rfl
  | subscribe => exact ⟨hsane.of_engine rfl rfl (Nat.le_refl _), .of_engine rfl rfl, fun _ => .inr (.inl rfl)⟩
  | receive => exact receive_kept hsane hwatches
  | read =>
    exact ⟨hsane.of_engine rfl rfl hsane.behind, .of_engine rfl rfl, fun _ => .inl (History.SameView.refl _)⟩

/-! ### Whole runs -/

structure Follows (scene after : Scene) : Prop where
  sane : after.Sane
  watches : after.Watches
  published : scene.published <+: after.published
  owed : ∀ agent, scene.Owes agent →
    after.Owes agent ∨ .stateChanged ∈ after.published.drop scene.published.length

theorem follows_playAll (hsane : scene.Sane) (hwatches : scene.Watches) (acts : List Act) :
    scene.Follows (scene.playAll acts) := by
  induction acts using List.reverseRecOn with
  | nil => exact ⟨hsane, hwatches, List.prefix_refl _, fun _ => .inl⟩
  | append_singleton acts act ih =>
    obtain ⟨hafter, hadvances, hseen⟩ := play_kept ih.sane ih.watches act
    rw [playAll_append]
    refine ⟨hafter, hseen, ih.published.trans hadvances.published, fun agent howes => ?_⟩
    rcases ih.owed agent howes with hstill | hpublished
    · rcases hadvances.owed agent hstill with hyet | hnow
      · exact .inl hyet
      · exact .inr (List.drop_subset_drop_left _ ih.published.length_le hnow)
    · exact .inr ((hadvances.published.drop _).subset hpublished)

/-- Only the first part of a move changes what can be seen of the history, and whoever makes it owes the
announcement. -/
theorem owes_of_changed (hsane : scene.Sane) {act : Act}
    (hchanged : ¬ scene.engine.history.SameView (scene.play act).engine.history) :
    ∃ agent move, act = .start agent move ∧ (scene.play act).Owes agent := by
  have hsame : ∀ {after : Scene}, after.engine = scene.engine → scene.engine.history.SameView after.engine.history :=
    fun hengine => hengine ▸ History.SameView.refl _
  cases act with
  | start agent move =>
    refine ⟨agent, move, rfl, ?_⟩
    cases hadmits : scene.admits agent move with
    | true =>
      rw [play_start hadmits] at hchanged ⊢
      rw [Owes, owed_pass_self]
      exact (Engine.sameView_or_mem_deeds hsane.steady move).resolve_left hchanged
    | false => exact absurd (hsame (by simp [play, hadmits])) hchanged
  | go agent =>
    refine absurd ?_ hchanged
    cases howed : scene.owed agent with
    | nil => exact hsame (by rw [play_go_of_nil howed])
    | cons deed deeds =>
      rw [play_go howed]
      show scene.engine.history.SameView (scene.engine.perform deed).history
      rw [Engine.history_perform]
      exact History.SameView.refl _
  | subscribe => exact absurd (hsame rfl) hchanged
  | receive =>
    refine absurd (hsame ?_) hchanged
    simp only [play]
    split <;> rfl
  | read => exact absurd (hsame rfl) hchanged

theorem Sane.opening {start : Engine} (hfresh : start.Fresh) : (Scene.opening start).Sane where
  steady := hfresh.steady
  behind := Nat.le_refl _
  callers := fun _ => ⟨[], rfl⟩
  worker := .inl rfl

/-- An agent's move is over but for the answer: the call has returned, or the worker is about to answer its job or to go
on with a jump, or has done so. -/
def IsOver (scene : Scene) (agent : Agent) : Prop :=
  scene.owed agent = [] ∨ ∃ deed, scene.owed agent = [deed] ∧ ∀ event, deed ≠ .publish event

private theorem IsOver.not_owes (hover : scene.IsOver agent) : ¬ scene.Owes agent := by
  unfold Owes
  rcases hover with hnothing | ⟨deed, hlast, hdeed⟩
  · rw [hnothing]
    exact List.not_mem_nil
  · rw [hlast, List.mem_singleton]
    exact fun hsame => hdeed _ hsame.symm

/-- What is said of the announcements in a scene that was played from the opening. -/
structure Announced (start : Engine) (acts : List Act) : Prop where
  /-- What can be seen of the history changes in the first part of a move only. -/
  starts : ∀ before act later, acts = before ++ act :: later →
    ¬ ((opening start).playAll before).engine.history.SameView
      (((opening start).playAll before).play act).engine.history → ∃ agent move, act = .start agent move
  /-- Such a change is announced afterwards, and before the call returns or the job is answered. -/
  announced : ∀ before agent move later, acts = before ++ .start agent move :: later →
    ¬ ((opening start).playAll before).engine.history.SameView
      (((opening start).playAll before).play (.start agent move)).engine.history →
    ((opening start).playAll acts).IsOver agent →
      .stateChanged ∈ ((opening start).playAll acts).published.drop
        (((opening start).playAll before).play (.start agent move)).published.length
  /-- An answer is the last thing that is done for a move. -/
  last : ∀ agent deed deeds, ((opening start).playAll acts).owed agent = deed :: deeds →
    (∀ event, deed ≠ .publish event) → deeds = []
  /-- A subscriber who has missed nothing, has received everything and has read again what it was told to sees the
  history as it is, when the worker is idle and no call is under way. -/
  seen : ((opening start).playAll acts).hasMissed = false →
    ((opening start).playAll acts).position = ((opening start).playAll acts).published.length →
    ((opening start).playAll acts).isTold = false → ((opening start).playAll acts).engine.phase = .idle →
    (∀ number, ((opening start).playAll acts).owed (.caller number) = []) →
      ((opening start).playAll acts).seen.SameView ((opening start).playAll acts).engine.history

/-- **No change of the history goes unannounced**, however the parts of the moves fall. -/
theorem no_change_unannounced {start : Engine} (hfresh : start.Fresh) (acts : List Act) : Announced start acts := by
  have hopening : (opening start).Watches := fun _ => .inl (History.SameView.refl _)
  have hfollows := follows_playAll (Sane.opening hfresh) hopening
  have hsane := (hfollows acts).sane
  constructor
  · rintro before act later rfl hchanged
    obtain ⟨agent, move, hact, -⟩ := owes_of_changed (hfollows before).sane hchanged
    exact ⟨agent, move, hact⟩
  · rintro before agent move later rfl hchanged hover
    obtain ⟨other, _, hact, howes⟩ := owes_of_changed (hfollows before).sane hchanged
    obtain ⟨rfl, -⟩ := Act.start.inj hact
    obtain ⟨hafter, -, hwatches⟩ := play_kept (hfollows before).sane (hfollows before).watches (.start agent move)
    rw [playAll_append] at hover ⊢
    exact ((follows_playAll hafter hwatches later).owed agent howes).resolve_left hover.not_owes
  · intro agent deed deeds howed hdeed
    cases agent with
    | caller number =>
      obtain ⟨event, -, hpublish, -⟩ := hsane.callers_go howed
      exact absurd hpublish (hdeed event)
    | worker =>
      rcases hsane.worker with hnothing | ⟨run, events, last, -, hdeeds⟩
      · rw [howed] at hnothing
        cases hnothing
      · rw [howed] at hdeeds
        cases events with
        | nil => exact (List.cons.inj hdeeds).2
        | cons event events => exact absurd (List.cons.inj hdeeds).1 (hdeed event)
  · intro hmissed hposition htold hidle hcallers
    have hnobody : ∀ agent, ¬ ((opening start).playAll acts).Owes agent := by
      intro agent
      cases agent with
      | caller number => exact IsOver.not_owes (.inl (hcallers number))
      | worker =>
        refine IsOver.not_owes (.inl ?_)
        rcases hsane.worker with hnothing | ⟨run, -, -, hacting, -⟩
        · exact hnothing
        · rw [hidle] at hacting
          cases hacting
    rcases (hfollows acts).watches hmissed with hsame | hread | hcoming | ⟨agent, howes⟩
    · exact hsame
    · rw [htold] at hread
      cases hread
    · rw [hposition, List.drop_length] at hcoming
      cases hcoming
    · exact absurd howes (hnobody agent)

/-- Whatever the engine can come to with moves in one go, it can come to in a scene. -/
theorem exists_playAll_eq (moves : List Move) (hnobody : ∀ agent, scene.owed agent = []) :
    ∃ acts, scene.playAll acts = { scene with engine := scene.engine.applyAll moves } := by
  induction moves generalizing scene with
  | nil => exact ⟨[], rfl⟩
  | cons move moves ih =>
    have hmakes : ∃ agent, Agent.makes agent move = true := by
      cases move with
      | advance => exact ⟨.worker, rfl⟩
      | finish outcome => exact ⟨.worker, rfl⟩
      | _ => exact ⟨.caller 0, rfl⟩
    obtain ⟨agent, hmakes⟩ := hmakes
    have hadmits : scene.admits agent move = true := by
      unfold admits
      rw [hmakes, hnobody]
      split
      · rw [hnobody]
        rfl
      · rfl
    obtain ⟨acts, hacts⟩ := @ih { scene with engine := scene.engine.apply move } hnobody
    refine ⟨.start agent move :: List.replicate (scene.engine.touch move).2.length (.go agent) ++ acts, ?_⟩
    rw [playAll_append, playAll_start hadmits, hacts]
    rfl

/-- A caller clears everything after a command is recorded and before that is announced. The subscriber reads twice. -/
def crossedOver : List Act :=
  [.subscribe, .read, .start (.caller 0) (.submit (.execute (sampleCommand 0))), .start .worker .advance,
    .start .worker .advance, .start .worker success, .start (.caller 1) .clear, .go .worker, .go .worker, .receive,
    .receive, .read, .go .worker, .go (.caller 1), .receive, .read]

/-- In the end the worker is idle, both changes are announced, and the subscriber sees that nothing is left. -/
theorem no_change_unannounced_crossedOver :
    Announced sampleEngine crossedOver ∧ ((opening sampleEngine).playAll crossedOver).published =
      [.completed 0 "" .execute none, .stateChanged, .stateChanged] ∧
    ((opening sampleEngine).playAll crossedOver).seen.SameView
      ((opening sampleEngine).playAll crossedOver).engine.history := by
  have hannounced := no_change_unannounced sampleEngine_fresh crossedOver
  refine ⟨hannounced, rfl, hannounced.seen rfl rfl rfl rfl fun number => ?_⟩
  rcases number with _ | _ | number <;> rfl

end Scene

end Retrace
