import Retrace.Proofs.Verdicts

/-!
# What a clear discards

The worker looks at the generation of a job when it takes the job from the queue. A moment later it decides on an action,
and again a moment later it starts the action. A clear may fall between any two of these moments. It discards the jobs in
the queue; a job that has been taken goes on, though its command may still be on the waiting list and none of its actions
has been started.
-/

namespace Retrace

/-- One thing that happens to an engine whose worker decides on an action before it starts it. -/
inductive Beat where
  | move (move : Move)
  | start
  deriving DecidableEq

def Move.isOfAction : Move → Bool
  | .report _ _ | .finish _ => true
  | _ => false

/-- An engine, with the actions that have been started so far. -/
structure Staged where
  engine : Engine
  started : List Run

namespace Staged

variable {staged cleared : Staged} {beat : Beat} {beats : List Beat} {job : Job} {run : Run}

def decided (staged : Staged) : List Run := staged.engine.phase.run?.toList.filter fun run => run ∉ staged.started

def play (staged : Staged) : Beat → Staged
  | .move move =>
    if move.isOfAction && !staged.decided.isEmpty then staged
    else { staged with engine := staged.engine.apply move }
  | .start => { staged with started := staged.started ++ staged.decided }

def playAll (staged : Staged) (beats : List Beat) : Staged := beats.foldl play staged

theorem playAll_append (staged : Staged) (first second : List Beat) :
    staged.playAll (first ++ second) = (staged.playAll first).playAll second := List.foldl_append

theorem playAll_concat (staged : Staged) (beats : List Beat) (beat : Beat) :
    staged.playAll (beats ++ [beat]) = (staged.playAll beats).play beat := playAll_append staged beats [beat]

theorem mem_decided : run ∈ staged.decided ↔ staged.engine.phase = .acting run ∧ run ∉ staged.started := by
  rw [decided, List.mem_filter, Option.mem_toList, decide_eq_true_eq]
  refine and_congr_left fun _ => ⟨Engine.phase_of_run?, fun hphase => ?_⟩
  rw [hphase]
  rfl

/-- What one thing does: it makes a move, starts the action that was decided on, or does nothing, because this action has
not been started. -/
inductive Played (staged : Staged) (beat : Beat) (after : Staged) : Prop where
  | moved (move : Move) (hbeat : beat = .move move) (hfree : move.isOfAction = true → staged.decided = [])
      (hengine : after.engine = staged.engine.apply move) (hstarted : after.started = staged.started)
  | held (hengine : after.engine = staged.engine) (hstarted : after.started = staged.started)
  | started (hengine : after.engine = staged.engine) (hstarted : after.started = staged.started ++ staged.decided)

theorem played_play (staged : Staged) (beat : Beat) : staged.Played beat (staged.play beat) := by
  cases beat with
  | start => exact .started rfl rfl
  | move move =>
    rw [play]
    split_ifs with hheld
    · exact .held rfl rfl
    · refine .moved move rfl (fun hmove => ?_) rfl rfl
      simpa [hmove] using hheld

private theorem subset_play (hrun : run ∈ staged.started) (beat : Beat) : run ∈ (staged.play beat).started := by
  cases staged.played_play beat with
  | moved _ _ _ _ hstarted => exact hstarted ▸ hrun
  | held _ hstarted => exact hstarted ▸ hrun
  | started _ hstarted => exact hstarted ▸ List.mem_append_left _ hrun

/-- Every run of this kind comes from a run of the engine, and every move of that run was made here. -/
theorem exists_moves (staged : Staged) (beats : List Beat) :
    ∃ moves, (staged.playAll beats).engine = staged.engine.applyAll moves ∧
      ∀ first move rest, moves = first ++ move :: rest → ∃ before later, beats = before ++ .move move :: later ∧
        (staged.playAll before).engine = staged.engine.applyAll first := by
  induction beats generalizing staged with
  | nil => exact ⟨[], rfl, by simp⟩
  | cons beat beats ih =>
    obtain ⟨moves, hmoves, hsplit⟩ := ih (staged.play beat)
    have hkept (hengine : (staged.play beat).engine = staged.engine) :
        ∃ moves, (staged.playAll (beat :: beats)).engine = staged.engine.applyAll moves ∧
          ∀ first move rest, moves = first ++ move :: rest → ∃ before later, beat :: beats = before ++ .move move :: later ∧
            (staged.playAll before).engine = staged.engine.applyAll first := by
      rw [hengine] at hmoves hsplit
      refine ⟨moves, hmoves, fun first move rest heq => ?_⟩
      obtain ⟨before, later, rfl, hbefore⟩ := hsplit first move rest heq
      exact ⟨beat :: before, later, rfl, hbefore⟩
    cases staged.played_play beat with
    | held hengine => exact hkept hengine
    | started hengine => exact hkept hengine
    | moved move hbeat _ hengine =>
      rw [hengine] at hmoves hsplit
      refine ⟨move :: moves, hmoves, fun first other rest heq => ?_⟩
      rcases List.cons_eq_append_iff.mp heq with ⟨rfl, hhead⟩ | ⟨front, rfl, hrest⟩
      · obtain ⟨rfl, -⟩ := List.cons.inj hhead
        exact ⟨[], beats, by rw [hbeat]; rfl, rfl⟩
      · obtain ⟨before, later, rfl, hbefore⟩ := hsplit front other rest hrest
        exact ⟨beat :: before, later, rfl, hbefore⟩

/-! ### What has been started -/

/-- Actions are started for jobs that the worker has taken, and what rests had an action that was started. -/
structure Fitting (staged : Staged) : Prop where
  steady : staged.engine.Steady
  numbered : staged.engine.Numbered
  taken : ∀ run ∈ staged.started, run.job.ticket ∈ staged.engine.handled
  rested : ∀ job walk, staged.engine.phase = .resting job walk → ∃ run ∈ staged.started, run.job = job

theorem Fitting.play (hfitting : staged.Fitting) (beat : Beat) : (staged.play beat).Fitting := by
  have hplayed := staged.played_play beat
  generalize staged.play beat = after at hplayed ⊢
  obtain ⟨engine, started⟩ := after
  cases hplayed with
  | held hengine hstarted =>
    obtain ⟨rfl, rfl⟩ : engine = staged.engine ∧ started = staged.started := ⟨hengine, hstarted⟩
    exact hfitting
  | started hengine hstarted =>
    obtain ⟨rfl, rfl⟩ : engine = staged.engine ∧ started = staged.started ++ staged.decided := ⟨hengine, hstarted⟩
    refine ⟨hfitting.steady, hfitting.numbered, fun run hrun => ?_, fun job walk hphase => ?_⟩
    · rcases List.mem_append.mp hrun with hbefore | hnow
      · exact hfitting.taken run hbefore
      · refine List.mem_append_right _ ?_
        rw [(mem_decided.mp hnow).1]
        exact List.mem_cons_self
    · obtain ⟨run, hrun, hjob⟩ := hfitting.rested job walk hphase
      exact ⟨run, List.mem_append_left _ hrun, hjob⟩
  | moved move _ hfree hengine hstarted =>
    obtain ⟨rfl, rfl⟩ : engine = staged.engine.apply move ∧ started = staged.started := ⟨hengine, hstarted⟩
    refine ⟨hfitting.steady.change (hfitting.steady.change_apply move),
      hfitting.numbered.change (Engine.passage_apply _ move), fun run hrun => ?_, fun job walk hphase => ?_⟩
    · rw [Engine.handled_apply]
      exact List.mem_append_left _ (hfitting.taken run hrun)
    · cases Engine.transit_apply hfitting.steady move with
      | same hsame => exact hfitting.rested job walk (hsame ▸ hphase)
      | rested run _ hacting hresting =>
        rw [hphase] at hresting
        obtain ⟨rfl, -⟩ := Phase.resting.inj hresting
        refine ⟨run, ?_, rfl⟩
        rcases Engine.apply_acting hacting move with ⟨-, hsame⟩ | ⟨outcome, rfl, -⟩
        · rw [hphase, hacting] at hsame
          cases hsame
        · by_contra hunstarted
          have hdecided := mem_decided.mpr ⟨hacting, hunstarted⟩
          rw [hfree rfl] at hdecided
          cases hdecided
      | ended hended => rw [hended] at hphase; cases hphase
      | taken _ _ _ _ htaken => rw [htaken] at hphase; cases hphase
      | bound _ _ _ hbound => rw [hbound] at hphase; cases hphase
      | started _ _ _ hacting => rw [hacting] at hphase; cases hphase
      | resumed _ _ _ _ hresumed => rw [hresumed] at hphase; cases hphase

theorem Fitting.playAll (hfitting : staged.Fitting) (beats : List Beat) : (staged.playAll beats).Fitting := by
  induction beats generalizing staged with
  | nil => exact hfitting
  | cons beat beats ih => exact ih (hfitting.play beat)

private theorem fitting_of_fresh {start : Engine} (hfresh : start.Fresh) : Fitting ⟨start, []⟩ := by
  obtain ⟨registry, routes, defaultStack, limit, capacity, rfl⟩ := hfresh
  have hfresh : (Engine.start registry routes defaultStack limit capacity).Fresh := ⟨_, _, _, _, _, rfl⟩
  exact ⟨hfresh.steady, hfresh.numbered, by simp, nofun⟩

/-! ### Jobs that have been taken -/

/-- What has become of a job that was taken from the queue with none of its actions started. -/
inductive Lot (job : Job) (staged : Staged) : Prop where
  | choosing (way : Option Walk) (hphase : staged.engine.phase = .choosing job way)
  | decided (run : Run) (hrun : run ∈ staged.decided) (hjob : run.job = job)
  | started (run : Run) (hrun : run ∈ staged.started) (hjob : run.job = job)
  | answered (result : ActionResult) (hanswer : (job.ticket, result) ∈ staged.engine.answers)
      (hresult : result ≠ .error .cancelled)

private theorem Unmoved.ne_cancelled {goal : Goal} {way : Option Walk} {result : ActionResult}
    (hunmoved : Engine.Unmoved goal way result) : result ≠ .error .cancelled := by
  intro hcancelled
  cases hunmoved with
  | missing _ operation => cases operation <;> cases hcancelled
  | outOfRange => cases hcancelled
  | arrived => cases hcancelled
  | stuck _ _ _ operation => cases operation <;> cases hcancelled

theorem Lot.of_acting (hphase : staged.engine.phase = .acting run) (hjob : run.job = job) : Lot job staged := by
  by_cases hrun : run ∈ staged.started
  · exact .started run hrun hjob
  · exact .decided run (mem_decided.mpr ⟨hphase, hrun⟩) hjob

theorem Lot.play (hlot : Lot job staged) (hsteady : staged.engine.Steady) (beat : Beat) : Lot job (staged.play beat) := by
  have hplayed := staged.played_play beat
  have hlater : ∀ run ∈ staged.started, run ∈ (staged.play beat).started := fun run hrun => subset_play hrun beat
  cases hlot with
  | started run hrun hjob => exact .started run (hlater run hrun) hjob
  | choosing way hphase =>
    cases hplayed with
    | held hengine => exact .choosing way (hengine ▸ hphase)
    | started hengine => exact .choosing way (hengine ▸ hphase)
    | moved move _ _ hengine =>
      rcases Engine.apply_choosing hsteady hphase move with hsame | hdecided
      · exact .choosing way (hengine ▸ hsame.trans hphase)
      · rw [← hengine] at hdecided
        cases hdecided with
        | bound walk _ _ hafter => exact .choosing _ hafter
        | started run hjob _ hafter => exact .of_acting hafter hjob
        | answered hunmoved hanswer => exact .answered _ hanswer (Unmoved.ne_cancelled hunmoved)
  | decided run hrun hjob =>
    cases hplayed with
    | held hengine =>
      exact .of_acting (hengine ▸ (mem_decided.mp hrun).1) hjob
    | started _ hstarted => exact .started run (hstarted ▸ List.mem_append_right _ hrun) hjob
    | moved move _ hfree hengine =>
      refine .of_acting ?_ hjob
      rcases Engine.apply_acting (mem_decided.mp hrun).1 move with ⟨-, hsame⟩ | ⟨outcome, rfl, -⟩
      · exact hengine ▸ hsame.trans (mem_decided.mp hrun).1
      · rw [hfree rfl] at hrun
        cases hrun
  | answered result hanswer hresult =>
    refine .answered result ?_ hresult
    cases hplayed with
    | held hengine => exact hengine ▸ hanswer
    | started hengine => exact hengine ▸ hanswer
    | moved move _ _ hengine => exact hengine ▸ (Engine.passage_apply _ move).answers_extended.subset hanswer

theorem Lot.playAll (hlot : Lot job staged) (hfitting : staged.Fitting) (beats : List Beat) :
    Lot job (staged.playAll beats) := by
  induction beats generalizing staged with
  | nil => exact hlot
  | cons beat beats ih => exact ih (hlot.play hfitting.steady beat) (hfitting.play beat)

theorem Fitting.lot (hfitting : staged.Fitting) (hjob : job ∈ staged.engine.unanswered)
    (hfree : ∀ run ∈ staged.started, run.job ≠ job) (htaken : job ∉ staged.engine.queue) : Lot job staged := by
  have hhand : staged.engine.phase.job? = some job := by
    rcases List.mem_append.mp hjob with hhand | hqueue
    · exact Option.mem_toList.mp hhand
    · exact absurd hqueue htaken
  cases hphase : staged.engine.phase with
  | idle => rw [hphase] at hhand; cases hhand
  | choosing other way =>
    rw [hphase] at hhand
    obtain rfl := Option.some.inj hhand
    exact .choosing way hphase
  | acting run =>
    rw [hphase] at hhand
    exact .of_acting hphase (Option.some.inj hhand)
  | resting other walk =>
    rw [hphase] at hhand
    obtain rfl := Option.some.inj hhand
    obtain ⟨run, hrun, hjob⟩ := hfitting.rested other walk hphase
    exact absurd hjob (hfree run hrun)

/-- A job with the lot of a taken one is answered otherwise than as cancelled, unless an action was started for it. -/
theorem Lot.started_of_cancelled (hlot : Lot job staged) (hnumbered : staged.engine.Numbered)
    (hanswer : staged.engine.answer? job.ticket = some (.error .cancelled)) : ∃ run ∈ staged.started, run.job = job := by
  have hopen : job ∉ staged.engine.unanswered := by
    intro hopen
    rw [hnumbered.answer?_eq_none hopen] at hanswer
    cases hanswer
  cases hlot with
  | started run hrun hjob => exact ⟨run, hrun, hjob⟩
  | choosing way hphase => exact absurd (Engine.mem_unanswered_of_job (by rw [hphase]; rfl)) hopen
  | decided run hrun hjob =>
    have hphase := (mem_decided.mp hrun).1
    exact absurd (Engine.mem_unanswered_of_job (by rw [hphase, ← hjob]; rfl)) hopen
  | answered result hother hresult =>
    rw [hnumbered.answer?_eq_some hother] at hanswer
    exact absurd (Option.some.inj hanswer) hresult

/-! ### Jobs from before a clear -/

theorem since_playAll (staged : Staged) {engine : Engine} (hsince : Engine.Since engine staged.engine) (beats : List Beat) :
    Engine.Since engine (staged.playAll beats).engine := by
  obtain ⟨moves, hmoves, -⟩ := staged.exists_moves beats
  exact hmoves ▸ hsince.applyAll moves

/-- What is started after a clear for a job from before it: an action that the worker had decided on, or that of the
execution on which it was about to decide. -/
theorem started_since (staged : Staged) {engine : Engine} (hsince : Engine.Since engine staged.engine) (beats : List Beat)
    (hrun : run ∈ (staged.playAll beats).started) (hold : run.job.ticket < engine.nextTicket) :
    run ∈ staged.started ∨ engine.phase = .acting run ∨
      run.step.operation = .execute ∧ ∃ way, engine.phase = .choosing run.job way := by
  induction beats using List.reverseRecOn with
  | nil => exact .inl hrun
  | append_singleton beats beat ih =>
    rw [playAll_concat] at hrun
    cases (staged.playAll beats).played_play beat with
    | moved _ _ _ _ hstarted => exact ih (hstarted ▸ hrun)
    | held _ hstarted => exact ih (hstarted ▸ hrun)
    | started _ hstarted =>
      rcases List.mem_append.mp (hstarted ▸ hrun) with hbefore | hnow
      · exact ih hbefore
      · exact .inr ((since_playAll staged hsince beats).acting run (mem_decided.mp hnow).1 hold)

theorem Fitting.job_ne_of_queue (hfitting : staged.Fitting) (hjob : job ∈ staged.engine.queue)
    (hrun : run ∈ staged.started) : run.job ≠ job := by
  rintro rfl
  rcases List.mem_append.mp (hfitting.taken run hrun) with hanswered | hhand
  · obtain ⟨answer, hanswer, hticket⟩ := List.mem_map.mp hanswered
    have hless := hfitting.numbered.not_answered (Engine.mem_unanswered_of_queue hjob) hanswer
    exact absurd hticket hless.ne
  · obtain ⟨other, hother, hticket⟩ := Option.map_eq_some_iff.mp (Option.mem_toList.mp hhand)
    exact hfitting.numbered.ticket_ne_of_queue hother hjob hticket.symm

/-! ### Before and after -/

/-- What is said of a clear of the engine `cleared` in a run that goes on with `later`. -/
structure Separates (cleared : Staged) (later : List Beat) : Prop where
  /-- A job that has its answer in the end, and of which no action had been started at the clear, was cancelled without
  any action exactly if the worker had not taken it from the queue. -/
  discarded : ∀ job ∈ cleared.engine.unanswered, (∀ run ∈ cleared.started, run.job ≠ job) →
    ∀ result, (cleared.playAll (.move .clear :: later)).engine.answer? job.ticket = some result →
      (result = .error .cancelled ∧ (∀ run ∈ (cleared.playAll (.move .clear :: later)).started, run.job ≠ job) ↔
        job ∈ cleared.engine.queue)
  /-- No action is ever started for a job that was in the queue, and it is cancelled when everything is settled. -/
  waiting : ∀ job ∈ cleared.engine.queue,
    (∀ run ∈ (cleared.playAll (.move .clear :: later)).started, run.job ≠ job) ∧
      ∀ (World : Type) (host : Host World) (world : World),
        (host.settle (cleared.playAll (.move .clear :: later)).engine world).1.answer? job.ticket =
          some (.error .cancelled)
  /-- For a job from before the clear, nothing is started after it but the action on which the worker had decided, or that
  of the execution on which it was about to decide. -/
  halted : ∀ run ∈ (cleared.playAll (.move .clear :: later)).started, run.job.ticket < cleared.engine.nextTicket →
    run ∈ cleared.started ∨ run ∈ cleared.decided ∨
      run.step.operation = .execute ∧ ∃ way, cleared.engine.phase = .choosing run.job way
  /-- No step of the worker for a job from before the clear, and no end of an action of it, changes the history. -/
  kept : ∀ job, (cleared.playAll (.move .clear :: later)).engine.phase.job? = some job →
    job.ticket < cleared.engine.nextTicket → ∀ move, move = .advance ∨ (∃ outcome, move = .finish outcome) →
      ((cleared.playAll (.move .clear :: later)).play (.move move)).engine.history =
        (cleared.playAll (.move .clear :: later)).engine.history
  /-- What stands in a stack was executed for a job from after the clear. -/
  recorded : ∀ id, ∀ command ∈ (cleared.playAll (.move .clear :: later)).engine.history.line id,
    ∃ first outcome last run, later = first ++ .move (.finish outcome) :: last ∧
      (cleared.playAll (.move .clear :: first)).engine.phase = .acting run ∧ run.step = ⟨command, id, .execute⟩ ∧
      cleared.engine.nextTicket ≤ run.job.ticket

section Run

variable {start : Engine}

theorem since_of_clear (hfitting : cleared.Fitting) (later : List Beat) :
    Engine.Since cleared.engine (cleared.playAll (.move .clear :: later)).engine :=
  since_playAll (cleared.play (.move .clear)) (Engine.since_clear hfitting.steady hfitting.numbered) later

theorem job_ne_of_waiting (hfitting : cleared.Fitting) (later : List Beat) (hjob : job ∈ cleared.engine.queue)
    (hrun : run ∈ (cleared.playAll (.move .clear :: later)).started) : run.job ≠ job := by
  rintro rfl
  have hsince := Engine.since_clear hfitting.steady hfitting.numbered
  have hhand : cleared.engine.phase.job? ≠ some run.job := fun hhand =>
    hfitting.numbered.ticket_ne_of_queue hhand hjob rfl
  rcases started_since (cleared.play (.move .clear)) hsince later hrun (hsince.old_of_waiting hjob) with
    hstarted | hacting | ⟨-, way, hchoosing⟩
  · exact hfitting.job_ne_of_queue hjob hstarted rfl
  · exact hhand (by rw [hacting]; rfl)
  · exact hhand (by rw [hchoosing]; rfl)

private theorem discarded_iff (hfitting : cleared.Fitting) (later : List Beat)
    (hjob : job ∈ cleared.engine.unanswered) (hfree : ∀ run ∈ cleared.started, run.job ≠ job) {result : ActionResult}
    (hanswer : (cleared.playAll (.move .clear :: later)).engine.answer? job.ticket = some result) :
    result = .error .cancelled ∧ (∀ run ∈ (cleared.playAll (.move .clear :: later)).started, run.job ≠ job) ↔
      job ∈ cleared.engine.queue := by
  have hnumbered := (hfitting.playAll (.move .clear :: later)).numbered
  constructor
  · rintro ⟨rfl, hnever⟩
    by_contra htaken
    have hlot := (hfitting.lot hjob hfree htaken).playAll hfitting (.move .clear :: later)
    obtain ⟨run, hrun, hown⟩ := hlot.started_of_cancelled hnumbered hanswer
    exact hnever run hrun hown
  · intro hqueue
    refine ⟨?_, fun run hrun => job_ne_of_waiting hfitting later hqueue hrun⟩
    rcases (since_of_clear hfitting later).waiting job hqueue with hstill | hcancelled
    · rw [hnumbered.answer?_eq_none (Engine.mem_unanswered_of_queue hstill)] at hanswer
      cases hanswer
    · rw [hnumbered.answer?_eq_some hcancelled] at hanswer
      exact (Option.some.inj hanswer).symm

private theorem history_play {engine : Engine} (hsince : Engine.Since engine staged.engine)
    (hjob : staged.engine.phase.job? = some job) (hold : job.ticket < engine.nextTicket) {move : Move}
    (hmove : move = .advance ∨ ∃ outcome, move = .finish outcome) :
    (staged.play (.move move)).engine.history = staged.engine.history := by
  cases staged.played_play (.move move) with
  | held hengine => rw [hengine]
  | started hengine => rw [hengine]
  | moved other hbeat _ hengine =>
    obtain rfl := Beat.move.inj hbeat
    rw [hengine]
    rcases hmove with rfl | ⟨outcome, rfl⟩
    · exact Engine.history_advance hsince.toSteady
    · exact hsince.history_finish hjob hold outcome

private theorem recorded_since (hfresh : start.Fresh) (before later : List Beat) {id : StackId} {command : Command}
    (hmem : command ∈
      (((⟨start, []⟩ : Staged).playAll before).playAll (.move .clear :: later)).engine.history.line id) :
    ∃ first outcome last run, later = first ++ .move (.finish outcome) :: last ∧
      (((⟨start, []⟩ : Staged).playAll before).playAll (.move .clear :: first)).engine.phase = .acting run ∧
      run.step = ⟨command, id, .execute⟩ ∧
      ((⟨start, []⟩ : Staged).playAll before).engine.nextTicket ≤ run.job.ticket := by
  obtain ⟨earlier, hearlier, -⟩ := exists_moves ⟨start, []⟩ before
  generalize (⟨start, []⟩ : Staged).playAll before = cleared at hearlier hmem ⊢
  obtain ⟨moves, hmoves, hsplit⟩ := exists_moves (cleared.play (.move .clear)) later
  have hclear : (cleared.play (.move .clear)).engine = (start.applyAll earlier).apply .clear := hearlier ▸ rfl
  have hlast : (cleared.playAll (.move .clear :: later)).engine = start.applyAll (earlier ++ .clear :: moves) := by
    rw [Engine.applyAll_append, Engine.applyAll_cons, ← hclear]
    exact hmoves
  rw [hlast] at hmem
  obtain ⟨first, outcome, last, run, rfl, hphase, hstep, hticket⟩ := hfresh.executed_since hmem
  obtain ⟨front, rest, rfl, hfront⟩ := hsplit first _ last rfl
  refine ⟨front, outcome, rest, run, rfl, ?_, hstep, hearlier ▸ hticket⟩
  rw [Engine.applyAll_append, Engine.applyAll_cons, ← hclear, ← hfront] at hphase
  exact hphase

/-- **What a clear separates**, wherever it falls between the moments at which the worker takes a job, decides on an
action and starts it. A job with no action started at the clear is cancelled without any action exactly if it is still in
the queue then; one that the worker has taken goes on. The jobs from before the clear do nothing more to the history, and
no job is cancelled that was not under way at some clear. -/
theorem separates_unless_taken (hfresh : start.Fresh) :
    (∀ before later, Separates ((⟨start, []⟩ : Staged).playAll before) later) ∧
    ∀ beats ticket, ((⟨start, []⟩ : Staged).playAll beats).engine.answer? ticket = some (.error .cancelled) →
      ∃ before later job, beats = before ++ .move .clear :: later ∧
        job ∈ ((⟨start, []⟩ : Staged).playAll before).engine.unanswered ∧ job.ticket = ticket := by
  constructor
  · intro before later
    have hfitting := (fitting_of_fresh hfresh).playAll before
    have hsince := since_of_clear hfitting later
    constructor
    · exact fun job hjob hfree result hanswer => discarded_iff hfitting later hjob hfree hanswer
    · refine fun job hjob => ⟨fun run hrun => job_ne_of_waiting hfitting later hjob hrun, fun World host world => ?_⟩
      obtain ⟨moves, hmoves, -⟩ := exists_moves ⟨start, []⟩ (before ++ .move .clear :: later)
      rw [playAll_append] at hmoves
      exact hsince.cancelled_settle hjob (hmoves ▸ hfresh.working.applyAll moves) host world
    · intro run hrun hold
      rcases started_since (Staged.play _ (.move .clear))
        (Engine.since_clear hfitting.steady hfitting.numbered) later hrun hold with hstarted | hacting | hexecute
      · exact .inl hstarted
      · by_cases hstarted : run ∈ ((⟨start, []⟩ : Staged).playAll before).started
        · exact .inl hstarted
        · exact .inr (.inl (mem_decided.mpr ⟨hacting, hstarted⟩))
      · exact .inr (.inr hexecute)
    · exact fun job hjob hold move hmove => history_play hsince hjob hold hmove
    · exact fun id command hmem => recorded_since hfresh before later hmem
  · intro beats ticket hanswer
    obtain ⟨moves, hmoves, hsplit⟩ := exists_moves ⟨start, []⟩ beats
    rw [hmoves] at hanswer
    obtain ⟨front, rest, hanswers, -⟩ := List.lookup_eq_some_iff.mp hanswer
    obtain ⟨first, last, job, hclear, hjob, hticket⟩ := (hfresh.dated moves).cancelled ticket (by simp [hanswers])
    obtain ⟨before, later, rfl, hbefore⟩ := hsplit first _ last hclear
    exact ⟨before, later, job, rfl, hbefore ▸ hjob, hticket⟩

end Run

/-- A command waits while the worker has taken the job of another one and not decided on its action. -/
def takenAndWaiting : List Beat :=
  [.move (.submit (.execute (Engine.sampleCommand 0))), .move .advance,
    .move (.submit (.execute (Engine.sampleCommand 1)))]

/-- The action of the job at hand is chosen, started and ended, and the worker goes on to the next job. -/
def performed : List Beat := [.move .advance, .start, .move Engine.success, .move .advance]

/-- After a clear the job that had been taken is answered with the result of its action, and the other is cancelled. -/
theorem separates_unless_taken_sample :
    Engine.sampleEngine.Fresh ∧
      (∀ before later, Separates ((⟨Engine.sampleEngine, []⟩ : Staged).playAll before) later) ∧
      (((⟨Engine.sampleEngine, []⟩ : Staged).playAll takenAndWaiting).playAll (.move .clear :: performed)).engine.answers =
        [(1, .ok .null), (2, .error .cancelled)] :=
  ⟨Engine.sampleEngine_fresh, (separates_unless_taken Engine.sampleEngine_fresh).1, by decide⟩

/-- A clear does not discard every job whose command is on the waiting list and whose action has not been started. -/
theorem not_always_discarded : ¬ ∀ (start : Engine) (before later : List Beat) (job : Job) (result : ActionResult),
    start.Fresh → job ∈ ((⟨start, []⟩ : Staged).playAll before).engine.unanswered →
    (∃ entry ∈ ((⟨start, []⟩ : Staged).playAll before).engine.waiting, entry.ticket = job.ticket) →
    (∀ run ∈ ((⟨start, []⟩ : Staged).playAll before).started, run.job ≠ job) →
    (((⟨start, []⟩ : Staged).playAll before).playAll (.move .clear :: later)).engine.answer? job.ticket = some result →
    result = .error .cancelled := by
  intro hdiscarded
  have hcancelled := hdiscarded Engine.sampleEngine takenAndWaiting performed
    ⟨1, 0, .execute (Engine.sampleCommand 0) Engine.sampleStack⟩ (.ok .null) Engine.sampleEngine_fresh (by decide)
    (by decide) (by decide) (by decide)
  cases hcancelled

end Staged

end Retrace
