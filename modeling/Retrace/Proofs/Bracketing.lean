import Retrace.Proofs.Blocks
import Retrace.Proofs.Reporting

/-!
# Whether the events come in blocks

What the worker publishes comes in one block for each action. A report that is on its way when its action ends may still
fall outside, or into the block of another command. The events of a run are well formed exactly if no report does.
-/

namespace Retrace

def Block.bare (block : Block) : Block := { block with reports := [] }

/-- The events that have been published, with those that are left of the end of an action, are a block for each action that
has ended, and the opening of the block of the action that runs. -/
def InBlocks (events pending : List EngineEvent) (done : List Block) (running : Option Run) : Prop :=
  ∃ (blocks : List Block) (reports : List ProgressEvent), blocks.map Block.bare = done ∧
    events ++ pending = blocks.flatMap Block.events ++ running.elim [] fun run => run.opening reports

section Blocks

variable {events pending : List EngineEvent} {done blocks : List Block} {running : Option Run} {run : Run} {block : Block}
  {event : EngineEvent} {command : CommandId} {progress : ProgressEvent} {reports : List ProgressEvent}

theorem Block.progress?_of_mem_closing (hmem : event ∈ block.closing) : event.progress? = none := by
  rw [Engine.closing_eq] at hmem
  exact Engine.progress?_of_mem_closingEvents hmem

theorem Block.exists_closing (block : Block) : ∃ front event, block.closing = front ++ [event] := by
  refine (List.eq_nil_or_concat' block.closing).resolve_left fun hnil => ?_
  simp [Engine.closing_eq, Engine.closingEvents] at hnil

private theorem InBlocks.began (hblocks : InBlocks events [] done none) (run : Run) :
    InBlocks (events ++ Engine.around run.step true) [] done (some run) := by
  obtain ⟨blocks, reports, hended, hevents⟩ := hblocks
  refine ⟨blocks, [], hended, ?_⟩
  rw [Option.elim_none, List.append_nil, List.append_nil] at hevents
  rw [Option.elim_some, Engine.opening_nil, List.append_nil, hevents]

private theorem InBlocks.ended (hblocks : InBlocks events [] done (some block.run)) (hbare : block.bare = block) :
    InBlocks events block.closing (done ++ [block]) none := by
  obtain ⟨blocks, reports, hended, hevents⟩ := hblocks
  refine ⟨blocks ++ [{ block with reports }], [], ?_, ?_⟩
  · rw [List.map_append, hended]
    exact congrArg (done ++ [·]) hbare
  · rw [List.append_nil, Option.elim_some] at hevents
    rw [hevents, List.flatMap_append, List.flatMap_singleton, Option.elim_none, List.append_nil, List.append_assoc]
    rfl

private theorem InBlocks.closed (hblocks : InBlocks events (event :: pending) done running) :
    InBlocks (events ++ [event]) pending done running := by
  obtain ⟨blocks, reports, hended, hevents⟩ := hblocks
  exact ⟨blocks, reports, hended, by rw [List.append_assoc, List.singleton_append, hevents]⟩

theorem progress?_of_concat (hevents : events ++ [event] = blocks.flatMap Block.events) : event.progress? = none := by
  rcases List.eq_nil_or_concat' blocks with rfl | ⟨front, block, rfl⟩
  · exact absurd hevents (List.append_ne_nil_of_right_ne_nil _ (List.cons_ne_nil _ _))
  · obtain ⟨closing, last, hclosing⟩ := block.exists_closing
    rw [List.flatMap_append, List.flatMap_singleton, Block.events, hclosing, ← List.append_assoc,
      ← List.append_assoc] at hevents
    obtain rfl := List.singleton_inj.mp (List.append_inj_right' hevents rfl)
    exact block.progress?_of_mem_closing (hclosing ▸ List.mem_append_right _ List.mem_cons_self)

theorem id_eq_of_concat
    (hevents : events ++ [.progress command progress] = blocks.flatMap Block.events ++ run.opening reports) :
    run.step.command.id = command := by
  rcases List.eq_nil_or_concat' reports with rfl | ⟨front, last, rfl⟩
  · rw [Engine.opening_nil] at hevents
    rcases List.eq_nil_or_concat' (Engine.around run.step true) with hnone | ⟨before, event, haround⟩
    · rw [hnone, List.append_nil] at hevents
      cases progress?_of_concat hevents
    · rw [haround, ← List.append_assoc] at hevents
      obtain rfl := List.singleton_inj.mp (List.append_inj_right' hevents rfl)
      have hmem : EngineEvent.progress command progress ∈ Engine.around run.step true := by simp [haround]
      cases Engine.progress?_of_mem_around hmem
  · rw [Engine.opening_concat, ← List.append_assoc] at hevents
    have hlast := List.singleton_inj.mp (List.append_inj_right' hevents rfl)
    exact (EngineEvent.progress.inj hlast).1.symm

/-- The place where a report of a command may be published: in the opening of the block of an action of this command, which
runs or has published nothing of its end. -/
def HasPlace (pending : List EngineEvent) (done : List Block) (running : Option Run) (command : CommandId) : Prop :=
  (∃ run, running = some run ∧ run.step.command.id = command) ∨
    ∃ block, done.getLast? = some block ∧ pending = block.closing ∧ block.run.step.command.id = command

private theorem InBlocks.aired (hblocks : InBlocks events pending done running)
    (hrunning : running.isSome → pending = []) (hplace : HasPlace pending done running command)
    (progress : ProgressEvent) : InBlocks (events ++ [.progress command progress]) pending done running := by
  obtain ⟨blocks, reports, hended, hevents⟩ := hblocks
  rcases hplace with ⟨run, rfl, rfl⟩ | ⟨block, hlast, rfl, rfl⟩
  · obtain rfl := hrunning rfl
    rw [List.append_nil, Option.elim_some] at hevents
    refine ⟨blocks, reports ++ [progress], hended, ?_⟩
    rw [List.append_nil, Option.elim_some, Engine.opening_concat, hevents, List.append_assoc]
  · -- the action has ended, and the report comes before anything of its end
    have hidle : running = none := by
      refine Option.not_isSome_iff_eq_none.mp fun hsome => ?_
      obtain ⟨front, event, hclosing⟩ := block.exists_closing
      exact absurd (hclosing.symm.trans (hrunning hsome)) (List.append_ne_nil_of_right_ne_nil _ (List.cons_ne_nil _ _))
    subst hidle
    obtain ⟨front, last, rfl, rfl⟩ : ∃ front last, blocks = front ++ [last] ∧ last.bare = block := by
      rcases List.eq_nil_or_concat' blocks with rfl | ⟨front, last, rfl⟩
      · simp [← hended] at hlast
      · exact ⟨front, last, rfl, by simpa [← hended] using hlast⟩
    rw [Option.elim_none, List.append_nil, List.flatMap_append, List.flatMap_singleton, Block.events,
      ← List.append_assoc] at hevents
    refine ⟨front ++ [{ last with reports := last.reports ++ [progress] }], [], ?_, ?_⟩
    · rw [← hended, List.map_append, List.map_append]
      rfl
    · rw [List.append_cancel_right hevents, List.flatMap_append, List.flatMap_singleton, Block.events, Option.elim_none,
        List.append_nil, Engine.opening_concat, ← List.append_assoc, ← List.append_assoc]
      rfl

theorem InBlocks.hasPlace (hblocks : InBlocks (events ++ [.progress command progress]) pending done running)
    (hrunning : running.isSome → pending = []) (hsuffix : pending <:+ done.getLast?.elim [] Block.closing) :
    HasPlace pending done running command := by
  obtain ⟨blocks, reports, hended, hevents⟩ := hblocks
  cases running with
  | some run =>
    obtain rfl := hrunning rfl
    rw [List.append_nil, Option.elim_some] at hevents
    exact .inl ⟨run, rfl, id_eq_of_concat hevents⟩
  | none =>
    rw [Option.elim_none, List.append_nil] at hevents
    rcases List.eq_nil_or_concat' blocks with rfl | ⟨front, last, rfl⟩
    · simp at hevents
    · rw [List.map_append] at hended
      have hlast : done.getLast? = some last.bare := by simp [← hended]
      rw [hlast, Option.elim_some] at hsuffix
      obtain ⟨first, hfirst⟩ := hsuffix
      have hclosing : first ++ pending = last.closing := hfirst
      rw [List.flatMap_append, List.flatMap_singleton, Block.events, ← hclosing,
        ← List.append_assoc, ← List.append_assoc] at hevents
      have hopened := List.append_cancel_right hevents
      -- what has been published of the end would come last
      rcases List.eq_nil_or_concat' first with rfl | ⟨before, event, rfl⟩
      · rw [List.append_nil] at hopened
        exact .inr ⟨last.bare, hlast, hclosing, id_eq_of_concat hopened⟩
      · rw [← List.append_assoc] at hopened
        obtain rfl := List.singleton_inj.mp (List.append_inj_right' hopened rfl)
        have hmem : EngineEvent.progress command progress ∈ last.closing := by simp [← hclosing]
        cases last.progress?_of_mem_closing hmem

end Blocks

namespace Newsroom

variable {newsroom : Newsroom} {start : Engine} {happening : Happening} {happenings : List Happening}
  {events : List EngineEvent} {blocks : List Block} {runs : List Run}

def announced (newsroom : Newsroom) (happening : Happening) : List EngineEvent :=
  (newsroom.play happening).engine.bus.published.drop newsroom.engine.bus.published.length

/-- The events that are published when one thing happens, unless a call announces that it has changed the history. -/
def worked (newsroom : Newsroom) (happening : Happening) : List EngineEvent :=
  match happening with
  | .act (.go (.caller _)) _ => []
  | _ => newsroom.announced happening

def ends (newsroom : Newsroom) (happening : Happening) : List Block :=
  match happening, newsroom.scene.running? with
  | .act (.start .worker (.finish outcome)) _, some run =>
    [⟨run, [], outcome, newsroom.engine.history, (newsroom.play happening).engine.history⟩]
  | _, _ => []

def ended (start : Engine) (happenings : List Happening) : List Block := (opening start).along ends happenings

def WellFormed (start : Engine) (happenings : List Happening) : Prop :=
  InBlocks ((opening start).along worked happenings) ((opening start).playAll happenings).scene.pending
    (ended start happenings) ((opening start).playAll happenings).scene.running?

theorem announced_eq
    (hpublished : (newsroom.play happening).engine.bus.published = newsroom.engine.bus.published ++ events) :
    newsroom.announced happening = events := by
  rw [announced, hpublished, List.drop_left]

/-- What one thing that happens does to the action that runs and to the events, the announcements of calls apart. -/
inductive Turn (newsroom : Newsroom) (happening : Happening) (after : Newsroom) : Prop where
  | quiet (hworked : newsroom.worked happening = []) (hends : newsroom.ends happening = [])
      (hrunning : after.scene.running? = newsroom.scene.running?) (hpending : after.scene.pending = newsroom.scene.pending)
      (hruns : after.engine.runs = newsroom.engine.runs)
  | began (run : Run) (hworked : newsroom.worked happening = Engine.around run.step true)
      (hends : newsroom.ends happening = []) (hidle : newsroom.scene.running? = none)
      (hnothing : newsroom.scene.pending = []) (hrunning : after.scene.running? = some run)
      (hnumber : run.number = newsroom.engine.runs) (hruns : after.engine.runs = newsroom.engine.runs + 1)
  | ended (block : Block) (hworked : newsroom.worked happening = []) (hends : newsroom.ends happening = [block])
      (hbare : block.bare = block) (hrunning : newsroom.scene.running? = some block.run)
      (hidle : after.scene.running? = none) (hpending : after.scene.pending = block.closing)
      (howed : Engine.lastDeed block.run block.result ∈ after.scene.owed .worker)
      (hruns : after.engine.runs = newsroom.engine.runs)
  | closed (event : EngineEvent) (hworked : newsroom.worked happening = [event]) (hends : newsroom.ends happening = [])
      (hidle : newsroom.scene.running? = none) (hafter : after.scene.running? = none)
      (hpending : newsroom.scene.pending = event :: after.scene.pending) (hruns : after.engine.runs = newsroom.engine.runs)
  | aired (position : Nat) (dispatch : Dispatch) (happens : happening = .air position)
      (hsent : newsroom.sent[position]? = some dispatch)
      (hworked : newsroom.worked happening = [.progress dispatch.command dispatch.event])
      (hends : newsroom.ends happening = []) (hrunning : after.scene.running? = newsroom.scene.running?)
      (hpending : after.scene.pending = newsroom.scene.pending) (hruns : after.engine.runs = newsroom.engine.runs)

private theorem ends_of_other {act : Act} {hother : act.isReport = false}
    (hact : ∀ outcome, act = .start .worker (.finish outcome) → newsroom.scene.running? = none) :
    newsroom.ends (.act act hother) = [] := by
  unfold ends
  split
  · next outcome _ run heq hrunning => exact nomatch (hact outcome (Happening.act.inj heq)).symm.trans hrunning
  · rfl

private theorem worked_act {act : Act} {hother : act.isReport = false} (hact : ∀ number, act ≠ .go (.caller number))
    (hpublished : (newsroom.play (.act act hother)).scene.published = newsroom.scene.published ++ events) :
    newsroom.worked (.act act hother) = events := by
  unfold worked
  split
  · next number _ heq => exact absurd (Happening.act.inj heq) (hact number)
  · exact announced_eq hpublished

theorem course_act (htidy : newsroom.scene.Tidy) (act : Act) (hother : act.isReport = false) :
    newsroom.scene.Course act (newsroom.play (.act act hother)).scene := by
  rw [play, scene_attend]
  exact Scene.course_play htidy act hother

private theorem turn_act (htidy : newsroom.scene.Tidy) (act : Act) (hother : act.isReport = false) :
    newsroom.Turn (.act act hother) (newsroom.play (.act act hother)) := by
  cases course_act htidy act hother with
  | quiet hpublished hrunning hpending hruns hact =>
    refine .quiet ?_ (ends_of_other hact) hrunning hpending hruns
    by_cases hcall : ∃ number, act = .go (.caller number)
    · obtain ⟨number, rfl⟩ := hcall
      rfl
    · exact worked_act (not_exists.mp hcall) (hpublished.trans (List.append_nil _).symm)
  | called number hact hpublished hrunning hpending hruns =>
    subst hact
    exact .quiet rfl rfl hrunning hpending hruns
  | began run hact hidle hnothing hrunning hnumber hruns hpublished =>
    subst hact
    exact .began run (worked_act (by simp) hpublished) rfl hidle hnothing hrunning hnumber hruns
  | ended run outcome hact hrunning hidle hpending hhistory howed hruns hpublished =>
    subst hact
    have hacting : newsroom.engine.phase = .acting run :=
      Engine.phase_of_run? ((Scene.running?_of_nil (Scene.owed_of_running hrunning)).symm.trans hrunning)
    have hends : newsroom.ends (.act (.start .worker (.finish outcome)) hother) =
        [⟨run, [], outcome, newsroom.engine.history, (newsroom.engine.finish outcome).history⟩] := by
      simp only [ends, hrunning, ← hhistory, engine]
    refine .ended _ (worked_act (by simp) (hpublished.trans (List.append_nil _).symm)) hends rfl hrunning hidle ?_ howed
      hruns
    rw [Engine.closing_eq, hpending]
    exact congrArg _ (Engine.took_eq_alters htidy.steady hacting outcome).symm
  | closed event hact hevent hidle hafter hpending hruns hpublished =>
    subst hact
    exact .closed event (worked_act (by simp) hpublished) rfl hidle hafter hpending hruns

private theorem turn_aside (hact : ∀ act hother, happening ≠ .act act hother)
    (hpublished : (newsroom.play happening).engine.bus.published = newsroom.engine.bus.published) :
    newsroom.Turn happening (newsroom.play happening) := by
  have haside := newsroom.aside_play hact
  refine .quiet ?_ ?_ haside.running?_eq ?_ haside.runs
  · unfold worked
    split
    · rfl
    · exact announced_eq (hpublished.trans (List.append_nil _).symm)
  · unfold ends
    split
    · next heq _ => exact absurd rfl (hact _ _)
    · rfl
  · rw [Scene.pending, Scene.pending, haside.owed]

theorem worked_air {position : Nat} {dispatch : Dispatch} (hsent : newsroom.sent[position]? = some dispatch) :
    newsroom.worked (.air position) = [.progress dispatch.command dispatch.event] ∧
      (newsroom.play (.air position)).scene.running? = newsroom.scene.running? ∧
      (newsroom.play (.air position)).scene.pending = newsroom.scene.pending := by
  have haside : newsroom.Aside (newsroom.play (.air position)) := newsroom.aside_play (by simp)
  refine ⟨announced_eq ?_, haside.running?_eq, ?_⟩
  · rw [play_air hsent]
    rfl
  · rw [Scene.pending, Scene.pending, haside.owed]

theorem turn_play (htidy : newsroom.scene.Tidy) (happening : Happening) :
    newsroom.Turn happening (newsroom.play happening) := by
  cases happening with
  | act act hother => exact turn_act htidy act hother
  | copy slot => exact turn_aside (by simp) rfl
  | ask slot event =>
    refine turn_aside (by simp) ?_
    simp only [play, ask]
    split
    · rfl
    · split_ifs <;> rfl
  | send position =>
    refine turn_aside (by simp) ?_
    simp only [play, send]
    split <;> rfl
  | air position =>
    cases hsent : newsroom.sent[position]? with
    | none => exact turn_aside (by simp) (by rw [play_air_of_none hsent])
    | some dispatch =>
      obtain ⟨hworked, hrunning, hpending⟩ := worked_air hsent
      exact .aired position dispatch rfl hsent hworked rfl hrunning hpending (newsroom.aside_play (by simp)).runs

/-! ### Runs -/

theorem pending_of_isSome (hrunning : newsroom.scene.running?.isSome) : newsroom.scene.pending = [] := by
  obtain ⟨run, hrun⟩ := Option.isSome_iff_exists.mp hrunning
  exact Scene.pending_of_running hrun

theorem Turn.suffix {after : Newsroom} (hturn : newsroom.Turn happening after)
    (hsuffix : newsroom.scene.pending <:+ blocks.getLast?.elim [] Block.closing) :
    after.scene.pending <:+ (blocks ++ newsroom.ends happening).getLast?.elim [] Block.closing := by
  cases hturn with
  | quiet _ hends _ hpending => rwa [hends, List.append_nil, hpending]
  | began run _ hends _ _ hrunning =>
    rw [Scene.pending_of_running hrunning]
    exact List.nil_suffix
  | ended block _ hends _ _ _ hpending =>
    rw [hends, List.getLast?_concat, hpending]
    exact List.suffix_refl _
  | closed event _ hends _ _ hpending =>
    rw [hends, List.append_nil]
    rw [hpending] at hsuffix
    exact (List.suffix_cons _ _).trans hsuffix
  | aired position dispatch _ _ _ hends _ hpending => rwa [hends, List.append_nil, hpending]

private theorem Turn.inBlocks {after : Newsroom} (hturn : newsroom.Turn happening after)
    (hblocks : InBlocks events newsroom.scene.pending blocks newsroom.scene.running?)
    (hplace : ∀ position dispatch, happening = .air position → newsroom.sent[position]? = some dispatch →
      HasPlace newsroom.scene.pending blocks newsroom.scene.running? dispatch.command) :
    InBlocks (events ++ newsroom.worked happening) after.scene.pending (blocks ++ newsroom.ends happening)
      after.scene.running? := by
  cases hturn with
  | quiet hworked hends hrunning hpending => rwa [hworked, hends, hrunning, hpending, List.append_nil, List.append_nil]
  | began run hworked hends hidle hnothing hrunning =>
    rw [hidle, hnothing] at hblocks
    rw [hworked, hends, hrunning, Scene.pending_of_running hrunning, List.append_nil]
    exact hblocks.began run
  | ended block hworked hends hbare hrunning hidle hpending =>
    rw [hrunning, Scene.pending_of_running hrunning] at hblocks
    rw [hworked, hends, hidle, hpending, List.append_nil]
    exact hblocks.ended hbare
  | closed event hworked hends hidle hafter hpending =>
    rw [hidle, hpending] at hblocks
    rw [hworked, hends, hafter, List.append_nil]
    exact hblocks.closed
  | aired position dispatch happens hsent hworked hends hrunning hpending =>
    rw [hworked, hends, hrunning, hpending, List.append_nil]
    exact hblocks.aired pending_of_isSome (hplace position dispatch happens hsent) dispatch.event

private theorem pending_suffix (hfresh : start.Fresh) (happenings : List Happening) :
    ((opening start).playAll happenings).scene.pending <:+ (ended start happenings).getLast?.elim [] Block.closing := by
  induction happenings using List.reverseRecOn with
  | nil => exact List.nil_suffix
  | append_singleton happenings happening ih =>
    rw [playAll_concat, ended, along_concat]
    exact (turn_play (playAll_tidy hfresh happenings) happening).suffix ih

def AlwaysWellFormed (start : Engine) (happenings : List Happening) : Prop :=
  ∀ before later, happenings = before ++ later → WellFormed start before

def AlwaysInPlace (start : Engine) (happenings : List Happening) : Prop :=
  ∀ before position later dispatch, happenings = before ++ .air position :: later →
    ((opening start).playAll before).sent[position]? = some dispatch →
      HasPlace ((opening start).playAll before).scene.pending (ended start before)
        ((opening start).playAll before).scene.running? dispatch.command

private theorem alwaysWellFormed_iff (hfresh : start.Fresh) (happenings : List Happening) :
    AlwaysWellFormed start happenings ↔ AlwaysInPlace start happenings := by
  constructor
  · intro hformed before position later dispatch hsplit hsent
    have hafter := hformed (before ++ [.air position]) later (by rw [hsplit, List.append_assoc]; rfl)
    rw [WellFormed, playAll_concat, ended, along_concat, along_concat] at hafter
    obtain ⟨hworked, hrunning, hpending⟩ := worked_air hsent
    rw [hworked, show Newsroom.ends _ (.air position) = [] from rfl, hrunning, hpending, List.append_nil] at hafter
    exact hafter.hasPlace pending_of_isSome (pending_suffix hfresh before)
  · intro hplace before
    induction before using List.reverseRecOn with
    | nil =>
      intro later _
      obtain ⟨registry, routes, defaultStack, limit, capacity, rfl⟩ := hfresh
      exact ⟨[], [], rfl, rfl⟩
    | append_singleton before happening ih =>
      intro later hsplit
      rw [List.append_assoc, List.singleton_append] at hsplit
      rw [WellFormed, playAll_concat, ended, along_concat, along_concat]
      refine (turn_play (playAll_tidy hfresh before) happening).inBlocks (ih _ hsplit) ?_
      rintro position dispatch rfl hsent
      exact hplace before position later dispatch hsplit hsent

/-- What is written down of the actions of a run. -/
structure Listed (newsroom : Newsroom) (runs : List Run) (blocks : List Block) : Prop where
  actions : runs = blocks.map Block.run ++ newsroom.scene.running?.toList
  numbered : runs.map Run.number = List.range newsroom.engine.runs
  results : ∀ block ∈ blocks, block.run.walk = none ∨ Outcome.succeeded block.result = false →
    (block.run.job.ticket, block.result) ∈ newsroom.engine.answers ∨
      .answer block.run.job block.result ∈ newsroom.scene.owed .worker

private theorem answered_play {job : Job} {result : ActionResult} (happening : Happening)
    (hanswer : (job.ticket, result) ∈ newsroom.engine.answers ∨ .answer job result ∈ newsroom.scene.owed .worker) :
    (job.ticket, result) ∈ (newsroom.play happening).engine.answers ∨
      .answer job result ∈ (newsroom.play happening).scene.owed .worker := by
  rcases newsroom.act_or_aside happening with ⟨act, hother, rfl⟩ | haside
  · rw [play, engine, scene_attend]
    rcases hanswer with hanswer | howed
    · exact .inl ((newsroom.scene.answers_play act).subset hanswer)
    · exact newsroom.scene.owed_play act howed
  · rwa [haside.answers, haside.owed]

theorem Listed.play (hlisted : newsroom.Listed runs blocks) (htidy : newsroom.scene.Tidy) (happening : Happening) :
    (newsroom.play happening).Listed (runs ++ newsroom.starts happening) (blocks ++ newsroom.ends happening) := by
  have hresults : ∀ block ∈ blocks, block.run.walk = none ∨ Outcome.succeeded block.result = false →
      (block.run.job.ticket, block.result) ∈ (newsroom.play happening).engine.answers ∨
        .answer block.run.job block.result ∈ (newsroom.play happening).scene.owed .worker :=
    fun block hmem hover => answered_play happening (hlisted.results block hmem hover)
  have hactions := hlisted.actions
  have hsame (hends : newsroom.ends happening = [])
      (hrunning : (newsroom.play happening).scene.running? = newsroom.scene.running?)
      (hruns : (newsroom.play happening).engine.runs = newsroom.engine.runs) :
      (newsroom.play happening).Listed (runs ++ newsroom.starts happening) (blocks ++ newsroom.ends happening) := by
    rw [starts_of_same hrunning, hends, List.append_nil, List.append_nil]
    exact ⟨hrunning ▸ hactions, hruns ▸ hlisted.numbered, hresults⟩
  cases turn_play htidy happening with
  | quiet _ hends hrunning _ hruns => exact hsame hends hrunning hruns
  | began run _ hends hidle _ hrunning hnumber hruns =>
    have hstarts : newsroom.starts happening = [run] := by
      unfold starts
      rw [hidle, hrunning]
      rfl
    rw [hidle, Option.toList_none, List.append_nil] at hactions
    rw [hstarts, hends, List.append_nil]
    refine ⟨?_, ?_, hresults⟩
    · rw [hrunning, hactions]
      rfl
    · rw [List.map_append, hlisted.numbered, hruns, List.range_succ, List.map_singleton, hnumber]
  | ended block _ hends _ hrunning hidle _ howed hruns =>
    have hstarts : newsroom.starts happening = [] := by
      unfold starts
      rw [hrunning]
    rw [hrunning, Option.toList_some] at hactions
    rw [hstarts, hends, List.append_nil]
    refine ⟨?_, hruns ▸ hlisted.numbered, fun other hother hover => ?_⟩
    · rw [hidle, hactions, List.map_append, Option.toList_none, List.append_nil]
      rfl
    · rcases List.mem_append.mp hother with hold | hnew
      · exact hresults other hold hover
      · obtain rfl := List.mem_singleton.mp hnew
        exact .inr (Engine.lastDeed_of_over hover ▸ howed)
  | closed event _ hends hidle hafter _ hruns => exact hsame hends (hafter.trans hidle.symm) hruns
  | aired position dispatch _ _ _ hends hrunning _ hruns => exact hsame hends hrunning hruns

theorem listed_playAll (hfresh : start.Fresh) (happenings : List Happening) :
    ((opening start).playAll happenings).Listed (begun start happenings) (ended start happenings) := by
  induction happenings using List.reverseRecOn with
  | nil =>
    obtain ⟨registry, routes, defaultStack, limit, capacity, rfl⟩ := hfresh
    exact ⟨rfl, rfl, List.forall_mem_nil _⟩
  | append_singleton happenings happening ih =>
    rw [playAll_concat, begun, ended, along_concat, along_concat]
    exact ih.play (playAll_tidy hfresh happenings) happening

private theorem published_play (htidy : newsroom.scene.Tidy) (happening : Happening) :
    (newsroom.play happening).engine.bus.published =
      newsroom.engine.bus.published ++ newsroom.announced happening := by
  suffices hextends : newsroom.engine.bus.published <+: (newsroom.play happening).engine.bus.published by
    obtain ⟨events, hevents⟩ := hextends
    rw [announced_eq hevents.symm, hevents]
  cases happening with
  | act act hother => exact (course_act htidy act hother).published_extended
  | copy slot => exact List.prefix_refl _
  | ask slot event =>
    simp only [play, ask]
    split
    · exact List.prefix_refl _
    · split_ifs <;> exact List.prefix_refl _
  | send position =>
    simp only [play, send]
    split <;> exact List.prefix_refl _
  | air position =>
    simp only [play, air]
    split
    · exact List.prefix_refl _
    · exact List.prefix_append ..

theorem published_playAll (hfresh : start.Fresh) (happenings : List Happening) :
    ((opening start).playAll happenings).engine.bus.published = (opening start).along announced happenings := by
  induction happenings using List.reverseRecOn with
  | nil => exact hfresh.published_eq
  | append_singleton happenings happening ih =>
    rw [playAll_concat, published_play (playAll_tidy hfresh happenings), along_concat, ih]

private theorem announced_call (htidy : newsroom.scene.Tidy) {number : Nat}
    (hother : (Act.go (.caller number)).isReport = false) :
    ∀ event ∈ newsroom.announced (.act (.go (.caller number)) hother), event = .stateChanged := by
  cases course_act htidy (.go (.caller number)) hother with
  | quiet hpublished =>
    rw [announced_eq (hpublished.trans (List.append_nil _).symm)]
    exact List.forall_mem_nil _
  | called _ _ hpublished =>
    rw [announced_eq hpublished]
    exact List.forall_mem_singleton.mpr rfl
  | began run hact => cases hact
  | ended run outcome hact => cases hact
  | closed event hact => cases hact

/-- What is said of the events of a run. -/
structure Bracketed (start : Engine) (happenings : List Happening) : Prop where
  /-- What is published is what is announced each time something happens, in this order. -/
  published : ((opening start).playAll happenings).engine.bus.published = (opening start).along announced happenings
  /-- The calls that change the history announce nothing but that. -/
  calls : ∀ before number hother later, happenings = before ++ .act (.go (.caller number)) hother :: later →
    ∀ event ∈ ((opening start).playAll before).announced (.act (.go (.caller number)) hother), event = .stateChanged
  /-- Otherwise nothing is announced but a report, the start of an action and what is left of the end of one. -/
  silent : ∀ before happening later, happenings = before ++ happening :: later →
    (∀ number hother, happening ≠ .act (.go (.caller number)) hother) → (∀ position, happening ≠ .air position) →
      ((opening start).playAll before).scene.pending = [] →
      ((opening start).playAll (before ++ [happening])).scene.running? = ((opening start).playAll before).scene.running? →
        ((opening start).playAll before).announced happening = []
  /-- The actions that have ended, and the one that runs, are listed in the order in which they have been started. -/
  listed : ((opening start).playAll happenings).Listed (begun start happenings) (ended start happenings)
  /-- The events come in one block for each of them, unless a report goes on the bus out of place. -/
  brackets : AlwaysWellFormed start happenings ↔ AlwaysInPlace start happenings

/-- **The events of a run come in blocks**, one for each action, exactly if every report goes on the bus in its place. -/
theorem bracketed_unless_misplaced (hfresh : start.Fresh) (happenings : List Happening) : Bracketed start happenings := by
  constructor
  · exact published_playAll hfresh happenings
  · exact fun before number hother _ _ => announced_call (playAll_tidy hfresh before) hother
  · rintro before happening later - hcall hair hnothing hsame
    rw [playAll_concat] at hsame
    have hworked : ((opening start).playAll before).announced happening =
        ((opening start).playAll before).worked happening := by
      unfold worked
      split
      · next number hother => exact absurd rfl (hcall number hother)
      · rfl
    rw [hworked]
    cases turn_play (playAll_tidy hfresh before) happening with
    | quiet hquiet => exact hquiet
    | began run _ _ hidle _ hrunning =>
      rw [hsame, hidle] at hrunning
      cases hrunning
    | ended block _ _ _ hrunning hidle =>
      rw [hsame, hrunning] at hidle
      cases hidle
    | closed event _ _ _ _ hpending =>
      rw [hnothing] at hpending
      cases hpending
    | aired position dispatch happens => exact absurd happens (hair position)
  · exact listed_playAll hfresh happenings
  · exact alwaysWellFormed_iff hfresh happenings

/-- The report that is on its way when its action ends comes after the block. -/
theorem bracketed_unless_misplaced_straddling :
    Engine.sampleEngine.Fresh ∧ Bracketed Engine.sampleEngine straddling ∧
      ((opening Engine.sampleEngine).playAll straddling).engine.bus.published =
        [.completed 0 "" .execute none, .stateChanged, .progress 0 .started] :=
  ⟨Engine.sampleEngine_fresh, bracketed_unless_misplaced Engine.sampleEngine_fresh straddling, by decide⟩

/-- The events of a run are not always well formed. -/
theorem not_always_wellFormed : ¬ ∀ (start : Engine) (happenings : List Happening), start.Fresh →
    WellFormed start happenings := by
  intro hformed
  have hblocks := hformed Engine.sampleEngine straddling Engine.sampleEngine_fresh
  have hevents : (opening Engine.sampleEngine).along worked straddling =
      [.completed 0 "" .execute none, .stateChanged] ++ [.progress 0 .started] := by decide
  have hpending : ((opening Engine.sampleEngine).playAll straddling).scene.pending = [] := by decide
  have hidle : ((opening Engine.sampleEngine).playAll straddling).scene.running? = none := by decide
  rw [WellFormed, hevents, hpending, hidle] at hblocks
  -- nothing runs, and nothing is left of the end of the only action
  obtain ⟨run, hrun, -⟩ | ⟨block, -, hnothing, -⟩ := hblocks.hasPlace nofun List.nil_suffix
  · cases hrun
  · obtain ⟨front, event, hclosing⟩ := block.exists_closing
    exact absurd (hnothing.trans hclosing).symm (List.append_ne_nil_of_right_ne_nil _ (List.cons_ne_nil _ _))

end Newsroom

end Retrace
