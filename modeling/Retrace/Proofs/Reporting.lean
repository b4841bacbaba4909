import Retrace.Proofs.Newsroom

/-!
# Whom reports reach

Every report that gets under way reaches the submitter of the job for which its reporter was made, and the bus, once each.
Whether the two hear the same in the same order, and the submitter what is published while the actions of the job run,
depends on when and in which order the last parts of the reports are made. It is told exactly on what.
-/

namespace Retrace

namespace Engine

def progress (engine : Engine) : List (CommandId × ProgressEvent) :=
  engine.bus.published.filterMap EngineEvent.progress?

def received (engine : Engine) (ticket : Ticket) : List ProgressEvent :=
  (engine.reports.filter fun report => report.1 == ticket).map Prod.snd

end Engine

def Dispatch.line (dispatches : List Dispatch) (ticket : Ticket) : List ProgressEvent :=
  (dispatches.filter fun dispatch => dispatch.ticket == ticket).map Dispatch.event

/-- A report that reaches the bus, and the action that runs then. -/
structure Airing where
  dispatch : Dispatch
  during : Option Run
  deriving DecidableEq

/-- The progress that reaches the bus while the actions of a job run, in order. -/
def Airing.heard (airings : List Airing) (ticket : Ticket) : List ProgressEvent :=
  (airings.filter fun airing => airing.during.any fun run => run.job.ticket == ticket).map fun airing =>
    airing.dispatch.event

section Line

variable {dispatches : List Dispatch} {dispatch : Dispatch} {position : Nat} {ticket : Ticket}

theorem Dispatch.line_append (first second : List Dispatch) (ticket : Ticket) :
    line (first ++ second) ticket = line first ticket ++ line second ticket := by
  rw [line, List.filter_append, List.map_append]
  rfl

private theorem Dispatch.line_singleton_self (dispatch : Dispatch) :
    line [dispatch] dispatch.ticket = [dispatch.event] := by
  simp [line]

private theorem Dispatch.line_singleton_of_ne (hother : dispatch.ticket ≠ ticket) : line [dispatch] ticket = [] := by
  simp [line, hother]

theorem Airing.heard_append (first second : List Airing) (ticket : Ticket) :
    heard (first ++ second) ticket = heard first ticket ++ heard second ticket := by
  rw [heard, List.filter_append, List.map_append]
  rfl

theorem exists_split (hdispatch : dispatches[position]? = some dispatch) :
    ∃ before after, dispatches = before ++ [dispatch] ++ after ∧ dispatches.eraseIdx position = before ++ after := by
  obtain ⟨hposition, rfl⟩ := List.getElem?_eq_some_iff.mp hdispatch
  refine ⟨dispatches.take position, dispatches.drop (position + 1), ?_, List.eraseIdx_eq_take_drop_succ ..⟩
  rw [List.append_assoc, List.singleton_append, List.getElem_cons_drop, List.take_append_drop]

theorem perm_eraseIdx (hdispatch : dispatches[position]? = some dispatch) :
    (dispatches.eraseIdx position ++ [dispatch]).Perm dispatches := by
  obtain ⟨before, after, hdispatches, herased⟩ := exists_split hdispatch
  rw [herased, hdispatches, List.append_assoc, List.append_assoc]
  exact List.perm_append_comm.append_left before

end Line

namespace Newsroom

variable {newsroom : Newsroom} {start : Engine} {run : Run} {happening : Happening} {happenings : List Happening}
  {slot number position : Nat} {event : ProgressEvent} {dispatch : Dispatch} {done : List Airing} {runs : List Run} {ticket : Ticket}

def aired (newsroom : Newsroom) : Happening → List Airing
  | .air position => newsroom.sent[position]?.toList.map fun dispatch => ⟨dispatch, newsroom.scene.running?⟩
  | _ => []

/-- What has reached the bus in a run, in order. -/
def airings (start : Engine) (happenings : List Happening) : List Airing := (opening start).along aired happenings

theorem aired_air (hsent : newsroom.sent[position]? = some dispatch) :
    newsroom.aired (.air position) = [⟨dispatch, newsroom.scene.running?⟩] := by
  rw [aired, hsent]
  rfl

/-! ### Once each -/

/-- What has been published as progress, and what the submitters have received, from the reports that reached the bus. -/
structure Brought (newsroom : Newsroom) (airings : List Airing) : Prop where
  progress : newsroom.engine.progress = airings.map fun airing => (airing.dispatch.command, airing.dispatch.event)
  reports : newsroom.engine.reports.Perm
    ((airings.map Airing.dispatch ++ newsroom.sent).map fun dispatch => (dispatch.ticket, dispatch.event))

private theorem progress_act (htidy : newsroom.scene.Tidy) (act : Act) (hother : act.isReport = false) :
    (newsroom.play (.act act hother)).engine.progress = newsroom.engine.progress := by
  have hscene : (newsroom.play (.act act hother)).engine = (newsroom.scene.play act).engine := by
    rw [engine, play, scene_attend]
  have hsilent {events : List EngineEvent}
      (hpublished : (newsroom.scene.play act).published = newsroom.scene.published ++ events)
      (hevents : ∀ event ∈ events, event.progress? = none) :
      (newsroom.play (.act act hother)).engine.progress = newsroom.engine.progress := by
    rw [hscene, Engine.progress, show (newsroom.scene.play act).engine.bus.published = _ from hpublished,
      List.filterMap_append, List.filterMap_eq_nil_iff.mpr hevents, List.append_nil]
    rfl
  cases Scene.course_play htidy act hother with
  | quiet hpublished => exact hsilent (hpublished.trans (List.append_nil _).symm) (List.forall_mem_nil _)
  | called number _ hpublished => exact hsilent hpublished (List.forall_mem_singleton.mpr rfl)
  | began run _ _ _ _ _ _ hpublished => exact hsilent hpublished fun event => Engine.progress?_of_mem_around
  | ended run outcome _ _ _ _ _ _ _ hpublished =>
    exact hsilent (hpublished.trans (List.append_nil _).symm) (List.forall_mem_nil _)
  | closed event _ hevent _ _ _ _ hpublished => exact hsilent hpublished (List.forall_mem_singleton.mpr hevent)

theorem sent_act (newsroom : Newsroom) (act : Act) (hother : act.isReport = false) :
    (newsroom.play (.act act hother)).sent = newsroom.sent ∧ (newsroom.play (.act act hother)).passed = newsroom.passed := by
  rw [play]
  unfold attend
  split <;> exact ⟨rfl, rfl⟩

private theorem reports_act (newsroom : Newsroom) (act : Act) (hother : act.isReport = false) :
    (newsroom.play (.act act hother)).engine.reports = newsroom.engine.reports := by
  rw [engine, play, scene_attend]
  exact newsroom.scene.reports_play hother

/-- What neither sends nor airs anything. -/
structure Mute (newsroom after : Newsroom) : Prop where
  progress : after.engine.progress = newsroom.engine.progress
  reports : after.engine.reports = newsroom.engine.reports
  sent : after.sent = newsroom.sent

theorem mute_or_brings (htidy : newsroom.scene.Tidy) (happening : Happening) :
    newsroom.Mute (newsroom.play happening) ∧ newsroom.aired happening = [] ∨
      (∃ position dispatch, happening = .send position ∧ newsroom.passed[position]? = some dispatch) ∨
      ∃ position dispatch, happening = .air position ∧ newsroom.sent[position]? = some dispatch := by
  cases happening with
  | act act hother =>
    exact .inl ⟨⟨progress_act htidy act hother, newsroom.reports_act act hother, (newsroom.sent_act act hother).1⟩, rfl⟩
  | copy slot => exact .inl ⟨⟨rfl, rfl, rfl⟩, rfl⟩
  | ask slot event =>
    refine .inl ⟨?_, rfl⟩
    simp only [play, ask]
    split
    · exact ⟨rfl, rfl, rfl⟩
    · split_ifs <;> exact ⟨rfl, rfl, rfl⟩
  | send position =>
    cases hpassed : newsroom.passed[position]? with
    | none =>
      rw [play_send_of_none hpassed]
      exact .inl ⟨⟨rfl, rfl, rfl⟩, rfl⟩
    | some dispatch => exact .inr (.inl ⟨position, dispatch, rfl, hpassed⟩)
  | air position =>
    cases hsent : newsroom.sent[position]? with
    | none =>
      rw [play_air_of_none hsent, aired, hsent]
      exact .inl ⟨⟨rfl, rfl, rfl⟩, rfl⟩
    | some dispatch => exact .inr (.inr ⟨position, dispatch, rfl, hsent⟩)

private theorem progress_send (newsroom : Newsroom) (position : Nat) :
    (newsroom.play (.send position)).engine.progress = newsroom.engine.progress := by
  simp only [play, send]
  split <;> rfl

private theorem progress_air (hsent : newsroom.sent[position]? = some dispatch) :
    (newsroom.play (.air position)).engine.progress = newsroom.engine.progress ++ [(dispatch.command, dispatch.event)] := by
  rw [play_air hsent]
  exact List.filterMap_append

theorem Brought.play (hbrought : newsroom.Brought done) (htidy : newsroom.scene.Tidy) (happening : Happening) :
    (newsroom.play happening).Brought (done ++ newsroom.aired happening) := by
  rcases mute_or_brings htidy happening with
    ⟨⟨hprogress, hreports, hsent⟩, haired⟩ | ⟨position, dispatch, rfl, hpassed⟩ | ⟨position, dispatch, rfl, hsent⟩
  · rw [haired, List.append_nil]
    exact ⟨hprogress.trans hbrought.progress, hreports ▸ hsent ▸ hbrought.reports⟩
  · rw [show newsroom.aired (.send position) = [] from rfl, List.append_nil]
    refine ⟨(newsroom.progress_send position).trans hbrought.progress, ?_⟩
    rw [play_send hpassed, ← List.append_assoc, List.map_append]
    exact hbrought.reports.append_right _
  · rw [aired_air hsent]
    constructor
    · rw [progress_air hsent, hbrought.progress, List.map_append]
      rfl
    · have hreports : (newsroom.play (.air position)).engine.reports = newsroom.engine.reports := by rw [play_air hsent]; rfl
      have herased : (newsroom.play (.air position)).sent = newsroom.sent.eraseIdx position := by rw [play_air hsent]
      have hdone : (done ++ [Airing.mk dispatch newsroom.scene.running?]).map Airing.dispatch =
        done.map Airing.dispatch ++ [dispatch] := List.map_append
      rw [hreports, herased, hdone, List.append_assoc]
      refine hbrought.reports.trans (List.Perm.map _ (List.Perm.append_left _ ?_))
      exact (List.perm_append_comm.trans (perm_eraseIdx hsent)).symm

/-! ### Whose reports they are -/

def dispatches (newsroom : Newsroom) (airings : List Airing) : List Dispatch :=
  airings.map Airing.dispatch ++ newsroom.sent ++ newsroom.passed

/-- The wires are those of actions that have been started, and every report was made through such a wire. -/
structure Made (newsroom : Newsroom) (runs : List Run) (airings : List Airing) : Prop where
  wires : ∀ wire ∈ newsroom.wires, ∃ run ∈ runs, wire.ticket = run.job.ticket ∧
    wire.reporter.command = run.step.command.id
  dispatches : ∀ dispatch ∈ newsroom.dispatches airings, ∃ run ∈ runs, dispatch.ticket = run.job.ticket ∧
    dispatch.command = run.step.command.id

private theorem mem_of_mem_modify {wires : List Wire} {wire : Wire} (hmem : wire ∈ wires.modify number Wire.close) :
    ∃ before ∈ wires, wire.ticket = before.ticket ∧ wire.reporter.command = before.reporter.command := by
  obtain ⟨index, hindex⟩ := List.getElem?_of_mem hmem
  rw [List.getElem?_modify] at hindex
  obtain ⟨before, hbefore, rfl⟩ := Option.map_eq_some_iff.mp hindex
  refine ⟨before, List.mem_of_getElem? hbefore, ?_⟩
  split_ifs <;> exact ⟨rfl, rfl⟩

private theorem wires_attend (newsroom : Newsroom) {after : Scene} {wire : Wire}
    (hmem : wire ∈ (newsroom.attend after).wires) :
    (∃ before ∈ newsroom.wires, wire.ticket = before.ticket ∧ wire.reporter.command = before.reporter.command) ∨
      ∃ run, newsroom.scene.running? = none ∧ after.running? = some run ∧ wire = run.wire := by
  unfold attend at hmem
  split at hmem
  · next run hidle hrunning =>
    rcases List.mem_append.mp hmem with hold | hnew
    · exact .inl ⟨wire, hold, rfl, rfl⟩
    · exact .inr ⟨run, hidle, hrunning, List.mem_singleton.mp hnew⟩
  · refine .inl ?_
    change wire ∈ newsroom.current.elim newsroom.wires _ at hmem
    cases hcurrent : newsroom.current with
    | none =>
      rw [hcurrent] at hmem
      exact ⟨wire, hmem, rfl, rfl⟩
    | some number =>
      rw [hcurrent] at hmem
      exact mem_of_mem_modify hmem
  · exact .inl ⟨wire, hmem, rfl, rfl⟩

private theorem Made.act (hmade : newsroom.Made runs done) (act : Act) (hother : act.isReport = false) :
    (newsroom.play (.act act hother)).Made (runs ++ newsroom.starts (.act act hother)) done := by
  constructor
  · intro wire hwire
    rcases newsroom.wires_attend hwire with ⟨before, hbefore, hticket, hcommand⟩ | ⟨run, hidle, hrunning, rfl⟩
    · obtain ⟨run, hrun, hown⟩ := hmade.wires before hbefore
      exact ⟨run, List.mem_append_left _ hrun, hticket ▸ hcommand ▸ hown⟩
    · refine ⟨run, List.mem_append_right _ ?_, rfl, rfl⟩
      rw [starts, hidle, play, scene_attend, hrunning]
      exact List.mem_cons_self
  · intro dispatch hdispatch
    obtain ⟨hsent, hpassed⟩ := newsroom.sent_act act hother
    rw [Newsroom.dispatches, hsent, hpassed] at hdispatch
    obtain ⟨run, hrun, hown⟩ := hmade.dispatches dispatch hdispatch
    exact ⟨run, List.mem_append_left _ hrun, hown⟩

private theorem Made.ask (hmade : newsroom.Made runs done) (slot : Nat) (event : ProgressEvent) :
    (newsroom.ask slot event).Made runs done := by
  unfold Newsroom.ask
  split
  · exact hmade
  · next wire hwire =>
    split_ifs
    · refine ⟨hmade.wires, fun dispatch hdispatch => ?_⟩
      rw [Newsroom.dispatches, ← List.append_assoc] at hdispatch
      rcases List.mem_append.mp hdispatch with hold | hnew
      · exact hmade.dispatches dispatch hold
      · obtain ⟨number, -, hwire⟩ := Option.bind_eq_some_iff.mp hwire
        obtain ⟨run, hrun, hticket, hcommand⟩ := hmade.wires wire (List.mem_of_getElem? hwire)
        rw [List.mem_singleton.mp hnew]
        exact ⟨run, hrun, hticket, hcommand⟩
    · exact hmade

theorem Made.of_perm {after : Newsroom} {later : List Airing} (hmade : newsroom.Made runs done)
    (hwires : after.wires = newsroom.wires) (hperm : (after.dispatches later).Perm (newsroom.dispatches done)) :
    after.Made runs later :=
  ⟨hwires ▸ hmade.wires, fun dispatch hdispatch => hmade.dispatches dispatch (hperm.subset hdispatch)⟩

private theorem dispatches_send (hpassed : newsroom.passed[position]? = some dispatch) (done : List Airing) :
    ((newsroom.play (.send position)).dispatches done).Perm (newsroom.dispatches done) := by
  rw [play_send hpassed, dispatches, dispatches, List.append_assoc, List.append_assoc, List.append_assoc]
  refine List.Perm.append_left _ (List.Perm.append_left _ ?_)
  exact List.perm_append_comm.trans (perm_eraseIdx hpassed)

private theorem dispatches_air (hsent : newsroom.sent[position]? = some dispatch) (done : List Airing) :
    ((newsroom.play (.air position)).dispatches (done ++ newsroom.aired (.air position))).Perm
      (newsroom.dispatches done) := by
  rw [aired_air hsent, play_air hsent, dispatches, dispatches, List.map_append, List.append_assoc (done.map _)]
  refine List.Perm.append_right _ (List.Perm.append_left _ ?_)
  exact List.perm_append_comm.trans (perm_eraseIdx hsent)

private theorem starts_of_aside (newsroom : Newsroom) (hact : ∀ act hother, happening ≠ .act act hother) :
    newsroom.starts happening = [] := starts_of_same (newsroom.aside_play hact).running?_eq

theorem Made.play (hmade : newsroom.Made runs done) (happening : Happening) :
    (newsroom.play happening).Made (runs ++ newsroom.starts happening) (done ++ newsroom.aired happening) := by
  cases happening with
  | act act hother =>
    rw [show newsroom.aired (.act act hother) = [] from rfl, List.append_nil]
    exact hmade.act act hother
  | copy slot =>
    rw [newsroom.starts_of_aside (by simp), List.append_nil, show newsroom.aired (.copy slot) = [] from rfl, List.append_nil]
    exact ⟨hmade.wires, hmade.dispatches⟩
  | ask slot event =>
    rw [newsroom.starts_of_aside (by simp), List.append_nil, show newsroom.aired (.ask slot event) = [] from rfl,
      List.append_nil]
    exact hmade.ask slot event
  | send position =>
    rw [newsroom.starts_of_aside (by simp), List.append_nil, show newsroom.aired (.send position) = [] from rfl,
      List.append_nil]
    cases hpassed : newsroom.passed[position]? with
    | none => rwa [play_send_of_none hpassed]
    | some dispatch =>
      exact hmade.of_perm (newsroom.aside_play (by simp)).wires (dispatches_send hpassed done)
  | air position =>
    rw [newsroom.starts_of_aside (by simp), List.append_nil]
    cases hsent : newsroom.sent[position]? with
    | none => rwa [play_air_of_none hsent, aired, hsent, Option.toList_none, List.map_nil, List.append_nil]
    | some dispatch => exact hmade.of_perm (newsroom.aside_play (by simp)).wires (dispatches_air hsent done)

/-! ### In line and in time -/

/-- What the submitter of each job has received is what reached the bus while its actions ran, and then what is under way
to the bus. -/
def Agrees (newsroom : Newsroom) (airings : List Airing) : Prop :=
  ∀ ticket, newsroom.engine.received ticket = Airing.heard airings ticket ++ Dispatch.line newsroom.sent ticket

/-- A report may go on the bus while an action of its own job runs, and if it is the first of this job in the line, or says
the same as the first and leaves the same behind. -/
structure Timely (newsroom : Newsroom) (dispatch : Dispatch) (position : Nat) : Prop where
  during : ∃ run, newsroom.scene.running? = some run ∧ run.job.ticket = dispatch.ticket
  first : Dispatch.line newsroom.sent dispatch.ticket =
    dispatch.event :: Dispatch.line (newsroom.sent.eraseIdx position) dispatch.ticket

private theorem agrees_send (hpassed : newsroom.passed[position]? = some dispatch) (hagrees : newsroom.Agrees done) :
    (newsroom.play (.send position)).Agrees done := by
  intro ticket
  have hreceived : (newsroom.play (.send position)).engine.received ticket =
      newsroom.engine.received ticket ++ Dispatch.line [dispatch] ticket := by
    rw [play_send hpassed]
    by_cases hticket : dispatch.ticket = ticket <;>
      simp [withEngine, engine, Engine.received, Dispatch.line, hticket, List.filter_append]
  rw [hreceived, hagrees ticket, List.append_assoc, ← Dispatch.line_append, play_send hpassed]

private theorem heard_singleton (dispatch : Dispatch) (run : Option Run) (ticket : Ticket) :
    Airing.heard [⟨dispatch, run⟩] ticket =
      if run.any (fun run => run.job.ticket == ticket) then [dispatch.event] else [] := by
  unfold Airing.heard
  split_ifs with hduring <;> simp [hduring]

private theorem line_eraseIdx_of_ne (hsent : newsroom.sent[position]? = some dispatch)
    (hother : dispatch.ticket ≠ ticket) :
    Dispatch.line (newsroom.sent.eraseIdx position) ticket = Dispatch.line newsroom.sent ticket := by
  obtain ⟨before, after, hsplit, herased⟩ := exists_split hsent
  rw [herased, hsplit, Dispatch.line_append, Dispatch.line_append, Dispatch.line_append,
    Dispatch.line_singleton_of_ne hother, List.append_nil]

private theorem length_line_eraseIdx (hsent : newsroom.sent[position]? = some dispatch) :
    (Dispatch.line newsroom.sent dispatch.ticket).length =
      (Dispatch.line (newsroom.sent.eraseIdx position) dispatch.ticket).length + 1 := by
  obtain ⟨before, after, hsplit, herased⟩ := exists_split hsent
  rw [herased, hsplit, Dispatch.line_append, Dispatch.line_append, Dispatch.line_append, Dispatch.line_singleton_self]
  simp only [List.length_append, List.length_singleton]
  omega

/-- Going on the bus, a report leaves the two in agreement exactly if it is in line and in time. -/
theorem agrees_air_iff (hsent : newsroom.sent[position]? = some dispatch) (hagrees : newsroom.Agrees done) :
    (newsroom.play (.air position)).Agrees (done ++ newsroom.aired (.air position)) ↔
      newsroom.Timely dispatch position := by
  have hagrees_iff : (newsroom.play (.air position)).Agrees (done ++ newsroom.aired (.air position)) ↔
      ∀ ticket, Dispatch.line newsroom.sent ticket =
        (if newsroom.scene.running?.any (fun run => run.job.ticket == ticket) then [dispatch.event] else []) ++
          Dispatch.line (newsroom.sent.eraseIdx position) ticket := by
    refine forall_congr' fun ticket => ?_
    have hreceived : (newsroom.play (.air position)).engine.received ticket = newsroom.engine.received ticket := by
      rw [play_air hsent]
      rfl
    rw [hreceived, hagrees ticket, aired_air hsent, Airing.heard_append, heard_singleton, List.append_assoc,
      List.append_cancel_left_eq, play_air hsent]
  rw [hagrees_iff]
  constructor
  · intro hline
    have hown := hline dispatch.ticket
    have hlength := length_line_eraseIdx hsent
    split_ifs at hown with hduring
    · obtain ⟨run, hrunning, hticket⟩ := Option.any_eq_true _ _ |>.mp hduring
      exact ⟨⟨run, hrunning, beq_iff_eq.mp hticket⟩, hown⟩
    · -- published while no action of its job runs, it is missing
      rw [hown, List.nil_append] at hlength
      omega
  · rintro ⟨⟨run, hrunning, hticket⟩, hfirst⟩ ticket
    rw [hrunning]
    by_cases hown : dispatch.ticket = ticket
    · subst hown
      simpa [hticket] using hfirst
    · have hother : ¬ (run.job.ticket == ticket) = true := by simpa [hticket] using hown
      rw [Option.any_some, if_neg hother, List.nil_append, line_eraseIdx_of_ne hsent hown]

private theorem agrees_of_mute {after : Newsroom} (hmute : newsroom.Mute after) (hagrees : newsroom.Agrees done) :
    after.Agrees done := by
  intro ticket
  rw [Engine.received, hmute.reports, hmute.sent]
  exact hagrees ticket

/-! ### Runs -/

theorem playAll_tidy (hfresh : start.Fresh) (happenings : List Happening) :
    ((opening start).playAll happenings).scene.Tidy := ((wired_opening hfresh).playAll happenings).tidy

theorem brought_playAll (hfresh : start.Fresh) (happenings : List Happening) :
    ((opening start).playAll happenings).Brought (airings start happenings) := by
  induction happenings using List.reverseRecOn with
  | nil =>
    obtain ⟨registry, routes, defaultStack, limit, capacity, rfl⟩ := hfresh
    exact ⟨rfl, .refl _⟩
  | append_singleton happenings happening ih =>
    rw [playAll_concat, airings, along_concat]
    exact ih.play (playAll_tidy hfresh happenings) happening

theorem made_playAll (start : Engine) (happenings : List Happening) :
    ((opening start).playAll happenings).Made (begun start happenings) (airings start happenings) := by
  induction happenings using List.reverseRecOn with
  | nil => exact ⟨List.forall_mem_nil _, List.forall_mem_nil _⟩
  | append_singleton happenings happening ih =>
    rw [playAll_concat, airings, begun, along_concat, along_concat]
    exact ih.play happening

def AlwaysAgrees (start : Engine) (happenings : List Happening) : Prop :=
  ∀ before later, happenings = before ++ later → ((opening start).playAll before).Agrees (airings start before)

def AlwaysTimely (start : Engine) (happenings : List Happening) : Prop :=
  ∀ before position later dispatch, happenings = before ++ .air position :: later →
    ((opening start).playAll before).sent[position]? = some dispatch →
      ((opening start).playAll before).Timely dispatch position

private theorem alwaysAgrees_iff (hfresh : start.Fresh) (happenings : List Happening) :
    AlwaysAgrees start happenings ↔ AlwaysTimely start happenings := by
  constructor
  · intro hagrees before position later dispatch hsplit hsent
    have hafter := hagrees (before ++ [.air position]) later (by rw [hsplit, List.append_assoc]; rfl)
    rw [playAll_concat, airings, along_concat] at hafter
    exact (agrees_air_iff hsent (hagrees before _ hsplit)).mp hafter
  · intro htimely before
    induction before using List.reverseRecOn with
    | nil =>
      intro later _ ticket
      obtain ⟨registry, routes, defaultStack, limit, capacity, rfl⟩ := hfresh
      rfl
    | append_singleton before happening ih =>
      intro later hsplit
      rw [List.append_assoc, List.singleton_append] at hsplit
      have hagrees := ih _ hsplit
      rw [playAll_concat, airings, along_concat]
      rcases mute_or_brings (playAll_tidy hfresh before) happening with
        ⟨hmute, haired⟩ | ⟨position, dispatch, rfl, hpassed⟩ | ⟨position, dispatch, rfl, hsent⟩
      · rw [haired, List.append_nil]
        exact agrees_of_mute hmute hagrees
      · rw [show Newsroom.aired _ (.send position) = [] from rfl, List.append_nil]
        exact agrees_send hpassed hagrees
      · exact (agrees_air_iff hsent hagrees).mpr (htimely before position later dispatch hsplit hsent)

structure Reaches (start : Engine) (happenings : List Happening) (last : Newsroom) : Prop where
  /-- The progress on the bus is that of the reports that have reached it. -/
  published : last.engine.progress =
    (airings start happenings).map fun airing => (airing.dispatch.command, airing.dispatch.event)
  /-- Each of these, and of those that are under way to the bus, has reached one submitter, once. -/
  delivered : last.engine.reports.Perm
    (((airings start happenings).map Airing.dispatch ++ last.sent).map fun dispatch => (dispatch.ticket, dispatch.event))
  /-- That one has submitted the job of an action that was started with a reporter of this command. -/
  made : ∀ dispatch ∈ last.dispatches (airings start happenings), ∃ run ∈ begun start happenings,
    dispatch.ticket = run.job.ticket ∧ dispatch.command = run.step.command.id
  /-- While an action runs, a report through its reporter or a copy gets under way. -/
  live : ∀ run slot event, last.scene.running? = some run → last.held[slot]? = some run.number →
    last.play (.ask slot event) =
      { last with passed := last.passed ++ [⟨run.job.ticket, run.step.command.id, event⟩] }
  /-- Nothing comes of a report through a reporter, or a copy, that is made when its action does not run. -/
  late : ∀ slot number event, last.held[slot]? = some number → last.scene.running?.map Run.number ≠ some number →
    last.play (.ask slot event) = last
  /-- The three parts in one go are the report that the engine knows. -/
  whole : ∀ slot number event, last.held[slot]? = some number → last.scene.owed .worker = [] →
    last.playAll [.ask slot event, .send last.passed.length, .air last.sent.length] =
      last.withEngine (last.engine.report number event)
  /-- What a submitter hears is what reaches the bus while the actions of the job run, unless a report goes on the bus
  out of line or out of time. -/
  agreement : AlwaysAgrees start happenings ↔ AlwaysTimely start happenings

/-- **Reports reach their own submitter and the bus, once each**; the two are told the same exactly if every report goes
on the bus in line and in time. -/
theorem progress_reaches_its_job (hfresh : start.Fresh) (happenings : List Happening) :
    Reaches start happenings ((opening start).playAll happenings) := by
  have hwired := (wired_opening hfresh).playAll happenings
  have hbrought := brought_playAll hfresh happenings
  refine ⟨hbrought.progress, hbrought.reports, (made_playAll start happenings).dispatches, ?_, ?_, ?_,
    alwaysAgrees_iff hfresh happenings⟩
  · exact fun run slot event hrunning hheld => hwired.play_ask_of_running hrunning hheld event
  · intro slot number event hheld hother
    exact hwired.play_ask_of_other hheld (hwired.current_eq ▸ hother) event
  · exact fun slot number event hheld howed => hwired.playAll_report howed hheld event

def underway : List Happening :=
  [.act (.start (.caller 0) (.submit (.execute (Engine.sampleCommand 0)))) rfl, .act (.start .worker .advance) rfl,
    .act (.start .worker .advance) rfl]

/-- Two reports of one action pass each other on their way to the bus. -/
def crossing : List Happening :=
  underway ++ [.copy 0, .ask 0 .started, .ask 1 .finished, .send 0, .send 0, .air 1, .air 0]

/-- The submitter hears the two in one order, and the bus in the other. -/
theorem progress_reaches_its_job_crossing :
    Engine.sampleEngine.Fresh ∧
      Reaches Engine.sampleEngine crossing ((opening Engine.sampleEngine).playAll crossing) ∧
      ((opening Engine.sampleEngine).playAll crossing).engine.received 1 = [.started, .finished] ∧
      ((opening Engine.sampleEngine).playAll crossing).engine.progress = [(0, .finished), (0, .started)] :=
  ⟨Engine.sampleEngine_fresh, progress_reaches_its_job Engine.sampleEngine_fresh crossing, by decide, by decide⟩

/-- A copy of the reporter has been found open when the action ends, and reports when the worker is through with it. -/
def straddling : List Happening :=
  underway ++ [.copy 0, .ask 1 .started, .act (.start .worker Engine.success) rfl, .act (.go .worker) rfl,
    .act (.go .worker) rfl, .act (.go .worker) rfl, .send 0, .air 0]

/-- What the submitter of a job has received when nothing is left to be done is not always what the bus has had while the
actions of the job ran. -/
theorem not_always_heard : ¬ ∀ (start : Engine) (happenings : List Happening) (ticket : Ticket), start.Fresh →
    ((opening start).playAll happenings).passed = [] → ((opening start).playAll happenings).sent = [] →
    ((opening start).playAll happenings).scene.owed .worker = [] →
    ((opening start).playAll happenings).engine.received ticket = Airing.heard (airings start happenings) ticket := by
  intro hheard
  have hsame := hheard Engine.sampleEngine straddling 1 Engine.sampleEngine_fresh (by decide) (by decide) (by decide)
  revert hsame
  decide

end Newsroom

end Retrace
