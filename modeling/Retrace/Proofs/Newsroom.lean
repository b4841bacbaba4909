import Retrace.Event.Reporter
import Retrace.Proofs.Acts

/-!
# Reports in parts

Whoever makes a report looks first whether the reporter is open, sends the report to the submitter of the job, and
publishes it on the bus in the end. Nothing holds these three parts together. A newsroom is a scene with the reporters of
its actions and with the reports that are under way; each part of each report may fall between any two parts of what
everybody else does. Copies of a reporter are other hands on the same wire, and the wire is closed when its action ends.
-/

namespace Retrace

/-! ### Newsrooms -/

/-- A reporter that reports to the submitter of a job as well as to the bus. -/
structure Wire where
  ticket : Ticket
  reporter : Reporter
  deriving DecidableEq

def Wire.close (wire : Wire) : Wire := { wire with reporter := wire.reporter.close }

def Run.wire (run : Run) : Wire := ⟨run.job.ticket, .attached run.step.command.id⟩

/-- A report under way, with the job and the command of its reporter. -/
structure Dispatch where
  ticket : Ticket
  command : CommandId
  event : ProgressEvent
  deriving DecidableEq

/-- A scene with the reporters of its actions, and the reports that are under way. A copy of a reporter is another hand on
the same wire. -/
structure Newsroom where
  scene : Scene
  /-- The wires of the actions started so far, in order. -/
  wires : List Wire
  /-- The wire of the action that runs. -/
  current : Option Nat
  /-- The reporters in anybody's hands, each as the number of its wire. -/
  held : List Nat
  /-- The reports that have found their reporter open and have reached nobody. -/
  passed : List Dispatch
  /-- The reports that have reached the submitter and not the bus. -/
  sent : List Dispatch

/-- One thing that happens in a newsroom: an act that is no report, a copy that is made of a reporter, or a part of a
report. The second and the third part are made by whoever made the first. -/
inductive Happening where
  | act (act : Act) (hother : act.isReport = false)
  | copy (slot : Nat)
  | ask (slot : Nat) (event : ProgressEvent)
  | send (position : Nat)
  | air (position : Nat)

namespace Newsroom

def opening (engine : Engine) : Newsroom := ⟨.opening engine, [], none, [], [], []⟩

def engine (newsroom : Newsroom) : Engine := newsroom.scene.engine

def wire? (newsroom : Newsroom) (slot : Nat) : Option Wire :=
  newsroom.held[slot]?.bind fun number => newsroom.wires[number]?

/-- Hands a new reporter to the action that starts. -/
def connect (newsroom : Newsroom) (run : Run) : Newsroom :=
  { newsroom with
    wires := newsroom.wires ++ [run.wire]
    current := some newsroom.wires.length
    held := newsroom.held ++ [newsroom.wires.length] }

def disconnect (newsroom : Newsroom) : Newsroom :=
  { newsroom with
    wires := newsroom.current.elim newsroom.wires fun number => newsroom.wires.modify number Wire.close
    current := none }

def attend (newsroom : Newsroom) (after : Scene) : Newsroom :=
  match newsroom.scene.running?, after.running? with
  | none, some run => { newsroom with scene := after }.connect run
  | some _, none => { newsroom with scene := after }.disconnect
  | _, _ => { newsroom with scene := after }

def withEngine (newsroom : Newsroom) (engine : Engine) : Newsroom :=
  { newsroom with scene := { newsroom.scene with engine } }

def ask (newsroom : Newsroom) (slot : Nat) (event : ProgressEvent) : Newsroom :=
  match newsroom.wire? slot with
  | none => newsroom
  | some wire =>
    if wire.reporter.isOpen then
      { newsroom with passed := newsroom.passed ++ [⟨wire.ticket, wire.reporter.command, event⟩] }
    else newsroom

def send (newsroom : Newsroom) (position : Nat) : Newsroom :=
  match newsroom.passed[position]? with
  | none => newsroom
  | some dispatch =>
    { newsroom.withEngine
        { newsroom.engine with reports := newsroom.engine.reports ++ [(dispatch.ticket, dispatch.event)] } with
      passed := newsroom.passed.eraseIdx position
      sent := newsroom.sent ++ [dispatch] }

def air (newsroom : Newsroom) (position : Nat) : Newsroom :=
  match newsroom.sent[position]? with
  | none => newsroom
  | some dispatch =>
    { newsroom.withEngine
        { newsroom.engine with bus := newsroom.engine.bus.publish (.progress dispatch.command dispatch.event) } with
      sent := newsroom.sent.eraseIdx position }

def play (newsroom : Newsroom) : Happening → Newsroom
  | .act act _ => newsroom.attend (newsroom.scene.play act)
  | .copy slot => { newsroom with held := newsroom.held ++ newsroom.held[slot]?.toList }
  | .ask slot event => newsroom.ask slot event
  | .send position => newsroom.send position
  | .air position => newsroom.air position

def playAll (newsroom : Newsroom) (happenings : List Happening) : Newsroom := happenings.foldl play newsroom

theorem playAll_append (newsroom : Newsroom) (first second : List Happening) :
    newsroom.playAll (first ++ second) = (newsroom.playAll first).playAll second := List.foldl_append

theorem playAll_concat (newsroom : Newsroom) (happenings : List Happening) (happening : Happening) :
    newsroom.playAll (happenings ++ [happening]) = (newsroom.playAll happenings).play happening :=
  playAll_append newsroom happenings [happening]

def along {α : Type} (note : Newsroom → Happening → List α) (newsroom : Newsroom) : List Happening → List α
  | [] => []
  | happening :: happenings => note newsroom happening ++ along note (newsroom.play happening) happenings

theorem along_append {α : Type} (note : Newsroom → Happening → List α) (newsroom : Newsroom)
    (first second : List Happening) :
    newsroom.along note (first ++ second) = newsroom.along note first ++ (newsroom.playAll first).along note second := by
  induction first generalizing newsroom with
  | nil => rfl
  | cons happening first ih =>
    rw [List.cons_append, along, ih, along, List.append_assoc]
    rfl

theorem along_concat {α : Type} (note : Newsroom → Happening → List α) (newsroom : Newsroom)
    (happenings : List Happening) (happening : Happening) : newsroom.along note (happenings ++ [happening]) =
      newsroom.along note happenings ++ note (newsroom.playAll happenings) happening := by
  rw [along_append, along, along, List.append_nil]

def starts (newsroom : Newsroom) (happening : Happening) : List Run :=
  match newsroom.scene.running? with
  | none => (newsroom.play happening).scene.running?.toList
  | some _ => []

def begun (start : Engine) (happenings : List Happening) : List Run := (opening start).along starts happenings

variable {newsroom : Newsroom} {scene after : Scene} {run : Run} {happening : Happening} {slot number position : Nat}
  {event : ProgressEvent} {dispatch : Dispatch}

theorem starts_of_same (hrunning : (newsroom.play happening).scene.running? = newsroom.scene.running?) :
    newsroom.starts happening = [] := by
  unfold starts
  cases hrun : newsroom.scene.running? with
  | none => rw [hrunning, hrun]; rfl
  | some run => rfl

theorem scene_attend (newsroom : Newsroom) (after : Scene) : (newsroom.attend after).scene = after := by
  unfold attend
  split <;> rfl

theorem play_send (hpassed : newsroom.passed[position]? = some dispatch) : newsroom.play (.send position) =
    { newsroom.withEngine
        { newsroom.engine with reports := newsroom.engine.reports ++ [(dispatch.ticket, dispatch.event)] } with
      passed := newsroom.passed.eraseIdx position
      sent := newsroom.sent ++ [dispatch] } := by
  simp only [play, send, hpassed]

theorem play_send_of_none (hnone : newsroom.passed[position]? = none) : newsroom.play (.send position) = newsroom := by
  simp only [play, send, hnone]

theorem play_air (hsent : newsroom.sent[position]? = some dispatch) : newsroom.play (.air position) =
    { newsroom.withEngine
        { newsroom.engine with bus := newsroom.engine.bus.publish (.progress dispatch.command dispatch.event) } with
      sent := newsroom.sent.eraseIdx position } := by
  simp only [play, air, hsent]

theorem play_air_of_none (hnone : newsroom.sent[position]? = none) : newsroom.play (.air position) = newsroom := by
  simp only [play, air, hnone]

/-- Nothing but an act changes what the worker does, and nothing but an act or an airing what is published. -/
structure Aside (newsroom after : Newsroom) : Prop where
  wires : after.wires = newsroom.wires
  current : after.current = newsroom.current
  owed : after.scene.owed = newsroom.scene.owed
  phase : after.engine.phase = newsroom.engine.phase
  runs : after.engine.runs = newsroom.engine.runs
  history : after.engine.history = newsroom.engine.history
  answers : after.engine.answers = newsroom.engine.answers

theorem Aside.refl (newsroom : Newsroom) : newsroom.Aside newsroom := ⟨rfl, rfl, rfl, rfl, rfl, rfl, rfl⟩

theorem aside_play (newsroom : Newsroom) (hact : ∀ act hother, happening ≠ .act act hother) :
    newsroom.Aside (newsroom.play happening) := by
  cases happening with
  | act act hother => exact absurd rfl (hact act hother)
  | copy slot => exact ⟨rfl, rfl, rfl, rfl, rfl, rfl, rfl⟩
  | ask slot event =>
    simp only [play, ask]
    split
    · exact .refl newsroom
    · split_ifs
      · exact ⟨rfl, rfl, rfl, rfl, rfl, rfl, rfl⟩
      · exact .refl newsroom
  | send position =>
    cases hpassed : newsroom.passed[position]? with
    | none => rw [play_send_of_none hpassed]; exact .refl newsroom
    | some dispatch => rw [play_send hpassed]; exact ⟨rfl, rfl, rfl, rfl, rfl, rfl, rfl⟩
  | air position =>
    cases hsent : newsroom.sent[position]? with
    | none => rw [play_air_of_none hsent]; exact .refl newsroom
    | some dispatch => rw [play_air hsent]; exact ⟨rfl, rfl, rfl, rfl, rfl, rfl, rfl⟩

theorem act_or_aside (newsroom : Newsroom) (happening : Happening) :
    (∃ act hother, happening = .act act hother) ∨ newsroom.Aside (newsroom.play happening) := by
  by_cases hact : ∃ act hother, happening = .act act hother
  · exact .inl hact
  · exact .inr (newsroom.aside_play fun act hother heq => hact ⟨act, hother, heq⟩)

theorem Aside.running?_eq {last : Newsroom} (haside : newsroom.Aside last) :
    last.scene.running? = newsroom.scene.running? := by
  have hphase : last.scene.engine.phase = newsroom.scene.engine.phase := haside.phase
  rw [Scene.running?, Scene.running?, haside.owed, hphase]

private theorem Aside.tidy {last : Newsroom} (haside : newsroom.Aside last) (htidy : newsroom.scene.Tidy) :
    last.scene.Tidy := by
  have hphase : last.scene.engine.phase = newsroom.scene.engine.phase := haside.phase
  have hhistory : last.scene.engine.history = newsroom.scene.engine.history := haside.history
  constructor
  · refine ⟨hhistory ▸ htidy.steady.sound, fun id => ?_⟩
    rw [hhistory]
    exact htidy.steady.mutating id
  · exact haside.owed ▸ htidy.callers
  · simpa only [Scene.Ending, haside.owed, hphase] using htidy.worker

private theorem tidy_play (htidy : newsroom.scene.Tidy) (happening : Happening) :
    (newsroom.play happening).scene.Tidy := by
  rcases newsroom.act_or_aside happening with ⟨act, hother, rfl⟩ | haside
  · rw [play, scene_attend]
    exact htidy.play act hother
  · exact haside.tidy htidy

/-! ### Wires and actions -/

/-- The wires are those of the actions that were started, and the only one that is open is that of the action that
runs. -/
structure Wired (newsroom : Newsroom) : Prop where
  tidy : newsroom.scene.Tidy
  length_eq : newsroom.wires.length = newsroom.engine.runs
  current_eq : newsroom.current = newsroom.scene.running?.map Run.number
  running : ∀ run, newsroom.scene.running? = some run → newsroom.wires[run.number]? = some run.wire
  closed : ∀ number wire, newsroom.wires[number]? = some wire → newsroom.current ≠ some number →
    wire.reporter.isOpen = false

private theorem attend_of_same (hrunning : after.running? = newsroom.scene.running?) :
    newsroom.attend after = { newsroom with scene := after } := by
  unfold attend
  rw [hrunning]
  cases newsroom.scene.running? <;> rfl

private theorem attend_of_began (hidle : newsroom.scene.running? = none) (hrunning : after.running? = some run) :
    newsroom.attend after = { newsroom with scene := after }.connect run := by
  unfold attend
  rw [hidle, hrunning]

private theorem attend_of_ended (hrunning : newsroom.scene.running? = some run) (hidle : after.running? = none) :
    newsroom.attend after = { newsroom with scene := after }.disconnect := by
  unfold attend
  rw [hrunning, hidle]

theorem wired_opening {start : Engine} (hfresh : start.Fresh) : (opening start).Wired := by
  have hsteady := hfresh.steady
  have hruns : start.runs = 0 := by
    obtain ⟨registry, routes, defaultStack, limit, capacity, rfl⟩ := hfresh
    rfl
  have hidle : (opening start).scene.running? = none := by
    obtain ⟨registry, routes, defaultStack, limit, capacity, rfl⟩ := hfresh
    rfl
  refine ⟨⟨hsteady, fun _ => List.forall_mem_nil _, .inl rfl⟩, hruns.symm, ?_, fun run hrunning => ?_,
    fun number wire hwire => ?_⟩
  · rw [hidle]
    rfl
  · rw [hidle] at hrunning
    cases hrunning
  · cases hwire

theorem Wired.frame (hwired : newsroom.Wired) {last : Newsroom} (htidy : last.scene.Tidy)
    (hwires : last.wires = newsroom.wires) (hcurrent : last.current = newsroom.current)
    (hruns : last.engine.runs = newsroom.engine.runs)
    (hrunning : last.scene.running? = newsroom.scene.running?) : last.Wired where
  tidy := htidy
  length_eq := by rw [hwires, hruns, hwired.length_eq]
  current_eq := by rw [hcurrent, hrunning, hwired.current_eq]
  running := by
    rw [hwires, hrunning]
    exact hwired.running
  closed := by
    rw [hwires, hcurrent]
    exact hwired.closed

private theorem Wired.connect (hwired : newsroom.Wired) (htidy : after.Tidy) (hidle : newsroom.scene.running? = none)
    (hrunning : after.running? = some run) (hnumber : run.number = newsroom.engine.runs)
    (hruns : after.engine.runs = newsroom.engine.runs + 1) : ({ newsroom with scene := after }.connect run).Wired := by
  have hlast : run.number = newsroom.wires.length := hnumber.trans hwired.length_eq.symm
  refine ⟨htidy, ?_, ?_, fun other hother => ?_, fun number wire hwire hother => ?_⟩
  · show (newsroom.wires ++ [run.wire]).length = after.engine.runs
    rw [List.length_append, hwired.length_eq, hruns]
    rfl
  · show some newsroom.wires.length = after.running?.map Run.number
    rw [hrunning, ← hlast]
    rfl
  · obtain rfl := Option.some.inj (hrunning.symm.trans hother)
    show (newsroom.wires ++ [run.wire])[run.number]? = some run.wire
    rw [hlast, List.getElem?_concat_length]
  · -- the new wire is the current one, so this one was there before, when no action ran
    have hold : number < newsroom.wires.length := by
      have hbound : number < (newsroom.wires ++ [run.wire]).length := (List.getElem?_eq_some_iff.mp hwire).1
      have hfresh : number ≠ newsroom.wires.length := fun hsame => hother (congrArg some hsame.symm)
      rw [List.length_append, List.length_singleton] at hbound
      omega
    have hkept : newsroom.wires[number]? = some wire := by
      rw [← hwire]
      exact (List.getElem?_append_left hold).symm
    refine hwired.closed number wire hkept ?_
    rw [hwired.current_eq, hidle]
    nofun

private theorem Wired.disconnect (hwired : newsroom.Wired) (htidy : after.Tidy)
    (hrunning : newsroom.scene.running? = some run) (hidle : after.running? = none)
    (hruns : after.engine.runs = newsroom.engine.runs) :
    ({ newsroom with scene := after }.disconnect).Wired := by
  have hcurrent : newsroom.current = some run.number := by
    rw [hwired.current_eq, hrunning]
    rfl
  have hwires : ({ newsroom with scene := after }.disconnect).wires = newsroom.wires.modify run.number Wire.close := by
    show newsroom.current.elim _ _ = _
    rw [hcurrent]
    rfl
  refine ⟨htidy, ?_, ?_, fun other hother => ?_, fun number wire hwire _ => ?_⟩
  · rw [hwires, List.length_modify, hwired.length_eq]
    exact hruns.symm
  · show none = after.running?.map Run.number
    rw [hidle]
    rfl
  · exact nomatch hidle.symm.trans hother
  · rw [hwires, List.getElem?_modify] at hwire
    obtain ⟨before, hbefore, rfl⟩ := Option.map_eq_some_iff.mp hwire
    -- either it is the wire that is closed now, or it was closed already
    split_ifs with hnumber
    · rfl
    · refine hwired.closed number before hbefore ?_
      rw [hcurrent]
      exact fun hsame => hnumber (Option.some.inj hsame)

theorem Wired.play (hwired : newsroom.Wired) (happening : Happening) : (newsroom.play happening).Wired := by
  have htidy := tidy_play hwired.tidy happening
  rcases newsroom.act_or_aside happening with ⟨act, hother, rfl⟩ | haside
  · rw [Newsroom.play, scene_attend] at htidy
    show (newsroom.attend (newsroom.scene.play act)).Wired
    cases Scene.course_play hwired.tidy act hother with
    | quiet _ hrunning _ hruns =>
      rw [attend_of_same hrunning]
      exact hwired.frame htidy rfl rfl hruns hrunning
    | called _ _ _ hrunning _ hruns =>
      rw [attend_of_same hrunning]
      exact hwired.frame htidy rfl rfl hruns hrunning
    | began run _ hidle _ hrunning hnumber hruns =>
      rw [attend_of_began hidle hrunning]
      exact hwired.connect htidy hidle hrunning hnumber hruns
    | ended run outcome _ hrunning hidle _ _ _ hruns =>
      rw [attend_of_ended hrunning hidle]
      exact hwired.disconnect htidy hrunning hidle hruns
    | closed event _ _ hidle hafter _ hruns =>
      have hrunning := hafter.trans hidle.symm
      rw [attend_of_same hrunning]
      exact hwired.frame htidy rfl rfl hruns hrunning
  · exact hwired.frame htidy haside.wires haside.current haside.runs haside.running?_eq

theorem Wired.playAll (hwired : newsroom.Wired) (happenings : List Happening) : (newsroom.playAll happenings).Wired := by
  induction happenings generalizing newsroom with
  | nil => exact hwired
  | cons happening happenings ih => exact ih (hwired.play happening)

/-! ### Reports in one go -/

private theorem play_ask_of_open {wire : Wire} (hwire : newsroom.wire? slot = some wire)
    (hopen : wire.reporter.isOpen = true) (event : ProgressEvent) : newsroom.play (.ask slot event) =
      { newsroom with passed := newsroom.passed ++ [⟨wire.ticket, wire.reporter.command, event⟩] } := by
  simp only [play, ask, hwire, hopen, if_true]

private theorem play_ask_of_closed {wire : Wire} (hwire : newsroom.wire? slot = some wire)
    (hclosed : wire.reporter.isOpen = false) (event : ProgressEvent) : newsroom.play (.ask slot event) = newsroom := by
  simp only [play, ask, hwire, hclosed, Bool.false_eq_true, if_false]

/-- Through a reporter whose action does not run, no report gets under way. -/
theorem Wired.play_ask_of_other (hwired : newsroom.Wired) (hheld : newsroom.held[slot]? = some number)
    (hother : newsroom.current ≠ some number) (event : ProgressEvent) : newsroom.play (.ask slot event) = newsroom := by
  cases hwire : newsroom.wires[number]? with
  | none =>
    have hnone : newsroom.wire? slot = none := by rw [wire?, hheld, Option.bind_some, hwire]
    simp only [Newsroom.play, ask, hnone]
  | some wire =>
    refine play_ask_of_closed ?_ (hwired.closed number wire hwire hother) event
    rw [wire?, hheld, Option.bind_some, hwire]

/-- A report through the reporter of the action that runs gets under way. -/
theorem Wired.play_ask_of_running (hwired : newsroom.Wired) (hrunning : newsroom.scene.running? = some run)
    (hheld : newsroom.held[slot]? = some run.number) (event : ProgressEvent) : newsroom.play (.ask slot event) =
      { newsroom with passed := newsroom.passed ++ [⟨run.job.ticket, run.step.command.id, event⟩] } := by
  have hwire : newsroom.wire? slot = some run.wire := by
    rw [wire?, hheld, Option.bind_some, hwired.running run hrunning]
  exact play_ask_of_open hwire rfl event

/-- **The three parts in one go are what the engine notes**: a report by the number of the run for which its reporter was
made. -/
theorem Wired.playAll_report (hwired : newsroom.Wired) (howed : newsroom.scene.owed .worker = [])
    (hheld : newsroom.held[slot]? = some number) (event : ProgressEvent) :
    newsroom.playAll [.ask slot event, .send newsroom.passed.length, .air newsroom.sent.length] =
      newsroom.withEngine (newsroom.engine.report number event) := by
  have hcurrent := hwired.current_eq
  rw [Scene.running?_of_nil howed] at hcurrent
  show ((newsroom.play (.ask slot event)).play (.send _)).play (.air _) = _
  by_cases hown : newsroom.current = some number
  · obtain ⟨run, hrun, rfl⟩ := Option.map_eq_some_iff.mp (hcurrent.symm.trans hown)
    rw [hwired.play_ask_of_running ((Scene.running?_of_nil howed).trans hrun) hheld,
      play_send List.getElem?_concat_length, play_air List.getElem?_concat_length,
      @Engine.report_of_acting newsroom.engine _ (Engine.phase_of_run? hrun)]
    simp [withEngine, engine, List.eraseIdx_append_of_length_le]
  · rw [hwired.play_ask_of_other hheld hown, play_send_of_none (List.getElem?_eq_none (Nat.le_refl _)),
      play_air_of_none (List.getElem?_eq_none (Nat.le_refl _)),
      @Engine.report_of_other newsroom.engine _ (hcurrent ▸ hown)]
    rfl

end Newsroom

end Retrace
