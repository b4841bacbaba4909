import Retrace.Proofs.Registry
import Retrace.Proofs.Waiting

/-!
# Refused requests

A submission takes a ticket, makes an entry in the waiting list and joins the queue, and it can be refused before each
of these steps and after the second one. A refusal leaves the engine as it was, the counter of the tickets apart. It is
said as well which calls are refused, and with which error.
-/

namespace Retrace

def Request.scope? : Request → Option Scope
  | .execute command => some command.scope
  | .undo filter => filter
  | .redo filter => filter
  | .jump _ => none

private theorem map_const_eq_error_iff {α : Type} {check : Except EngineError Unit} {made : α} {error : EngineError} :
    check.map (fun _ => made) = .error error ↔ check = .error error := by
  cases check <;> simp [Except.map]

private theorem Scope.isAll_or_isEmpty_iff {scope : Scope} :
    (scope.isAll || scope.isEmpty) = true ↔ scope = .all ∨ scope = .empty := by
  cases scope <;> simp [isAll, isEmpty, empty]

/-! ### Scopes that are refused -/

namespace Registry

variable {registry : Registry} {names : List String} {error : EngineError}

def strayText (registry : Registry) (bits : BitVec 32) : String :=
  let whole := Scope.hexadecimal bits.toNat
  let stray := Scope.hexadecimal (bits &&& ~~~registry.mask).toNat
  s!"scope {whole} carries unregistered flags {stray}"

def Strays (registry : Registry) (scope : Scope) (error : EngineError) : Prop :=
  ∃ bits, scope = .areas bits ∧ ¬ registry.Covers bits ∧ error = .invalid (registry.strayText bits)

def Unknown (registry : Registry) (names : List String) (error : EngineError) : Prop :=
  ∃ front name back, names = front ++ name :: back ∧ (∀ known ∈ front, known ∈ registry.names) ∧
    name ∉ registry.names ∧ error = .unknownScope name

theorem validate_eq_error_iff {scope : Scope} : registry.validate scope = .error error ↔ registry.Strays scope error := by
  cases scope with
  | all => simp [validate, Strays]
  | areas bits =>
    unfold validate Strays Covers
    dsimp only
    split_ifs with hcovered
    · simp [hcovered]
    · simp only [Except.error.injEq, Scope.areas.injEq, exists_eq_left', hcovered, not_false_eq_true, true_and]
      exact eq_comm

private theorem bitOf?_eq_none_iff {name : String} : registry.bitOf? name = none ↔ name ∉ registry.names := by
  simp [bitOf?]

private theorem unknown_cons_iff {name : String} : registry.Unknown (name :: names) error ↔
    name ∉ registry.names ∧ error = .unknownScope name ∨ name ∈ registry.names ∧ registry.Unknown names error := by
  constructor
  · rintro ⟨front, other, back, hnames, hfront, hother, herror⟩
    rcases List.cons_eq_append_iff.mp hnames with ⟨rfl, hhead⟩ | ⟨front, rfl, rfl⟩
    · obtain ⟨rfl, -⟩ := List.cons.inj hhead
      exact .inl ⟨hother, herror⟩
    · obtain ⟨hknown, hfront⟩ := List.forall_mem_cons.mp hfront
      exact .inr ⟨hknown, front, other, back, rfl, hfront, hother, herror⟩
  · rintro (⟨hname, herror⟩ | ⟨hknown, front, other, back, rfl, hfront, hother, herror⟩)
    · exact ⟨[], name, names, rfl, List.forall_mem_nil _, hname, herror⟩
    · exact ⟨name :: front, other, back, rfl, List.forall_mem_cons.mpr ⟨hknown, hfront⟩, hother, herror⟩

private theorem bitsOfNames_eq_error_iff :
    registry.bitsOfNames names = .error error ↔ registry.Unknown names error := by
  induction names with
  | nil => simp [bitsOfNames, Unknown]
  | cons name names ih =>
    rw [unknown_cons_iff, bitsOfNames]
    cases hbit : registry.bitOf? name with
    | none =>
      have habsent := bitOf?_eq_none_iff.mp hbit
      simp [habsent, eq_comm]
    | some bit =>
      have hknown : name ∈ registry.names := mem_names_of_bitOf? (by rw [hbit]; rfl)
      rw [← ih]
      cases registry.bitsOfNames names <;> simp [hknown, Except.map]

theorem scopeOfNames_eq_error_iff : registry.scopeOfNames names = .error error ↔
    Scope.wildcardName ∉ names.map trimName ∧ registry.Unknown (names.map trimName) error := by
  rw [← bitsOfNames_eq_error_iff]
  unfold scopeOfNames
  dsimp only
  split_ifs with hwildcard
  · simp [hwildcard]
  · cases registry.bitsOfNames (names.map trimName) <;> simp [hwildcard, Except.map]

private theorem scopeOfText_eq_error_iff {text : String} : registry.scopeOfText text = .error error ↔
    Scope.wildcardName ∉ (namesOf text).map trimName ∧ registry.Unknown ((namesOf text).map trimName) error :=
  scopeOfNames_eq_error_iff

end Registry

namespace Engine

variable {engine start : Engine} {request : Request} {error : EngineError} {scope : Scope} {names : String}

/-! ### Calls that are refused -/

inductive Refusal (engine : Engine) (request : Request) : EngineError → Prop where
  | closed (hclosed : engine.isAccepting = false) : Refusal engine request .shutDown
  | stray (hopen : engine.isAccepting = true) {scope : Scope} (hscope : request.scope? = some scope)
      {error : EngineError} (hstray : engine.registry.Strays scope error) : Refusal engine request error
  | unheard (hopen : engine.isAccepting = true) (hdeaf : engine.isListening = false)
      (hknown : ∀ scope, request.scope? = some scope → ∀ error, ¬ engine.registry.Strays scope error) :
      Refusal engine request .shutDown

/-- Why a request is refused whose filter is given by names: one of the names is unknown, or it is refused with the
filter that they stand for. -/
inductive NamedRefusal (engine : Engine) (names : String) (request : Option Scope → Request) : EngineError → Prop where
  | unknown (hspecific : Scope.wildcardName ∉ (Registry.namesOf names).map Registry.trimName) {error : EngineError}
      (hunknown : engine.registry.Unknown ((Registry.namesOf names).map Registry.trimName) error) :
      NamedRefusal engine names request error
  | known (scope : Scope) (hnames : engine.registry.scopeOfText names = .ok scope) {error : EngineError}
      (hrefusal : engine.Refusal (request (some scope)) error) : NamedRefusal engine names request error

inductive RouteRefusal (engine : Engine) (scope : Scope) : EngineError → Prop where
  | stray {error : EngineError} (hstray : engine.registry.Strays scope error) : RouteRefusal engine scope error
  | general (hgeneral : scope = .all ∨ scope = .empty) :
      RouteRefusal engine scope (.invalid "routes need a specific, non-empty scope")

theorem goalFor_eq_error_iff : engine.goalFor request = .error error ↔
    ∃ scope, request.scope? = some scope ∧ engine.registry.Strays scope error := by
  have hfilter : ∀ filter : Option Scope, engine.checkFilter filter = .error error ↔
      ∃ scope, filter = some scope ∧ engine.registry.Strays scope error := by
    intro filter
    cases filter <;> simp [checkFilter, Registry.validate_eq_error_iff]
  cases request with
  | execute command => simp [goalFor, Request.scope?, map_const_eq_error_iff, Registry.validate_eq_error_iff]
  | undo filter => simp [goalFor, Request.scope?, map_const_eq_error_iff, hfilter]
  | redo filter => simp [goalFor, Request.scope?, map_const_eq_error_iff, hfilter]
  | jump target => simp [goalFor, Request.scope?]

theorem exists_goalFor (hknown : ∀ scope, request.scope? = some scope → ∀ error, ¬ engine.registry.Strays scope error) :
    ∃ goal, engine.goalFor request = .ok goal := by
  cases hgoal : engine.goalFor request with
  | ok goal => exact ⟨goal, rfl⟩
  | error error =>
    obtain ⟨scope, hscope, hstray⟩ := goalFor_eq_error_iff.mp hgoal
    exact absurd hstray (hknown scope hscope error)

theorem submit_of_stray (hopen : engine.isAccepting = true) (hgoal : engine.goalFor request = .error error) :
    engine.submit request = (.error error, { engine with nextTicket := engine.nextTicket + 1 }) := by
  have hsame : ({ engine with nextTicket := engine.nextTicket + 1 }).goalFor request = .error error := hgoal
  rw [submit, if_pos hopen]
  dsimp only
  rw [hsame]

theorem submit_of_goal (hopen : engine.isAccepting = true) {goal : Goal} (hgoal : engine.goalFor request = .ok goal) :
    engine.submit request = ({ engine with nextTicket := engine.nextTicket + 1 }).schedule engine.nextTicket goal := by
  have hsame : ({ engine with nextTicket := engine.nextTicket + 1 }).goalFor request = .ok goal := hgoal
  rw [submit, if_pos hopen]
  dsimp only
  rw [hsame]

theorem refusal_of_submit (hrefused : (engine.submit request).1 = .error error) : engine.Refusal request error := by
  cases hopen : engine.isAccepting with
  | false =>
    rw [submit_of_closed hopen] at hrefused
    exact Except.error.inj hrefused ▸ .closed hopen
  | true =>
    cases hgoal : engine.goalFor request with
    | error reason =>
      rw [submit_of_stray hopen hgoal] at hrefused
      obtain ⟨scope, hscope, hstray⟩ := goalFor_eq_error_iff.mp hgoal
      exact .stray hopen hscope (Except.error.inj hrefused ▸ hstray)
    | ok goal =>
      have hknown : ∀ scope, request.scope? = some scope → ∀ error, ¬ engine.registry.Strays scope error := by
        intro scope hscope error hstray
        exact nomatch (goalFor_eq_error_iff.mpr ⟨scope, hscope, hstray⟩).symm.trans hgoal
      rw [submit_of_goal hopen hgoal] at hrefused
      unfold schedule at hrefused
      dsimp only at hrefused
      split_ifs at hrefused with hlistening
      exact Except.error.inj hrefused ▸ .unheard hopen (by simpa using hlistening) hknown

theorem Refusal.submit (hrefusal : engine.Refusal request error) : (engine.submit request).1 = .error error := by
  cases hrefusal with
  | closed hclosed => rw [submit_of_closed hclosed]
  | stray hopen hscope hstray => rw [submit_of_stray hopen (goalFor_eq_error_iff.mpr ⟨_, hscope, hstray⟩)]
  | unheard hopen hdeaf hknown =>
    obtain ⟨goal, hgoal⟩ := exists_goalFor hknown
    rw [submit_of_goal hopen hgoal]
    simp [schedule, hdeaf]

private theorem submitIn_eq_error_iff {request : Option Scope → Request} :
    (engine.submitIn names request).1 = .error error ↔ engine.NamedRefusal names request error := by
  constructor
  · intro hrefused
    unfold submitIn at hrefused
    split at hrefused
    · next reason hnames =>
      obtain ⟨hspecific, hunknown⟩ := Registry.scopeOfText_eq_error_iff.mp hnames
      exact .unknown hspecific (Except.error.inj hrefused ▸ hunknown)
    · next filter hnames => exact .known filter hnames (refusal_of_submit hrefused)
  · intro hrefusal
    cases hrefusal with
    | unknown hspecific hunknown =>
      have hnames := Registry.scopeOfText_eq_error_iff.mpr ⟨hspecific, hunknown⟩
      simp [submitIn, hnames]
    | known scope hnames hrefusal =>
      simp only [submitIn, hnames]
      exact hrefusal.submit

theorem route_eq_error_iff {stack : StackId} :
    (engine.route scope stack).1 = .error error ↔ engine.RouteRefusal scope error := by
  constructor
  · intro hrefused
    unfold route at hrefused
    split at hrefused
    · next reason hvalid => exact .stray (Except.error.inj hrefused ▸ Registry.validate_eq_error_iff.mp hvalid)
    · split_ifs at hrefused with hgeneral
      exact Except.error.inj hrefused ▸ .general (Scope.isAll_or_isEmpty_iff.mp hgeneral)
  · intro hrefusal
    cases hrefusal with
    | stray hstray =>
      have hvalid := Registry.validate_eq_error_iff.mpr hstray
      simp [route, hvalid]
    | general hgeneral =>
      have hvalid : engine.registry.validate scope = .ok () := by
        rcases hgeneral with rfl | rfl <;> simp [Registry.validate, Scope.empty]
      have hcondition := Scope.isAll_or_isEmpty_iff.mpr hgeneral
      simp [route, hvalid, hcondition]

/-! ### What a refusal leaves behind -/

/-- A state that some run leads to, whether or not somebody still takes jobs from the queue. -/
inductive Attained : Engine → Prop where
  | fresh {start : Engine} (hfresh : start.Fresh) : Attained start
  | moved {engine : Engine} (hattained : Attained engine) (move : Move) : Attained (engine.apply move)
  | abandoned {engine : Engine} (hattained : Attained engine) : Attained engine.abandon

theorem Attained.applyAll (hattained : engine.Attained) (moves : List Move) : (engine.applyAll moves).Attained := by
  induction moves generalizing engine with
  | nil => exact hattained
  | cons move moves ih => exact ih (hattained.moved move)

private theorem Attained.listed (hattained : engine.Attained) : engine.Numbered ∧ engine.Listed := by
  induction hattained with
  | fresh hfresh => exact ⟨hfresh.numbered, hfresh.told.listed⟩
  | @moved engine _ move ih => exact ⟨ih.1.change (engine.passage_apply move), ih.2.apply ih.1 move⟩
  | abandoned _ ih => exact ⟨⟨ih.1.increasing, ih.1.given, ih.1.dated, ih.1.counted⟩, ih.2⟩

theorem Attained.lt_nextTicket (hattained : engine.Attained) :
    ∀ entry ∈ engine.waiting, entry.ticket < engine.nextTicket :=
  hattained.listed.2.below hattained.listed.1

def Untouched (engine after : Engine) : Prop :=
  after = engine ∨ engine.isAccepting = true ∧ after = { engine with nextTicket := engine.nextTicket + 1 }

theorem Attained.submit (hattained : engine.Attained) (hrefused : (engine.submit request).1 = .error error) :
    engine.Untouched (engine.submit request).2 := by
  cases refusal_of_submit hrefused with
  | closed hclosed =>
    rw [submit_of_closed hclosed]
    exact .inl rfl
  | stray hopen hscope hstray =>
    rw [submit_of_stray hopen (goalFor_eq_error_iff.mpr ⟨_, hscope, hstray⟩)]
    exact .inr ⟨hopen, rfl⟩
  | unheard hopen hdeaf hknown =>
    obtain ⟨goal, hgoal⟩ := exists_goalFor hknown
    have hback := withoutTicket_noted hattained.lt_nextTicket goal
    rw [submit_of_goal hopen hgoal]
    exact .inr ⟨hopen, by simp [schedule, hdeaf, hback]⟩

private theorem Attained.submitIn (hattained : engine.Attained) {request : Option Scope → Request}
    (hrefused : (engine.submitIn names request).1 = .error error) :
    engine.Untouched (engine.submitIn names request).2 := by
  unfold Engine.submitIn at hrefused ⊢
  split at hrefused
  · exact .inl rfl
  · exact hattained.submit hrefused

theorem route_of_refused {stack : StackId} (hrefused : (engine.route scope stack).1 = .error error) :
    (engine.route scope stack).2 = engine := by
  unfold route at hrefused ⊢
  split at hrefused
  · rfl
  · split_ifs at hrefused ⊢
    rfl

structure Refuses (engine : Engine) : Prop where
  /-- A request that is refused leaves no trace. -/
  submitted : ∀ request error, (engine.submit request).1 = .error error → engine.Untouched (engine.submit request).2
  /-- No more does an undo among named areas that is refused. -/
  undone : ∀ names error, (engine.undoIn names).1 = .error error → engine.Untouched (engine.undoIn names).2
  /-- No more does a redo among named areas that is refused. -/
  redone : ∀ names error, (engine.redoIn names).1 = .error error → engine.Untouched (engine.redoIn names).2
  /-- A route that is refused does not even take a ticket. -/
  routed : ∀ scope stack error, (engine.route scope stack).1 = .error error → (engine.route scope stack).2 = engine
  /-- Requests are refused for the listed reasons, each with its error, and for no other. -/
  reasons : ∀ request error, (engine.submit request).1 = .error error ↔ engine.Refusal request error
  /-- So it is with filters that are given by names. -/
  named : ∀ names error,
    ((engine.undoIn names).1 = .error error ↔ engine.NamedRefusal names .undo error) ∧
      ((engine.redoIn names).1 = .error error ↔ engine.NamedRefusal names .redo error)
  /-- So it is with routes. -/
  directed : ∀ scope stack error, (engine.route scope stack).1 = .error error ↔ engine.RouteRefusal scope error

/-- **A refused request leaves no trace** in any state that can be reached, also when nobody takes jobs from the queue
any more. -/
theorem refused_without_trace (hattained : engine.Attained) : engine.Refuses where
  submitted := fun _ _ hrefused => hattained.submit hrefused
  undone := fun _ _ hrefused => hattained.submitIn hrefused
  redone := fun _ _ hrefused => hattained.submitIn hrefused
  routed := fun _ _ _ hrefused => route_of_refused hrefused
  reasons := fun _ _ => ⟨refusal_of_submit, Refusal.submit⟩
  named := fun _ _ => ⟨submitIn_eq_error_iff, submitIn_eq_error_iff⟩
  directed := fun _ _ _ => route_eq_error_iff

/-- Four calls that are refused while a first command runs and others wait, the last of them when its entry is made
already. -/
theorem refused_without_trace_rush :
    (twoAreas.applyAll rush).Attained ∧ (twoAreas.applyAll rush).abandon.Refuses ∧
      ((twoAreas.applyAll rush).submit (.undo (some (.areas 6#32)))).1 =
        .error (.invalid "scope 0x6 carries unregistered flags 0x4") ∧
      ((twoAreas.applyAll rush).undoIn "eu, mars").1 = .error (.unknownScope "mars") ∧
      ((twoAreas.applyAll rush).route .all sampleStack).1 =
        .error (.invalid "routes need a specific, non-empty scope") ∧
      ((twoAreas.applyAll rush).abandon.submit (.execute (sampleCommand 4))).1 = .error .shutDown := by
  have hattained : (twoAreas.applyAll rush).Attained := (Attained.fresh ⟨_, _, _, _, _, rfl⟩).applyAll rush
  exact ⟨hattained, refused_without_trace hattained.abandoned, rfl, rfl, rfl, rfl⟩

end Engine

end Retrace
