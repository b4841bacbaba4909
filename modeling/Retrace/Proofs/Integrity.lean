import Retrace.Proofs.Overtaking
import Retrace.Proofs.Revision
import Retrace.Proofs.Settings

/-!
# The state of an engine is in order

From settings that are in order, every run leads to states in which the stacks, the limit, the routes and the order in
which the stacks were touched fit together (`Intact`).
-/

namespace Retrace

variable {registry : Registry} {engine : Engine}

/-! ### Routes -/

/-- A scope that can be routed is neither everything nor nothing, and all its areas have names. -/
def Registry.Routable (registry : Registry) (scope : Scope) : Prop :=
  ∃ bits, scope = .areas bits ∧ bits ≠ 0#32 ∧ registry.Covers bits

private theorem Registry.routable_of_validate {scope : Scope} (hvalid : registry.validate scope = .ok ())
    (hspecific : ¬ (scope.isAll || scope.isEmpty) = true) : registry.Routable scope := by
  cases scope with
  | all => exact absurd rfl hspecific
  | areas bits =>
    refine ⟨bits, rfl, ?_, Registry.covers_of_validate hvalid⟩
    simpa [Scope.isAll, Scope.isEmpty] using hspecific

namespace Engine

/-- The routes go from different scopes that can be routed. -/
structure Directed (engine : Engine) : Prop where
  apart : (engine.routes.map Route.scope).Nodup
  routable : ∀ route ∈ engine.routes, engine.registry.Routable route.scope

theorem Directed.frame {after : Engine} (hdirected : engine.Directed) (hregistry : after.registry = engine.registry)
    (hroutes : after.routes = engine.routes) : after.Directed where
  apart := hroutes ▸ hdirected.apart
  routable := by
    rw [hroutes, hregistry]
    exact hdirected.routable

theorem directed_start {config : Config} (hproper : registry.Proper)
    (hnames : ∀ entry ∈ config.routes.entries, entry.1 ∈ registry.names) (defaultStack : StackId) (limit capacity : Nat) :
    (Engine.start registry (config.routes.entries.map (Config.routeOf registry)) defaultStack limit capacity).Directed where
  apart := Config.nodup_scopes hproper hnames
  routable := by
    intro route hroute
    obtain ⟨entry, hentry, rfl⟩ := List.mem_map.mp hroute
    have hposition := List.idxOf_lt_length_of_mem (hnames entry hentry)
    refine ⟨_, rfl, Registry.bitAt_ne_zero ?_, Registry.covers_bitAt hposition⟩
    have hroom := hproper.room
    rw [Scope.areaLimit] at hroom
    omega

theorem Directed.route (hdirected : engine.Directed) (scope : Scope) (stack : StackId) :
    (engine.route scope stack).2.Directed := by
  unfold Engine.route
  split
  · exact hdirected
  · next hvalid =>
    split_ifs with hgeneral
    · exact hdirected
    · constructor
      · have hothers := hdirected.apart.sublist
          ((List.filter_sublist (p := fun route : Route => route.scope != scope)).map Route.scope)
        rw [List.map_append, List.nodup_append]
        refine ⟨hothers, List.nodup_singleton _, ?_⟩
        rintro other hother same hsame rfl
        obtain ⟨route, hroute, rfl⟩ := List.mem_map.mp hother
        have hne := List.of_mem_filter hroute
        rw [List.map_singleton, List.mem_singleton] at hsame
        simp [hsame] at hne
      · intro route hroute
        rcases List.mem_append.mp hroute with hold | hnew
        · exact hdirected.routable route (List.mem_of_mem_filter hold)
        · rw [List.mem_singleton.mp hnew]
          exact Registry.routable_of_validate hvalid hgeneral

/-- Nothing but the call for it changes the routes, and nothing at all the registry. -/
theorem Directed.apply (hdirected : engine.Directed) (move : Move) : (engine.apply move).Directed := by
  cases move with
  | submit request =>
    obtain ⟨waiting, queue, nextTicket, running, hsubmit⟩ := exists_submit_eq engine request
    show (engine.submit request).2.Directed
    rw [hsubmit]
    exact { hdirected with }
  | clear => exact { hdirected with }
  | setLimit limit => exact { hdirected with }
  | activate stack => exact { hdirected with }
  | route scope stack => exact hdirected.route scope stack
  | shutDown => exact { hdirected with }
  | advance => exact hdirected.frame (sameDesk_advance engine).registry (sameDesk_advance engine).routes
  | report number event =>
    exact hdirected.frame (sameDesk_report engine number event).registry (sameDesk_report engine number event).routes
  | finish outcome =>
    exact hdirected.frame (sameDesk_finish engine outcome).registry (sameDesk_finish engine outcome).routes

/-! ### All together -/

/-- What holds of the state of an engine that was started from settings that are in order. -/
structure Intact (engine : Engine) : Prop where
  standing : (engine.history.stack? engine.history.defaultStack).isSome = true ∧
    (engine.history.stack? engine.history.active).isSome = true
  keyed : (engine.history.stackList.map Stack.id).Nodup ∧
    ∀ id stack, engine.history.stack? id = some stack ↔ stack ∈ engine.history.stackList ∧ stack.id = id
  cursors : ∀ stack ∈ engine.history.stackList, stack.applied ≤ stack.count
  limited : engine.history.limit = 0 ∨ ∀ stack ∈ engine.history.stackList, stack.count ≤ engine.history.limit
  mutating : ∀ stack ∈ engine.history.stackList, ∀ command ∈ stack.commands, command.isQuery = false
  touched : ∀ stack ∈ engine.history.stackList, stack.commands ≠ [] →
    0 < stack.lastTouched ∧ stack.lastTouched ≤ engine.history.sequence
  apart : ∀ first ∈ engine.history.stackList, ∀ second ∈ engine.history.stackList,
    first.commands ≠ [] → second.commands ≠ [] → first.lastTouched = second.lastTouched → first = second
  routes : (engine.routes.map Route.scope).Nodup ∧
    ∀ route ∈ engine.routes, route.scope.isAll = false ∧ route.scope.isEmpty = false ∧
      route.scope.bits &&& ~~~engine.registry.mask = 0#32

/-- The same through names and lists, as each move keeps it. -/
structure Ordered (engine : Engine) : Prop extends engine.Steady where
  standing : engine.history.Standing
  limited : engine.history.Limited
  stamped : engine.history.Stamped
  directed : engine.Directed

theorem Ordered.apply (hordered : engine.Ordered) (move : Move) : (engine.apply move).Ordered := by
  have hchange := hordered.toSteady.change_apply move
  have hrevision := hchange.revision
  exact {
    toSteady := hordered.toSteady.change hchange
    standing := hordered.standing.revise hrevision
    limited := hordered.limited.revise hordered.sound hrevision
    stamped := hordered.stamped.revise hordered.sound hrevision
    directed := hordered.directed.apply move }

theorem Ordered.applyAll (hordered : engine.Ordered) (moves : List Move) : (engine.applyAll moves).Ordered := by
  induction moves generalizing engine with
  | nil => exact hordered
  | cons move moves ih => exact ih (hordered.apply move)

theorem Ordered.has_applyAll (hordered : engine.Ordered) (moves : List Move) {id : StackId}
    (hthere : engine.history.Has id) : (engine.applyAll moves).history.Has id := by
  induction moves generalizing engine with
  | nil => exact hthere
  | cons move moves ih =>
    have hrevision := (hordered.toSteady.change_apply move).revision
    exact ih (hordered.apply move) (hrevision.keeps hthere)

private theorem Ordered.intact (hordered : engine.Ordered) : engine.Intact where
  standing := ⟨hordered.standing.default, hordered.standing.active⟩
  keyed := by
    refine ⟨hordered.sound.keyed, fun id stack => ⟨fun hstack => ?_, ?_⟩⟩
    · exact ⟨History.mem_of_stack? hstack, History.id_of_stack? hstack⟩
    · rintro ⟨hmem, rfl⟩
      exact History.stack?_of_mem hordered.sound.keyed hmem
  cursors := hordered.sound.cursors
  limited := by
    refine hordered.limited.imp_right fun hfits stack hmem => ?_
    have hlength := hfits stack.id
    rwa [(hordered.sound.of_mem hmem).1] at hlength
  mutating := by
    intro stack hmem command hcommand
    rw [← (hordered.sound.of_mem hmem).1] at hcommand
    exact hordered.mutating stack.id command hcommand
  touched := by
    intro stack hmem hsome
    obtain ⟨hline, htouched⟩ := hordered.sound.of_mem hmem
    rw [← htouched]
    exact ⟨hordered.stamped.positive stack.id (hline ▸ hsome), hordered.stamped.bounded stack.id⟩
  apart := by
    intro first hfirst second hsecond hfull hother hsame
    obtain ⟨hline, htouched⟩ := hordered.sound.of_mem hfirst
    obtain ⟨hline', htouched'⟩ := hordered.sound.of_mem hsecond
    have hid := hordered.stamped.apart first.id second.id (hline ▸ hfull) (hline' ▸ hother)
      (by rw [htouched, htouched', hsame])
    have hstack := History.stack?_of_mem hordered.sound.keyed hfirst
    rw [hid, History.stack?_of_mem hordered.sound.keyed hsecond] at hstack
    exact (Option.some.inj hstack).symm
  routes := by
    refine ⟨hordered.directed.apart, fun route hroute => ?_⟩
    obtain ⟨bits, hscope, hsome, hcovers⟩ := hordered.directed.routable route hroute
    rw [hscope]
    exact ⟨rfl, by simpa [Scope.isEmpty] using hsome, hcovers⟩

/-- **The state is in order** at every moment of every run from settings that are in order, and no stack that was
there before is missing. -/
theorem intact_of_validate {config : Config} (hvalid : config.validate = .ok registry) :
    ∃ start, config.startEngine = .ok start ∧ start.registry = registry ∧
      ∀ moves, (start.applyAll moves).Intact ∧
        ∀ before later, moves = before ++ later → ∀ id, ((start.applyAll before).history.stack? id).isSome = true →
          ((start.applyAll moves).history.stack? id).isSome = true := by
  obtain ⟨hproper, hroutes⟩ := Config.checked_of_validate hvalid
  have hnames : ∀ entry ∈ config.routes.entries, entry.1 ∈ registry.names :=
    fun entry => Config.mem_names_of_checkRoutes hroutes
  refine ⟨_, Config.startEngine_eq hvalid, rfl, fun moves => ?_⟩
  generalize hstart : Engine.start registry (config.routes.entries.map (Config.routeOf registry))
    ⟨config.defaultStack⟩ config.undoLimit.toNat config.eventCapacity.toNat = start
  have hordered : start.Ordered := by
    subst hstart
    exact {
      toSteady := Fresh.steady ⟨_, _, _, _, _, rfl⟩
      standing := History.Standing.start _ _
      limited := History.Limited.start _ _
      stamped := History.Stamped.start _ _
      directed := directed_start hproper hnames _ _ _ }
  refine ⟨(hordered.applyAll moves).intact, ?_⟩
  rintro before later rfl id hthere
  rw [applyAll_append]
  exact (hordered.applyAll before).has_applyAll later hthere

/-- Settings with a limit, two scope names and a route for one of them. -/
def routedSettings : Config :=
  { Config.standard with
    undoLimit := 2, scopes := ["plan", " budget "], routes := RouteTable.ofList [("budget", "books")] }

def scopedCommand (number : CommandId) (scope : Scope) : Command := ⟨number, "", .mutating, scope, none⟩

/-- Commands for the routed area and one for the default stack are executed, a route is added, the limit is lowered,
and an undo is under way. -/
def busyDay : List Move :=
  ([scopedCommand 0 (.areas 2), scopedCommand 1 (.areas 2), scopedCommand 2 (.areas 2), scopedCommand 3 .all].flatMap
    fun command => underway (.execute command) ++ [success]) ++
    [.route (.areas 3) ⟨"both"⟩, .setLimit 1] ++ underway (.undo none)

/-- In such a run both stacks come to hold a command. -/
theorem intact_of_validate_routed :
    routedSettings.validate = .ok ⟨["plan", "budget"]⟩ ∧
      ∃ start, routedSettings.startEngine = .ok start ∧ (start.applyAll busyDay).Intact ∧
        (start.applyAll busyDay).history.stackList.map (fun stack => (stack.count, stack.lastTouched)) =
          [(1, 4), (1, 3)] := by
  have hvalid : routedSettings.validate = .ok ⟨["plan", "budget"]⟩ := by rfl
  obtain ⟨start, hstart, -, hruns⟩ := intact_of_validate hvalid
  refine ⟨hvalid, start, hstart, (hruns busyDay).1, ?_⟩
  rw [Config.startEngine_eq hvalid] at hstart
  rw [← Except.ok.inj hstart]
  rfl

end Engine

end Retrace
