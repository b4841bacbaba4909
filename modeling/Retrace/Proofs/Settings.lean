import Mathlib.Tactic.SplitIfs
import Retrace.Config
import Retrace.Proofs.Registration

/-!
# Engines from settings

Settings that are in order give an engine whose routes are those of the settings: one for each routed name, each to
the area of its name. Nothing else keeps an engine from starting. The check of the settings looks the routed names up
as they are written, and the routes are then found by names without the blanks around them; but a name that passes the
check is registered, and a registered name has no blanks around it and is not that of the wildcard.
-/

namespace Retrace

namespace RouteTable

variable {table : RouteTable}

theorem nodup_names (table : RouteTable) : (table.entries.map Prod.fst).Nodup := by
  rw [List.Nodup, List.pairwise_map]
  refine table.sorted.imp ?_
  intro first second hbefore hsame
  rw [hsame, Text.isKeyOrder_before.irrefl] at hbefore
  cases hbefore

end RouteTable

namespace Config

variable {config : Config} {registry : Registry} {entries : List (String × String)}

def routeOf (registry : Registry) (entry : String × String) : Route :=
  ⟨.areas (Registry.bitAt (registry.names.idxOf entry.1)), ⟨entry.2⟩⟩

theorem checkRoute_eq_ok_iff {scope stack : String} : checkRoute registry scope stack = .ok () ↔
    scope ≠ Scope.wildcardName ∧ scope ∈ registry.names ∧ isBlankName stack = false := by
  rw [checkRoute, Registry.bitOf?_eq]
  by_cases hwild : scope = Scope.wildcardName
  · simp [hwild]
  · by_cases hname : scope ∈ registry.names
    · simp [hwild, hname]
    · simp [hwild, hname]

theorem checkRoutes_eq_ok_iff : checkRoutes registry entries = .ok () ↔
    ∀ entry ∈ entries, checkRoute registry entry.1 entry.2 = .ok () := by
  induction entries with
  | nil => simp [checkRoutes]
  | cons first rest ih =>
    obtain ⟨scope, stack⟩ := first
    rw [checkRoutes, List.forall_mem_cons, ← ih]
    cases checkRoute registry scope stack with
    | error error => simp
    | ok => simp

theorem mem_names_of_checkRoutes (hroutes : checkRoutes registry entries = .ok ()) {entry : String × String}
    (hmem : entry ∈ entries) : entry.1 ∈ registry.names :=
  (checkRoute_eq_ok_iff.mp (checkRoutes_eq_ok_iff.mp hroutes entry hmem)).2.1

theorem resolveRoutes_eq (hproper : registry.Proper) (hnames : ∀ entry ∈ entries, entry.1 ∈ registry.names) :
    resolveRoutes registry entries = .ok (entries.map (routeOf registry)) := by
  induction entries with
  | nil => rfl
  | cons first rest ih =>
    obtain ⟨scope, stack⟩ := first
    obtain ⟨hfirst, hrest⟩ := List.forall_mem_cons.mp hnames
    rw [resolveRoutes, hproper.scope_eq hfirst, ih hrest]
    rfl

theorem checked_of_validate (hvalid : config.validate = .ok registry) :
    registry.Proper ∧ checkRoutes registry config.routes.entries = .ok () := by
  unfold validate at hvalid
  split_ifs at hvalid
  split at hvalid
  · cases hvalid
  · next found hfound =>
    cases hroutes : checkRoutes found config.routes.entries with
    | error error =>
      rw [hroutes] at hvalid
      cases hvalid
    | ok =>
      rw [hroutes] at hvalid
      obtain rfl := Except.ok.inj hvalid
      exact ⟨Registry.Proper.ofNames hfound, hroutes⟩

/-- **An engine from settings** that are in order starts, with the registry and the routes of the settings. -/
theorem startEngine_eq (hvalid : config.validate = .ok registry) :
    config.startEngine = .ok (Engine.start registry (config.routes.entries.map (routeOf registry))
      ⟨config.defaultStack⟩ config.undoLimit.toNat config.eventCapacity.toNat) := by
  obtain ⟨hproper, hroutes⟩ := checked_of_validate hvalid
  unfold startEngine
  simp only [hvalid, resolveRoutes_eq hproper fun entry => mem_names_of_checkRoutes hroutes]

theorem nodup_scopes (hproper : registry.Proper) (hnames : ∀ entry ∈ config.routes.entries, entry.1 ∈ registry.names) :
    ((config.routes.entries.map (routeOf registry)).map Route.scope).Nodup := by
  have hdifferent := config.routes.nodup_names
  rw [List.Nodup, List.pairwise_map] at hdifferent
  rw [List.map_map, List.Nodup, List.pairwise_map]
  refine hdifferent.imp_of_mem ?_
  intro first second hfirst hsecond hne hsame
  have hposition : registry.names.idxOf first.1 < 32 := by
    have hlength := List.idxOf_lt_length_of_mem (hnames first hfirst)
    have hroom := hproper.room
    rw [Scope.areaLimit] at hroom
    omega
  have hpositions := Registry.bitAt_injective hposition (Scope.areas.inj hsame)
  exact hne ((List.idxOf_inj (hnames first hfirst)).mp hpositions)

/-! ### What an engine starts with -/

structure Routed (registry : Registry) (entry : String × String) (route : Route) : Prop where
  /-- It goes from the scope of the entry's name. -/
  scope : registry.scope entry.1 = .ok route.scope
  /-- That scope is one area, the one at the position of the name, and it is registered. -/
  area : ∃ position bits, registry.names[position]? = some entry.1 ∧ route.scope = .areas bits ∧
    bits.toNat = 2 ^ position ∧ bits &&& ~~~registry.mask = 0#32
  /-- It goes to the stack that the entry names. -/
  stack : route.stack = ⟨entry.2⟩
  named : isBlankName entry.2 = false

structure Opening (config : Config) (registry : Registry) (engine : Engine) : Prop where
  /-- It has the registry and the limit. -/
  checked : engine.registry = registry
  limit : engine.history.limit = config.undoLimit.toNat
  /-- The default stack is the only one, it is empty, and it is active. -/
  defaultStack : engine.history.defaultStack = ⟨config.defaultStack⟩
  active : engine.history.active = ⟨config.defaultStack⟩
  names : engine.history.stackIds = [⟨config.defaultStack⟩]
  empty : ∃ stack, engine.history.stack? ⟨config.defaultStack⟩ = some stack ∧ stack.commands = [] ∧ stack.applied = 0
  /-- The routes are found. -/
  found : resolveRoutes registry config.routes.entries = .ok engine.routes
  /-- There is one route for each entry, in the order of the names. -/
  routed : List.Forall₂ (Routed registry) config.routes.entries engine.routes
  ordered : (config.routes.entries.map Prod.fst).Pairwise fun first second => Text.before first second = true
  /-- No two routes go from the same scope. -/
  apart : (engine.routes.map Route.scope).Nodup

private theorem routed_routeOf (hproper : registry.Proper) {entry : String × String}
    (hname : entry.1 ∈ registry.names) (hstack : isBlankName entry.2 = false) :
    Routed registry entry (routeOf registry entry) := by
  have hposition := List.idxOf_lt_length_of_mem hname
  refine ⟨hproper.scope_eq hname, ⟨registry.names.idxOf entry.1, _, ?_, rfl, ?_, ?_⟩, rfl, hstack⟩
  · rw [List.getElem?_eq_getElem hposition, List.getElem_idxOf hposition]
  · have hroom := hproper.room
    rw [Scope.areaLimit] at hroom
    exact Registry.toNat_bitAt (by omega)
  · exact Registry.covers_bitAt hposition

theorem opening_start (hvalid : config.validate = .ok registry) : Opening config registry
    (Engine.start registry (config.routes.entries.map (routeOf registry)) ⟨config.defaultStack⟩
      config.undoLimit.toNat config.eventCapacity.toNat) := by
  obtain ⟨hproper, hroutes⟩ := checked_of_validate hvalid
  have hnames : ∀ entry ∈ config.routes.entries, entry.1 ∈ registry.names :=
    fun entry => mem_names_of_checkRoutes hroutes
  refine ⟨rfl, rfl, rfl, rfl, ?_, ⟨Stack.empty ⟨config.defaultStack⟩, ?_, rfl, rfl⟩, resolveRoutes_eq hproper hnames,
    ?_, ?_, nodup_scopes hproper hnames⟩
  · rw [History.stackIds, Engine.start, History.start, List.map_singleton, List.mergeSort_singleton, Stack.empty]
  · simp [Engine.start, History.start, History.stack?, Stack.empty]
  · rw [Engine.start, List.forall₂_map_right_iff, List.forall₂_same]
    intro entry hmem
    obtain ⟨-, hname, hstack⟩ := checkRoute_eq_ok_iff.mp (checkRoutes_eq_ok_iff.mp hroutes entry hmem)
    exact routed_routeOf hproper hname hstack
  · exact List.pairwise_map.mpr config.routes.sorted

/-- **The check of the settings decides** whether an engine starts: if something is not in order, this is the reason why
none does, and otherwise one starts, with the registry of the check and the routes of the settings. -/
theorem startEngine_of_validate (config : Config) :
    match config.validate with
    | .error error => config.startEngine = .error error
    | .ok registry => ∃ engine, config.startEngine = .ok engine ∧ Opening config registry engine := by
  cases hvalid : config.validate with
  | error error =>
    dsimp only
    rw [startEngine, hvalid]
  | ok registry =>
    dsimp only
    exact ⟨_, startEngine_eq hvalid, opening_start hvalid⟩

end Config

end Retrace
