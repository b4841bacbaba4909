import Retrace.Engine
import Retrace.Text.Order

/-!
# Settings

The settings of an engine: the limit on the length of stacks, the scope names, the default stack, the
capacity of the bus, and the stacks to which scopes are routed. An engine starts only from settings that
are in order.
-/

namespace Retrace

/-- The stacks to which scope names are routed, in the order of the names. -/
structure RouteTable where
  entries : List (String × String)
  sorted : Ordered.IsSorted Text.before entries
  deriving DecidableEq

namespace RouteTable

def empty : RouteTable := ⟨[], List.Pairwise.nil⟩

/-- Routes a scope name to a stack; an earlier route of that name is replaced. -/
def insert (table : RouteTable) (scope stack : String) : RouteTable :=
  ⟨Ordered.insert Text.before scope stack table.entries,
    Ordered.isSorted_insert Text.isKeyOrder_before scope stack table.sorted⟩

/-- The routes of a list, later ones replacing earlier ones of the same name. -/
def ofList (routes : List (String × String)) : RouteTable :=
  routes.foldl (fun table route => table.insert route.1 route.2) empty

end RouteTable

structure Config where
  undoLimit : UInt64
  scopes : List String
  defaultStack : String
  eventCapacity : UInt64
  routes : RouteTable
  deriving DecidableEq

namespace Config

def standard : Config :=
  { undoLimit := 0, scopes := [], defaultStack := "default",
    eventCapacity := UInt64.ofNat Bus.defaultCapacity, routes := RouteTable.empty }

def isBlankName (name : String) : Bool := (Text.trim name.toList).isEmpty

def checkRoute (registry : Registry) (scope stack : String) : Except EngineError Unit :=
  if scope = Scope.wildcardName then
    .error (.invalid s!"routes need a specific scope, not '{scope}'")
  else if (registry.bitOf? scope).isNone then .error (.unknownScope scope)
  else if isBlankName stack then
    .error (.badConfig s!"route for scope '{scope}' has an empty stack id")
  else .ok ()

def checkRoutes (registry : Registry) : List (String × String) → Except EngineError Unit
  | [] => .ok ()
  | (scope, stack) :: rest =>
    match checkRoute registry scope stack with
    | .error error => .error error
    | .ok () => checkRoutes registry rest

/-- The registry of settings that are in order, or the first thing that is not. -/
def validate (config : Config) : Except EngineError Registry :=
  if isBlankName config.defaultStack then .error (.badConfig "default_stack cannot be empty")
  else if config.eventCapacity = 0 then .error (.badConfig "event_capacity must be positive")
  else
    match Registry.ofNames config.scopes with
    | .error error => .error error
    | .ok registry => (checkRoutes registry config.routes.entries).map fun _ => registry

def resolveRoutes (registry : Registry) :
    List (String × String) → Except EngineError (List Route)
  | [] => .ok []
  | (scope, stack) :: rest =>
    match registry.scope scope with
    | .error error => .error error
    | .ok scope => (resolveRoutes registry rest).map (⟨scope, ⟨stack⟩⟩ :: ·)

/-- An engine with the given settings. -/
def startEngine (config : Config) : Except EngineError Engine :=
  match config.validate with
  | .error error => .error error
  | .ok registry =>
    match resolveRoutes registry config.routes.entries with
    | .error error => .error error
    | .ok routes =>
      .ok (Engine.start registry routes ⟨config.defaultStack⟩ config.undoLimit.toNat
        config.eventCapacity.toNat)

end Config

end Retrace
