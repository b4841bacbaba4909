import Retrace.Event

/-!
# The event bus

Every subscriber receives the events that are published after it subscribed. The bus keeps a bounded
number of events for each; one that falls further behind is told how many it has missed.
-/

namespace Retrace

def powerOfTwoAbove (number : Nat) : Nat := if number ≤ 1 then 1 else Nat.pow 2 ((number - 1).log2 + 1)

inductive Delivery where
  | event (event : EngineEvent)
  | missed (count : Nat)
  | closed
  deriving DecidableEq, Inhabited

/-- The events published so far, and for each subscriber the number of events it has behind it. -/
structure Bus where
  kept : Nat
  published : List EngineEvent
  positions : List (Nat × Nat)
  nextSubscriber : Nat
  isClosed : Bool
  deriving DecidableEq, Inhabited

namespace Bus

def defaultCapacity : Nat := 1024

/-- A bus that keeps at least the given number of events for each subscriber. -/
def withCapacity (capacity : Nat) : Bus :=
  { kept := powerOfTwoAbove capacity, published := [], positions := [], nextSubscriber := 0,
    isClosed := false }

def publish (bus : Bus) (event : EngineEvent) : Bus :=
  { bus with published := bus.published ++ [event] }

def publishAll (bus : Bus) (events : List EngineEvent) : Bus :=
  { bus with published := bus.published ++ events }

/-- A new subscriber, which has everything published so far behind it. -/
def subscribe (bus : Bus) : Bus × Nat :=
  ({ bus with
      positions := bus.positions ++ [(bus.nextSubscriber, bus.published.length)]
      nextSubscriber := bus.nextSubscriber + 1 },
    bus.nextSubscriber)

def unsubscribe (bus : Bus) (subscriber : Nat) : Bus :=
  { bus with positions := bus.positions.filter fun entry => entry.1 != subscriber }

def subscriberCount (bus : Bus) : Nat := bus.positions.length

def close (bus : Bus) : Bus := { bus with isClosed := true }

def unread (bus : Bus) (position : Nat) : List Delivery :=
  let waiting := bus.published.drop position
  let lost := waiting.length - bus.kept
  let mark := if lost = 0 then [] else [Delivery.missed lost]
  let ending := if bus.isClosed then [Delivery.closed] else []
  mark ++ (waiting.drop lost).map Delivery.event ++ ending

def drain (bus : Bus) (subscriber : Nat) : Bus × List Delivery :=
  match bus.positions.lookup subscriber with
  | none => (bus, [])
  | some position =>
    let positions := bus.positions.map fun entry =>
      if entry.1 = subscriber then (subscriber, bus.published.length) else entry
    ({ bus with positions }, bus.unread position)

@[simp] theorem published_publish (bus : Bus) (event : EngineEvent) :
    (bus.publish event).published = bus.published ++ [event] := rfl

@[simp] theorem published_publishAll (bus : Bus) (events : List EngineEvent) :
    (bus.publishAll events).published = bus.published ++ events := rfl

end Bus

end Retrace
