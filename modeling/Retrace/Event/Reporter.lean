import Retrace.Event.Bus

/-!
# Reporters

An action reports its progress through a reporter. A reporter is closed when the run it was made for is
over, and what is reported through it later is dropped.
-/

namespace Retrace

/-- The way from a running action to the bus. -/
structure Reporter where
  command : CommandId
  isAttached : Bool
  isOpen : Bool
  deriving DecidableEq, Inhabited

namespace Reporter

def attached (command : CommandId) : Reporter := ⟨command, true, true⟩

def detached (command : CommandId) : Reporter := ⟨command, false, true⟩

def close (reporter : Reporter) : Reporter := { reporter with isOpen := false }

def emit (reporter : Reporter) (event : ProgressEvent) (bus : Bus) : Bus :=
  if reporter.isOpen && reporter.isAttached then bus.publish (.progress reporter.command event)
  else bus

theorem emit_close (reporter : Reporter) (event : ProgressEvent) (bus : Bus) :
    reporter.close.emit event bus = bus := rfl

end Reporter

end Retrace
