import Retrace.Event.Reporter
import Retrace.Ledger.Book

/-!
# The desk

A book whose commands are run by hand, without an engine, each time with a reporter of its own.
-/

namespace Retrace

/-- A book, its commands, where each is in its life, and the bus for the reports. -/
structure Desk where
  book : Book
  commands : List Command
  statuses : StatusBoard
  bus : Bus

namespace Desk

def start : Desk :=
  { book := Book.empty, commands := [], statuses := ⟨[]⟩
    bus := (Bus.withCapacity Bus.defaultCapacity).subscribe.1 }

def write (desk : Desk) (posting : Posting) (scope : Scope) : Desk × Command :=
  let (book, command) := desk.book.write posting scope
  ({ desk with book, commands := desk.commands ++ [command] }, command)

def run (desk : Desk) (command : Command) (direction : Direction) : Desk × ActionResult :=
  if !command.runsAction direction then (desk, .ok .null)
  else
    let done := desk.book.perform command.id direction
    let reporter := Reporter.attached command.id
    let bus := done.reports.foldl (fun bus event => reporter.emit event bus) desk.bus
    let (result, status) :=
      command.verdict direction (desk.statuses.get command.id) done.outcome
    ({ desk with book := done.world, statuses := desk.statuses.set command.id status, bus }, result)

def drain (desk : Desk) : Desk × List Delivery :=
  let (bus, deliveries) := desk.bus.drain 0
  ({ desk with bus }, deliveries)

end Desk

end Retrace
