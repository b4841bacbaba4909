import Retrace.Command.Draft
import Retrace.Engine.Host
import Retrace.Ledger.Posting

/-!
# The book

A ledger with the entries behind the commands that change it. The number of a command is the place of
its entry, and an engine runs the commands on the book.
-/

namespace Retrace

/-- A ledger and the entries of its commands, by their numbers. -/
structure Book where
  ledger : Ledger
  entries : List Entry
  deriving DecidableEq

namespace Book

def empty : Book := ⟨Ledger.empty, []⟩

def write (book : Book) (posting : Posting) (scope : Scope) : Book × Command :=
  ({ book with entries := book.entries ++ [⟨posting, none⟩] },
    ⟨book.entries.length, posting.text, posting.kind, scope, none⟩)

def perform (book : Book) (id : CommandId) (direction : Direction) : Performance Book :=
  match book.entries[id]? with
  | none => { world := book, reports := [], outcome := .returned (.ok .null) }
  | some entry =>
    let effect := entry.run book.ledger direction
    { world := ⟨effect.ledger, book.entries.set id effect.entry⟩
      reports := effect.reports
      outcome := .returned effect.result }

def host : Host Book where
  perform step book := book.perform step.command.id step.operation.direction

end Book

end Retrace
