import Retrace.Event
import Retrace.Ledger
import Retrace.Text.Integer

/-!
# Postings

What a command does to the ledger. A posting that changes a balance records the one it replaces each
time it is carried out, and taking it back puts the recorded balance in place again.
-/

namespace Retrace

/-- A change to a balance, or a look at one. -/
inductive Posting where
  | set (account : Account) (value : Int64)
  | add (account : Account) (delta : Int64)
  | get (account : Account)
  deriving DecidableEq, Inhabited

namespace Posting

def text : Posting → String
  | set account value => s!"set {account.shown} = {value.toInt}"
  | add account delta => s!"add {account.shown} {Text.withSign delta.toInt}"
  | get account => s!"get {account.shown}"

/-- The kind of the command of a posting. -/
def kind : Posting → CommandKind
  | set _ _ | add _ _ => .mutating
  | get _ => .query

/-- The account that a posting is about. -/
def account : Posting → Account
  | set account _ | add account _ | get account => account

end Posting

/-- A posting with the balance that it replaced when it was last carried out, if it was. -/
structure Entry where
  posting : Posting
  replaced : Option (Option Int64)
  deriving DecidableEq, Inhabited

namespace Entry

/-- What carrying out or taking back an entry does. -/
structure Effect where
  ledger : Ledger
  entry : Entry
  reports : List ProgressEvent
  result : ActionResult

def answer (balance : Option Int64) : Json :=
  match balance with
  | some value => .integer value.toInt
  | none => .null

def refuse (entry : Entry) (ledger : Ledger) (reports : List ProgressEvent) (command reason : String) :
    Effect :=
  { ledger, entry, reports, result := .error (.executionFailed command reason) }

def replace (entry : Entry) (ledger : Ledger) (value : Int64) (reports : List ProgressEvent) : Effect :=
  let account := entry.posting.account
  { ledger := ledger.put account (some value)
    entry := { entry with replaced := some (ledger.balance? account) }
    reports, result := .ok (answer (some value)) }

/-- Carries out an entry. A sum that does not fit into a balance is refused. -/
def carryOut (entry : Entry) (ledger : Ledger) : Effect :=
  match entry.posting with
  | .set _ value => entry.replace ledger value []
  | .add account delta =>
    let current := (ledger.balance? account).getD 0
    match Text.int64OfInt? (current.toInt + delta.toInt) with
    | none => entry.refuse ledger [.started] s!"add {account.shown}" "balance overflow"
    | some sum =>
      let note := ProgressEvent.text s!"{account.shown} = {sum.toInt}"
      entry.replace ledger sum [.started, note, .finished]
  | .get account =>
    match ledger.balance? account with
    | some value => { ledger, entry, reports := [], result := .ok (answer (some value)) }
    | none =>
      entry.refuse ledger [] entry.posting.text
        s!"no account '{account.name}' in scope '{account.scope}'"

/-- Takes an entry back: the balance it last replaced is put in place again. -/
def takeBack (entry : Entry) (ledger : Ledger) : Effect :=
  let account := entry.posting.account
  match entry.replaced with
  | none => entry.refuse ledger [] account.shown "nothing recorded to restore"
  | some previous =>
    { ledger := ledger.put account previous, entry, reports := [], result := .ok (answer previous) }

def run (entry : Entry) (ledger : Ledger) : Direction → Effect
  | .forward => entry.carryOut ledger
  | .backward => entry.takeBack ledger

end Entry

end Retrace
