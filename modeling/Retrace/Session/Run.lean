import Retrace.Engine.Submission
import Retrace.Session

/-!
# Running statements

What each statement of a script does. A statement that fails is counted and reported, and the session
goes on with the next one, unless the failure is one after which nothing can go on.
-/

namespace Retrace.Session

/-- Leaves a submitted job for later, or waits for it and reports it. -/
def settleJob (pace : Pace) (inBackground : Bool) (label : String) (ticket : Ticket) :
    SessionM Unit :=
  if inBackground then defer ⟨label, ticket⟩
  else do report label (← await pace ticket)

def scopeNamed (name : String) : SessionM Scope := do
  expect .ofScopeLookup ((← get).engine.registry.scope name)

def submitPosting (pace : Pace) (inBackground : Bool) (posting : Posting) : SessionM Unit := do
  let scope ← scopeNamed posting.account.scope
  let session ← get
  let (book, command) := session.book.write posting scope
  set { session with book }
  let ticket ← expect .engine (← call fun engine => engine.submit (.execute command))
  if inBackground then write ("queued " ++ command.text)
  settleJob pace inBackground command.text ticket

/-- Submits an undo or a redo, which may be limited to the scopes of a text. -/
def submitMove (pace : Pace) (inBackground : Bool) (label : String) (names : Option String)
    (request : Option Scope → Request) : SessionM Unit := do
  let ticket ←
    match names with
    | some names => do
      expect .ofScopeLookup (← call fun engine => engine.submitIn names request)
    | none => do expect .engine (← call fun engine => engine.submit (request none))
  settleJob pace inBackground label ticket

def jumpLabel : Option UInt64 → String
  | some index => s!"jump {index.toNat}"
  | none => "jump none"

/-- A list of texts between brackets. -/
def bracketed (texts : List String) : String := "[" ++ ", ".intercalate texts ++ "]"

def historyLine (current : Option Nat) (entry : HistoryEntry) : String :=
  let mark := if current = some entry.index then ">" else " "
  let state := if entry.isUndone then " (undone)" else ""
  s!"{mark} {entry.index}: {entry.text}{state}"

def writeAll : List String → SessionM Unit
  | [] => pure ()
  | line :: rest => do
    write line
    writeAll rest

/-- Writes the history of the active stack. The worker may go on between the looks at it. -/
def writeHistory (pace : Pace) : SessionM Unit := do
  let current := (← get).engine.currentIndex
  pause pace
  let active := (← get).engine.history.active.name
  pause pace
  let count := (← get).engine.count
  write s!"history {active} ({count} commands)"
  pause pace
  writeAll ((← get).engine.entries.map (historyLine current))

def perform (pace : Pace) (statement : Statement) (inBackground : Bool) : SessionM Unit :=
  match statement with
  | .set scope account value => submitPosting pace inBackground (.set ⟨scope, account⟩ value)
  | .add scope account delta => submitPosting pace inBackground (.add ⟨scope, account⟩ delta)
  | .get scope account => submitPosting pace inBackground (.get ⟨scope, account⟩)
  | .undo names => submitMove pace inBackground "undo" names .undo
  | .redo names => submitMove pace inBackground "redo" names .redo
  | .jump index => do
    let target := index.map UInt64.toNat
    let ticket ← expect .engine (← call fun engine => engine.submit (.jump target))
    settleJob pace inBackground (jumpLabel index) ticket
  | .stack id => do
    call fun engine => ((), engine.activate (id.map StackId.mk))
    write ("stack " ++ (← get).engine.history.active.name)
  | .limit count => do
    call fun engine => ((), engine.setLimit count.toNat)
    write s!"limit {count.toNat}"
  | .history => writeHistory pace
  | .queued names => do
    let filter := names.getD Scope.wildcardName
    let queued ← expect .ofScopeLookup ((← get).engine.queuedTextsIn filter)
    write ("queued " ++ bracketed queued)
  | .wait => collect pace
  | .balances => do writeAll (← get).book.ledger.shown
  | .clear => do
    call fun engine => ((), engine.clear)
    write "cleared"
  | .scopes => do write ("scopes " ++ bracketed (← get).engine.registry.names)

def count : SessionM Unit :=
  modify fun session =>
    { session with summary := { session.summary with statements := session.summary.statements + 1 } }

def runLine (pace : Pace) (line : ScriptLine) : SessionM Unit := do
  count
  pause pace
  match ← attempt (perform pace line.statement line.inBackground) with
  | none => pure ()
  | some error => if error.isFatal then throw error else fail error

def runLines (pace : Pace) : List ScriptLine → SessionM Unit
  | [] => pure ()
  | line :: rest => do
    runLine pace line
    runLines pace rest

/-- Runs a script: at its end it waits for the jobs that were left for later, and gives the count of
statements and failures of the session so far. -/
def runScript (pace : Pace) (lines : List ScriptLine) : SessionM Summary := do
  runLines pace lines
  collect pace
  return (← get).summary

def run (pace : Pace) (lines : List ScriptLine) (session : Session) :
    Except ShellError Summary × Session :=
  (runScript pace lines).run session

end Retrace.Session
