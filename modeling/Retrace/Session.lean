import Retrace.Json.Printer
import Retrace.Ledger.Book
import Retrace.Shell.Error

/-!
# Sessions

A session runs statements against an engine and a book, and writes a line about each. The worker of the
engine goes on at its own pace meanwhile: between any two things that the session does it may take any
number of turns.
-/

namespace Retrace

/-- How many statements were run, and how many failed. -/
structure Summary where
  statements : Nat
  failures : Nat
  deriving DecidableEq, Inhabited

/-- What a session writes to: why the write of a number is refused, if it is. -/
structure Writer where
  refusal? : Nat → Option String

namespace Writer

def closed : String := "sink closed"

/-- A writer that takes no more lines than its capacity, if it has one. -/
def upTo (capacity : Option Nat) : Writer :=
  ⟨fun number => if capacity.any (· ≤ number) then some closed else none⟩

end Writer

/-- Where the lines of a session go: what has been written so far, and why other writes were refused. -/
structure Sink where
  writer : Writer
  lines : List String
  refused : List String

namespace Sink

def empty (writer : Writer) : Sink := ⟨writer, [], []⟩

/-- Why the next write is refused, if it is. -/
def refusal? (sink : Sink) : Option String := sink.writer.refusal? (sink.lines.length + sink.refused.length)

def take (sink : Sink) (line : String) : Sink := { sink with lines := sink.lines ++ [line] }

def refuse (sink : Sink) (reason : String) : Sink := { sink with refused := sink.refused ++ [reason] }

def text (sink : Sink) : String := String.join (sink.lines.map fun line => line ++ "\n")

end Sink

/-- A job that was submitted in the background, and the name under which its end is reported. -/
structure Pending where
  label : String
  ticket : Ticket
  deriving DecidableEq, Inhabited

/-- A session: its engine and book, what it has written, the jobs that it has still to report, and how
often it has let the worker go on. -/
structure Session where
  engine : Engine
  book : Book
  sink : Sink
  background : List Pending
  summary : Summary
  pauses : Nat

/-- How many turns the worker takes when the session lets it go on. -/
structure Pace where
  turns : Session → Nat

abbrev SessionM := ExceptT ShellError (StateM Session)

namespace Pace

def eager : Pace := ⟨fun session => Host.turnBound session.engine⟩

/-- The worker does nothing until a number of lines has been written. -/
def held (lines : Nat) : Pace :=
  ⟨fun session =>
    if session.sink.lines.length < lines then 0 else Host.turnBound session.engine⟩

end Pace

namespace Session

def start (engine : Engine) (writer : Writer) : Session :=
  { engine, book := Book.empty, sink := Sink.empty writer, background := [], summary := ⟨0, 0⟩,
    pauses := 0 }

def withWorker (session : Session) (state : Engine × Book) : Session :=
  { session with engine := state.1, book := state.2 }

def close (session : Session) : Session :=
  let settled := session.withWorker (Book.host.settle session.engine session.book)
  { settled with engine := settled.engine.shutDown }

/-! ### What a session does -/

def pause (pace : Pace) : SessionM Unit := do
  let session ← get
  let state :=
    Book.host.turnUntil Engine.isSettled (pace.turns session) (session.engine, session.book)
  set { session.withWorker state with pauses := session.pauses + 1 }

def write (line : String) : SessionM Unit := do
  let session ← get
  match session.sink.refusal? with
  | some reason =>
    set { session with sink := session.sink.refuse reason }
    throw (.inputOutput reason)
  | none => set { session with sink := session.sink.take line }

def call {α : Type} (make : Engine → α × Engine) : SessionM α := do
  let session ← get
  let (reply, engine) := make session.engine
  set { session with engine }
  return reply

def expect {ε α : Type} (wrap : ε → ShellError) : Except ε α → SessionM α
  | .ok value => pure value
  | .error error => throw (wrap error)

/-- Waits for the end of a job. One that is dropped without an answer counts as cancelled. -/
def await (pace : Pace) (ticket : Ticket) : SessionM ActionResult := do
  let session ← get
  set (session.withWorker (Book.host.await ticket session.engine session.book))
  pause pace
  return ((← get).engine.answer? ticket).getD (.error .cancelled)

def successLine (label : String) (value : Json) : String :=
  match value with
  | .null => "ok " ++ label
  | value => "ok " ++ label ++ " -> " ++ value.compact

def report (label : String) (result : ActionResult) : SessionM Unit := do
  write (successLine label (← expect .engine result))

def fail (error : ShellError) : SessionM Unit := do
  modify fun session =>
    { session with summary := { session.summary with failures := session.summary.failures + 1 } }
  write ("error: " ++ error.userMessage)

def attempt (action : SessionM Unit) : SessionM (Option ShellError) :=
  try
    action
    pure none
  catch error => pure (some error)

def defer (pending : Pending) : SessionM Unit :=
  modify fun session => { session with background := session.background ++ [pending] }

def reportEach (pace : Pace) : List Pending → SessionM Unit
  | [] => pure ()
  | pending :: rest => do
    let result ← await pace pending.ticket
    match ← attempt (report pending.label result) with
    | none => pure ()
    | some error => fail error
    reportEach pace rest

/-- Waits for the jobs that were left for later. -/
def collect (pace : Pace) : SessionM Unit := do
  let session ← get
  set { session with background := [] }
  reportEach pace session.background

end Session

end Retrace
