import Retrace.Proofs.Background
import Retrace.Proofs.Chronicle

/-!
# Jobs that are owed a report

A docket says which jobs a session owes a report and which ticket comes next. It follows from the lines of a script alone:
a line that asks for a job takes the next ticket, a line in the foreground reports its own job at its place, a line in the
background leaves it on the docket, and a `wait` or the end of the script reports all that is on it, oldest first. Every
job is reported exactly once.
-/

namespace Retrace

/-! ### Jobs of lines -/

def Statement.label? : Statement → Option String
  | set scope account value => some (Posting.set ⟨scope, account⟩ value).text
  | add scope account delta => some (Posting.add ⟨scope, account⟩ delta).text
  | get scope account => some (Posting.get ⟨scope, account⟩).text
  | undo _ => some "undo"
  | redo _ => some "redo"
  | jump index => some (Session.jumpLabel index)
  | _ => none

/-- The ticket of the next job, and the jobs that are still to be reported, in the order of their submission. -/
structure Docket where
  next : Ticket
  owed : List Pending
  deriving DecidableEq

def Session.docket (session : Session) : Docket := ⟨session.engine.nextTicket, session.background⟩

namespace Docket

def job? (docket : Docket) (line : ScriptLine) : Option Pending :=
  line.statement.label?.map fun label => ⟨label, docket.next⟩

/-- The jobs that a line reports: its own if it waits for it, and all that are owed if it says so. -/
def reports (docket : Docket) (line : ScriptLine) : List Pending :=
  if line.statement = .wait then docket.owed
  else if line.inBackground then []
  else (docket.job? line).toList

def after (docket : Docket) (line : ScriptLine) : Docket :=
  match docket.job? line with
  | some job => ⟨docket.next + 1, if line.inBackground then docket.owed ++ [job] else docket.owed⟩
  | none => if line.statement = .wait then ⟨docket.next, []⟩ else docket

def afterAll (docket : Docket) (lines : List ScriptLine) : Docket := lines.foldl after docket

def own : Docket → List ScriptLine → List (Option Pending)
  | _, [] => []
  | docket, line :: rest => docket.job? line :: (docket.after line).own rest

/-- The own jobs of some lines, in order. -/
def jobs (docket : Docket) (lines : List ScriptLine) : List Pending := (docket.own lines).reduceOption

def reported : Docket → List ScriptLine → List Pending
  | docket, [] => docket.owed
  | docket, line :: rest => docket.reports line ++ (docket.after line).reported rest

variable {docket : Docket} {line : ScriptLine} {lines rest : List ScriptLine} {job : Pending}

theorem of_job? (hjob : docket.job? line = some job) :
    docket.after line = ⟨docket.next + 1, if line.inBackground then docket.owed ++ [job] else docket.owed⟩ ∧
    docket.reports line = if line.inBackground then [] else [job] := by
  have hwait : line.statement ≠ .wait := by
    intro hwait
    rw [job?, hwait] at hjob
    cases hjob
  unfold after reports
  rw [hjob]
  exact ⟨rfl, if_neg hwait⟩

theorem of_no_label (hlabel : line.statement.label? = none) (hwait : line.statement ≠ .wait) :
    docket.after line = docket ∧ docket.reports line = [] := by
  have hjob : docket.job? line = none := by rw [job?, hlabel, Option.map_none]
  unfold after reports
  rw [hjob]
  exact ⟨if_neg hwait, (if_neg hwait).trans (ite_self _)⟩

theorem of_wait (hwait : line.statement = .wait) :
    docket.after line = ⟨docket.next, []⟩ ∧ docket.reports line = docket.owed := by
  have hjob : docket.job? line = none := by
    rw [job?, hwait]
    rfl
  unfold after reports
  rw [hjob]
  exact ⟨if_pos hwait, if_pos hwait⟩

end Docket

/-! ### What is written about jobs and lines -/

namespace Pending

variable {engine later : Engine} {job : Pending}

def failed (engine : Engine) (job : Pending) : Bool :=
  match engine.answer? job.ticket with
  | some (.error _) => true
  | _ => false

def succeeded (engine : Engine) (job : Pending) : Bool :=
  match engine.answer? job.ticket with
  | some (.ok _) => true
  | _ => false

/-- The report of a job that has ended: `ok` with its name and its value, or the error. -/
def report (engine : Engine) (job : Pending) : String :=
  match engine.answer? job.ticket with
  | some (.ok value) => Session.successLine job.label value
  | some (.error error) => "error: " ++ error.message
  | none => ""

end Pending

/-- What stands on a line of the output: a remark, or the report of a job. -/
inductive Minute where
  | remark (text : String)
  | report (job : Pending)
  deriving DecidableEq

namespace Minute

def text (engine : Engine) : Minute → String
  | remark text => text
  | report job => job.report engine

/-- The job that is reported, if one is. -/
def job? : Minute → Option Pending
  | remark _ => none
  | report job => some job

end Minute

/-- What a line of a script writes that is not a report. -/
def ScriptLine.Remarks (line : ScriptLine) (texts : List String) : Prop :=
  match line.statement with
  | .set _ _ _ | .add _ _ _ | .get _ _ =>
    texts = if line.inBackground then line.statement.label?.toList.map ("queued " ++ ·) else []
  | .undo _ | .redo _ | .jump _ | .wait => texts = []
  | .stack _ => ∃ name, texts = ["stack " ++ name]
  | .limit count => texts = [s!"limit {count.toNat}"]
  | .history => ∃ (name : String) (count : Nat) (current : Option Nat) (entries : List HistoryEntry),
      texts = s!"history {name} ({count} commands)" :: entries.map (Session.historyLine current)
  | .queued _ => ∃ names, texts = ["queued " ++ Session.bracketed names]
  | .balances => ∃ ledger : Ledger, texts = ledger.shown
  | .clear => texts = ["cleared"]
  | .scopes => ∃ names, texts = ["scopes " ++ Session.bracketed names]

def Engine.submissions (engine : Engine) : Move → List (Request × Except EngineError Ticket)
  | .submit request => [(request, (engine.submit request).1)]
  | _ => []

/-- What a line submits: its job, if it has one. -/
def Docket.Asks (registry : Registry) (docket : Docket) (line : ScriptLine)
    (asked : List (Request × Except EngineError Ticket)) : Prop :=
  match docket.job? line with
  | none => asked = []
  | some job => ∃ errand book, line.statement.errand? registry = .ok (some errand) ∧
      asked = [(errand.request book, .ok job.ticket)]

/-- What the lines of a script submit and write, each at its place, and what is written at the end of the script. -/
inductive Docket.Followed (registry : Registry) :
    Docket → List ScriptLine → List (Request × Except EngineError Ticket) → List Minute → Prop
  | done (docket : Docket) : Followed registry docket [] [] (docket.owed.map .report)
  | line (docket : Docket) {line : ScriptLine} {rest : List ScriptLine} {remarks : List String} {minutes : List Minute}
      {now later : List (Request × Except EngineError Ticket)} (hasks : docket.Asks registry line now)
      (hremarks : line.Remarks remarks) (hrest : Followed registry (docket.after line) rest later minutes) :
      Followed registry docket (line :: rest) (now ++ later)
        (remarks.map .remark ++ (docket.reports line).map .report ++ minutes)

namespace Docket

variable {registry : Registry} {docket : Docket} {lines : List ScriptLine} {minutes : List Minute}
  {asked : List (Request × Except EngineError Ticket)}

theorem Followed.reported (hfollowed : docket.Followed registry lines asked minutes) :
    minutes.filterMap Minute.job? = docket.reported lines := by
  have hreports : ∀ jobs : List Pending, (jobs.map Minute.report).filterMap Minute.job? = jobs := by
    intro jobs
    rw [List.filterMap_map]
    exact List.filterMap_some
  have hremarks : ∀ texts : List String, (texts.map Minute.remark).filterMap Minute.job? = [] := by
    intro texts
    rw [List.filterMap_map]
    exact List.filterMap_eq_nil_iff.mpr fun _ _ => rfl
  induction hfollowed with
  | done docket => exact hreports docket.owed
  | line docket _ _ _ ih =>
    rw [List.filterMap_append, List.filterMap_append, hremarks, hreports, ih]
    rfl

end Docket

end Retrace
