import Retrace.Scenario.Stage
import Retrace.Stored
import Retrace.Stored.Error

/-!
# Scenarios in JSON

How the commands, instructions, calls and cues of a scenario are written down.
-/

namespace Retrace.Scenario

def scopeOf? : Json → Option Scope
  | .null => some .all
  | node => Scope.ofJson? node

/-- The scope of a member. -/
def scopeAt? (node : Json) (name : String) : Option Scope := scopeOf? (node.field name)

def filterOf? (node : Json) : Option (Option Scope) := (scopeAt? node "scope").map some

def stackAt? (node : Json) (name : String) : Option (Option StackId) :=
  node.optionalAt? name StackId.ofJson?

def eventAt? (node : Json) : Option ProgressEvent := ProgressEvent.ofJson? (node.field "event")

def supplyOf? (node : Json) : Option Supply :=
  match node.field "via" with
  | .null | .text "closures" => some .sides
  | .text "action" | .text "shared" => some .action
  | .text "both" => some .both
  | .text "none" => some .neither
  | _ => none

def breakOffOf? (node : Json) : Option (Option String) :=
  match node.field "as" with
  | .text "str" => some (some "static panic text")
  | .text "other" => some none
  | _ => some (some ((node.textAt? "t").getD ""))

mutual

def instructionOf? : Nat → Json → Option (Instruction Call)
  | 0, _ => none
  | fuel + 1, node => do
    match ← node.textAt? "s" with
    | "started" => return .report .started
    | "finished" => return .report .finished
    | "range" => return .report (.range (← node.int64At? "min") (← node.int64At? "max"))
    | "value" => return .report (.value (← node.int64At? "v"))
    | "text" => return .report (.text (← node.textAt? "t"))
    | "add" => return .add (← node.int64At? "n") (node.holds "return")
    | "log" => return .note (← node.textAt? "t")
    | "status" => return .noteStatus (← node.natAt? "ref")
    | "yield" => return .pause
    | "gate" => return .gate
    | "stash" => return .keepReporter
    | "late" => return .reportLate (← node.natAt? "i") (← eventAt? node)
    | "call" => return .call (← callOf? fuel (node.field "do"))
    | "fail" => return .fail (← EngineError.ofJson? (node.field "error"))
    | "panic" => return .breakOff (← breakOffOf? node)
    | "return" => return .answer (node.field "v")
    | _ => none

/-- The instructions of a run. -/
def runOf? : Nat → Json → Option (List (Instruction Call))
  | 0, _ => none
  | fuel + 1, node => do (← node.items?).mapM (instructionOf? fuel)

/-- The runs of one side of an action. -/
def runsOf? : Nat → Json → Option (Runs Call)
  | 0, _ => none
  | fuel + 1, node => do (← node.items?).mapM (runOf? fuel)

/-- The sheet of a command. -/
def sheetOf? : Nat → Json → Option (Sheet Call)
  | 0, _ => none
  | fuel + 1, node => do
    let (scope, areas) ←
      match node.field "scope" with
      | .text "All" => some (.all, none)
      | .text names => some (Scope.all, some names)
      | scope => (scopeOf? scope).map fun scope => (scope, none)
    return {
      text := ← node.textAt? "text"
      kind := if node.textAt? "kind" = some "Query" then .query else .mutating
      scope, areas
      stack := ← stackAt? node "stack"
      supply := ← supplyOf? node
      forward := ← node.optionalAt? "forward" (runsOf? fuel)
      backward := ← node.optionalAt? "reverse" (runsOf? fuel) }

def callOf? : Nat → Json → Option Call
  | 0, _ => none
  | fuel + 1, node => do
    let call ←
      match ← node.textAt? "do" with
      | "build" => (sheetOf? fuel (node.field "command")).map Call.build
      | "enqueue" =>
        match node.natAt? "ref" with
        | some command => some (.enqueueAgain command)
        | none => (sheetOf? fuel (node.field "command")).map Call.enqueue
      | "undo" => some (.undo none)
      | "redo" => some (.redo none)
      | "undo_in" => (node.textAt? "scope").map Call.undoIn
      | "redo_in" => (node.textAt? "scope").map Call.redoIn
      | "undo_filter" => (filterOf? node).map Call.undo
      | "redo_filter" => (filterOf? node).map Call.redo
      | "jump" => (node.optionalAt? "index" fun index => index.integer?.map Int.toNat).map Call.jump
      | "clear" => some .clear
      | "limit" => (node.natAt? "limit").map Call.setLimit
      | "stack" => (stackAt? node "id").map Call.activate
      | "route" => do some (Call.route (← scopeAt? node "scope") ⟨← node.textAt? "stack"⟩)
      | "queued" => (node.textAt? "scope").map Call.queuedIn
      | "queued_filter" => (scopeAt? node "scope").map Call.queued
      | "history" => some .history
      | "scopes" => some .scopeNames
      | "state" => some .overview
      | "status_of" => (node.natAt? "ref").map Call.statusOf
      | "info" => (node.natAt? "ref").map Call.describe
      | "debug" => some .inspect
      | "shutdown" => some .shutDown
      | _ => none
    return if node.holds "drop" then .unlisted call else call

end

/-- The sheet of a command. -/
def Sheet.ofJson? (node : Json) : Option (Sheet Call) := sheetOf? node.depth node

def Call.ofJson? (node : Json) : Option Call := callOf? node.depth node

mutual

def filledIn (mark value : String) : Json → Json
  | .text text => .text (text.replace mark value)
  | .array items => .array (itemsFilledIn mark value items)
  | .object members => .object (membersFilledIn mark value members)
  | node => node

/-- The items of an array with a text in place of a mark. -/
def itemsFilledIn (mark value : String) : List Json → List Json
  | [] => []
  | item :: rest => filledIn mark value item :: itemsFilledIn mark value rest

/-- The members of an object with a text in place of a mark. -/
def membersFilledIn (mark value : String) : List (String × Json) → List (String × Json)
  | [] => []
  | (name, member) :: rest => (name, filledIn mark value member) :: membersFilledIn mark value rest

end

/-- The calls of a pattern that is filled in with the numbers below a bound. -/
def repeated? (bound : Nat) (pattern : Json) : Option (List Call) :=
  (List.range bound).mapM fun number =>
    Call.ofJson? (filledIn "\x7bi\x7d" (toString number) pattern)

def Stage.Cue.ofJson? (node : Json) : Option Stage.Cue := do
  match ← node.textAt? "do" with
  | "release" => return .release
  | "late" => return .reportLate (← node.natAt? "i") (← eventAt? node)
  | "subscribe" => return .subscribe
  | "unsubscribe" => return .unsubscribe (← node.natAt? "sub")
  | "drain" => return .drain (← node.natAt? "sub")
  | "shutdown" => return .shutDown
  | "repeat" => return .callAll (← repeated? (← node.natAt? "times") (node.field "what"))
  | _ => return .call (← Call.ofJson? node)

end Retrace.Scenario
