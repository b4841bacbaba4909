/-!
# Statements

The language of scripts: one statement a line, submitted in the foreground or in the background.
-/

namespace Retrace

/-- A statement. Scopes are named by a text that is looked up when the statement runs. -/
inductive Statement where
  | set (scope account : String) (value : Int64)
  | add (scope account : String) (delta : Int64)
  | get (scope account : String)
  | undo (names : Option String)
  | redo (names : Option String)
  | jump (index : Option UInt64)
  | stack (id : Option String)
  | limit (count : UInt64)
  | history
  | queued (names : Option String)
  | wait
  | balances
  | clear
  | scopes
  deriving DecidableEq, Inhabited

/-- A statement with the number of its line; whoever submits it in the background does not wait for
it. -/
structure ScriptLine where
  number : Nat
  statement : Statement
  inBackground : Bool
  deriving DecidableEq, Inhabited

/-- Why a line holds no statement. -/
inductive StatementError where
  | wrongCount (keyword : String) (expected given : Nat)
  | badNumber (word : String)
  | badIndex (word : String)
  | badLimit (word : String)
  | unknownKeyword (keyword : String)
  deriving DecidableEq, Inhabited

namespace StatementError

def message : StatementError → String
  | wrongCount keyword expected given => s!"'{keyword}' takes {expected} argument(s), got {given}"
  | badNumber word => s!"invalid number '{word}'"
  | badIndex word => s!"invalid index '{word}'"
  | badLimit word => s!"invalid limit '{word}'"
  | unknownKeyword keyword => s!"unknown command '{keyword}'"

end StatementError

/-- An error with the number of the line where it stands. -/
structure ScriptError where
  line : Nat
  problem : StatementError
  deriving DecidableEq, Inhabited

namespace Statement

def words : Statement → List String
  | set scope account value => ["set", scope, account, toString value.toInt]
  | add scope account delta => ["add", scope, account, toString delta.toInt]
  | get scope account => ["get", scope, account]
  | undo names => "undo" :: names.toList
  | redo names => "redo" :: names.toList
  | jump none => ["jump", "none"]
  | jump (some index) => ["jump", toString index.toNat]
  | stack id => "stack" :: id.toList
  | limit count => ["limit", toString count.toNat]
  | history => ["history"]
  | queued names => "queued" :: names.toList
  | wait => ["wait"]
  | balances => ["balances"]
  | clear => ["clear"]
  | scopes => ["scopes"]

end Statement

namespace ScriptLine

/-- The text of a line. -/
def text (line : ScriptLine) : String :=
  let written := " ".intercalate line.statement.words
  if line.inBackground then written ++ " &" else written

end ScriptLine

end Retrace
