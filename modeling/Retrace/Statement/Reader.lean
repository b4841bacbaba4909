import Retrace.Statement
import Retrace.Text.Blank
import Retrace.Text.Integer
import Retrace.Text.Lowercase

/-!
# Reading scripts

A line is cut at its first number sign and at its blanks; an ampersand at its end puts it into the
background. The first word is the keyword, in any case. Statements without fields pass over further
words.
-/

namespace Retrace

namespace Statement

def number (word : String) : Except StatementError Int64 :=
  match Text.signed64? word.toList with
  | some value => .ok value
  | none => .error (.badNumber word)

def isNone (word : String) : Bool := word.toList.map Char.toLower == "none".toList

def index (word : String) : Except StatementError (Option UInt64) :=
  if isNone word then .ok none
  else
    match Text.unsigned64? word.toList with
    | some value => .ok (some value)
    | none => .error (.badIndex word)

def bound (word : String) : Except StatementError UInt64 :=
  match Text.unsigned64? word.toList with
  | some value => .ok value
  | none => .error (.badLimit word)

def joined? (words : List String) : Option String :=
  if words.isEmpty then none else some (" ".intercalate words)

def ofWords (keyword : String) (fields : List String) : Except StatementError Statement :=
  let wrong (expected : Nat) : Except StatementError Statement :=
    .error (.wrongCount keyword expected fields.length)
  match keyword with
  | "set" =>
    match fields with
    | [scope, account, word] => (number word).map (set scope account)
    | _ => wrong 3
  | "add" =>
    match fields with
    | [scope, account, word] => (number word).map (add scope account)
    | _ => wrong 3
  | "get" =>
    match fields with
    | [scope, account] => .ok (get scope account)
    | _ => wrong 2
  | "undo" => .ok (undo (joined? fields))
  | "redo" => .ok (redo (joined? fields))
  | "jump" =>
    match fields with
    | [word] => (index word).map jump
    | _ => wrong 1
  | "stack" => .ok (stack fields.head?)
  | "limit" =>
    match fields with
    | [word] => (bound word).map limit
    | _ => wrong 1
  | "history" => .ok history
  | "queued" => .ok (queued (joined? fields))
  | "wait" => .ok wait
  | "balances" => .ok balances
  | "clear" => .ok clear
  | "scopes" => .ok scopes
  | _ => .error (.unknownKeyword keyword)

end Statement

namespace ScriptLine

/-- What a line says, without its comment and the blanks at its ends. -/
def content (raw : List Char) : List Char := Text.trim (raw.takeWhile (· != '#'))

def splitMark (text : List Char) : List Char × Bool :=
  if text.getLast? = some '&' then (Text.trimEnd text.dropLast, true) else (text, false)

def keywordAndFields (text : List Char) : String × List String :=
  match Text.words text with
  | [] => ("", [])
  | keyword :: fields => (String.ofList (Text.lowercase keyword), fields.map String.ofList)

def parse (number : Nat) (raw : List Char) : Except ScriptError (Option ScriptLine) :=
  let text := content raw
  if text.isEmpty then .ok none
  else
    let (text, inBackground) := splitMark text
    let (keyword, fields) := keywordAndFields text
    match Statement.ofWords keyword fields with
    | .ok statement => .ok (some { number, statement, inBackground })
    | .error problem => .error { line := number, problem }

end ScriptLine

namespace Script

def parseLines (number : Nat) : List (List Char) → Except ScriptError (List ScriptLine)
  | [] => .ok []
  | raw :: rest =>
    match ScriptLine.parse number raw with
    | .error error => .error error
    | .ok line => (parseLines (number + 1) rest).map (line.toList ++ ·)

/-- The statements of a script; its first line has the number one. -/
def parse (text : String) : Except ScriptError (List ScriptLine) :=
  parseLines 1 (Text.lines text.toList)

end Script

end Retrace
