import Retrace.Event
import Retrace.Json.Fields
import Retrace.Uuid

/-!
# Stored values

The JSON form of scopes, stacks, events, kinds and statuses, and of a line of a history as it is kept
outside the engine: there a command has an identifier instead of a number.
-/

namespace Retrace

namespace Scope

def toJson : Scope → Json
  | all => .text "All"
  | areas bits => .object [("Set", .integer bits.toNat)]

/-- The 32 bits of an integer that fits. -/
def bitsOf? (value : Json) : Option (BitVec 32) :=
  value.integer?.bind fun number =>
    if 0 ≤ number ∧ number < 0x100000000 then some (BitVec.ofNat 32 number.toNat) else none

theorem bitsOf?_integer (bits : BitVec 32) : bitsOf? (.integer bits.toNat) = some bits := by
  have hbound : (0 : Int) ≤ bits.toNat ∧ (bits.toNat : Int) < 0x100000000 := by
    have := bits.isLt
    omega
  rw [bitsOf?, Json.integer?, Option.bind_some, if_pos hbound, Int.toNat_natCast, BitVec.ofNat_toNat,
    BitVec.setWidth_eq]

def ofJson? (value : Json) : Option Scope :=
  match value.variant? with
  | some ("Set", some bits) => (bitsOf? bits).map areas
  | _ => if value.bareVariant? = some "All" then some all else none

theorem ofJson?_toJson (scope : Scope) : ofJson? scope.toJson = some scope := by
  cases scope with
  | all => rfl
  | areas bits =>
    show (bitsOf? (.integer bits.toNat)).map areas = some (areas bits)
    rw [bitsOf?_integer]
    rfl

end Scope

namespace StackId

def toJson (stack : StackId) : Json := .text stack.name

def ofJson? (value : Json) : Option StackId := value.text?.map StackId.mk

theorem ofJson?_toJson (stack : StackId) : ofJson? stack.toJson = some stack := rfl

end StackId

namespace ProgressEvent

def toJson : ProgressEvent → Json
  | started => .text "Started"
  | finished => .text "Finished"
  | range minimum maximum =>
    .object [("Range", .object [("minimum", .integer minimum.toInt), ("maximum", .integer maximum.toInt)])]
  | value amount => .object [("Value", .integer amount.toInt)]
  | text message => .object [("Text", .text message)]

/-- The bounds that a stored form stands for. -/
def rangeOf? (content : Json) : Option ProgressEvent := do
  let fields ← content.fields? ["minimum", "maximum"]
  let minimum ← Record.required "minimum" Json.int64? fields
  let maximum ← Record.required "maximum" Json.int64? fields
  return range minimum maximum

def ofJson? (stored : Json) : Option ProgressEvent :=
  match stored.variant? with
  | some ("Range", some content) => rangeOf? content
  | some ("Value", some content) => content.int64?.map value
  | some ("Text", some content) => content.text?.map text
  | _ =>
    match stored.bareVariant? with
    | some "Started" => some started
    | some "Finished" => some finished
    | _ => none

theorem ofJson?_toJson (event : ProgressEvent) : ofJson? event.toJson = some event := by
  cases event with
  | started => rfl
  | finished => rfl
  | range minimum maximum =>
    simp [toJson, ofJson?, Json.variant?, rangeOf?, Json.fields?, Json.int64?, Json.integer?,
      Record.required, Record.under, Text.int64OfInt?_toInt]
  | value amount => simp [toJson, ofJson?, Json.variant?, Json.int64?, Json.integer?, Text.int64OfInt?_toInt]
  | text message => rfl

end ProgressEvent

def namedOf? {α : Type} (values : List α) (name : α → String) (stored : Json) : Option α :=
  stored.bareVariant?.bind fun given => values.find? fun value => name value == given

namespace Operation

def every : List Operation := [execute, undo, redo]

def toJson (operation : Operation) : Json := .text operation.name

def ofJson? (stored : Json) : Option Operation := namedOf? every name stored

theorem ofJson?_toJson (operation : Operation) : ofJson? operation.toJson = some operation := by
  cases operation <;> decide

end Operation

namespace CommandKind

def every : List CommandKind := [mutating, query]

def toJson (kind : CommandKind) : Json := .text kind.name

def ofJson? (stored : Json) : Option CommandKind := namedOf? every name stored

theorem ofJson?_toJson (kind : CommandKind) : ofJson? kind.toJson = some kind := by
  cases kind <;> decide

end CommandKind

namespace CommandStatus

def every : List CommandStatus := [pending, running, applied, reversed, failed]

def toJson (status : CommandStatus) : Json := .text status.name

def ofJson? (stored : Json) : Option CommandStatus := namedOf? every name stored

theorem ofJson?_toJson (status : CommandStatus) : ofJson? status.toJson = some status := by
  cases status <;> decide

end CommandStatus

structure StoredEntry where
  index : UInt64
  command : Uuid
  text : String
  scope : Scope
  isUndone : Bool
  deriving DecidableEq

namespace StoredEntry

def fieldNames : List String := ["index", "command_id", "text", "scope", "is_undone"]

def toJson (entry : StoredEntry) : Json :=
  .object
    [("index", .ofWord entry.index), ("command_id", .text entry.command.text),
      ("text", .text entry.text), ("scope", entry.scope.toJson), ("is_undone", .bool entry.isUndone)]

def ofJson? (stored : Json) : Option StoredEntry := do
  let fields ← stored.fields? fieldNames
  let index ← Record.required "index" Json.word? fields
  let command ← Record.required "command_id" (fun node => node.text?.bind Uuid.ofText?) fields
  let text ← Record.required "text" Json.text? fields
  let scope ← Record.required "scope" Scope.ofJson? fields
  let isUndone ← Record.required "is_undone" Json.bool? fields
  return { index, command, text, scope, isUndone }

end StoredEntry

end Retrace
