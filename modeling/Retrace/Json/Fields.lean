import Retrace.Json
import Retrace.Record
import Retrace.Text.Integer

/-!
# Typed values in JSON

How words, lists, records and alternatives stand in a JSON document. A record is an object, or an array
of its fields in their order; an alternative is the text of its name, or an object with that name and
what belongs to it.
-/

namespace Retrace.Json

/-- The unsigned 64-bit number of an integer that fits. -/
def word? (value : Json) : Option UInt64 := value.integer?.bind Text.uint64OfInt?

/-- The signed 64-bit number of an integer that fits. -/
def int64? (value : Json) : Option Int64 := value.integer?.bind Text.int64OfInt?

def members? : Json → Option (List (String × Json))
  | object members => some members
  | _ => none

/-- The fields of a record whose fields have the given names. -/
def fields? (names : List String) : Json → Option (List (String × Json))
  | object members => some members
  | array items => if items.length ≤ names.length then some (names.zip items) else none
  | _ => none

/-- The name and the content of an alternative. -/
def variant? : Json → Option (String × Option Json)
  | text name => some (name, none)
  | object [(name, content)] => some (name, some content)
  | _ => none

/-- The name of an alternative without content. -/
def bareVariant? (value : Json) : Option String :=
  match value.variant? with
  | some (name, none) => some name
  | some (name, some null) => some name
  | _ => none

/-! ### Members of objects -/

def field (value : Json) (name : String) : Json := (value.member? name).getD null

def holds (value : Json) (name : String) : Bool := (value.field name).bool? == some true

def textAt? (value : Json) (name : String) : Option String := (value.field name).text?

/-- The number of a member; numbers below zero count as zero. -/
def natAt? (value : Json) (name : String) : Option Nat := (value.field name).integer?.map Int.toNat

/-- The signed 64-bit number of a member, wrapped if it does not fit. -/
def int64At? (value : Json) (name : String) : Option Int64 :=
  (value.field name).integer?.map Int64.ofInt

def optionalAt? {α : Type} (value : Json) (name : String) (read : Json → Option α) :
    Option (Option α) :=
  match value.field name with
  | null => some none
  | member => (read member).map some

/-! ### Depth -/

mutual

def depth : Json → Nat
  | array items => depthOfItems items + 1
  | object members => depthOfMembers members + 1
  | _ => 1

/-- The depth of the deepest item. -/
def depthOfItems : List Json → Nat
  | [] => 0
  | item :: rest => Nat.max (depth item) (depthOfItems rest)

/-- The depth of the deepest member. -/
def depthOfMembers : List (String × Json) → Nat
  | [] => 0
  | (_, value) :: rest => Nat.max (depth value) (depthOfMembers rest)

end

/-- The value of an unsigned 64-bit number. -/
def ofWord (value : UInt64) : Json := integer value.toNat

end Retrace.Json
