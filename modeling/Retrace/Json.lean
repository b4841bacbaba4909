/-!
# JSON values

The data model of JSON documents. Members of an object stand in the order in which they were written,
and a name may occur more than once; whoever reads an object decides what that means.
-/

namespace Retrace

/-- A JSON value. An integer is a number written without fraction and exponent that fits a signed or an
unsigned 64-bit word; every other number is kept as it was written. -/
inductive Json where
  | null
  | bool (value : Bool)
  | integer (value : Int)
  | decimal (literal : String)
  | text (value : String)
  | array (items : List Json)
  | object (members : List (String × Json))
  deriving Inhabited

namespace Json

def member? (name : String) : Json → Option Json
  | object members => members.lookup name
  | _ => none

/-- The items of an array. -/
def items? : Json → Option (List Json)
  | array items => some items
  | _ => none

/-- The characters of a text. -/
def text? : Json → Option String
  | text value => some value
  | _ => none

/-- The value of an integer. -/
def integer? : Json → Option Int
  | integer value => some value
  | _ => none

/-- The value of a truth value. -/
def bool? : Json → Option Bool
  | bool value => some value
  | _ => none

/-! ### Equality -/

mutual

/-- Whether two values are the same. -/
def same : Json → Json → Bool
  | null, null => true
  | bool left, bool right => left == right
  | integer left, integer right => left == right
  | decimal left, decimal right => left == right
  | text left, text right => left == right
  | array left, array right => sameItems left right
  | object left, object right => sameMembers left right
  | _, _ => false

/-- Whether two lists of values are the same. -/
def sameItems : List Json → List Json → Bool
  | [], [] => true
  | left :: lefts, right :: rights => same left right && sameItems lefts rights
  | _, _ => false

/-- Whether two lists of members are the same. -/
def sameMembers : List (String × Json) → List (String × Json) → Bool
  | [], [] => true
  | (name, left) :: lefts, (other, right) :: rights =>
    name == other && same left right && sameMembers lefts rights
  | _, _ => false

end

mutual

theorem same_iff : ∀ left right : Json, same left right = true ↔ left = right
  | null, right => by cases right <;> simp [same]
  | bool left, right => by cases right <;> simp [same]
  | integer left, right => by cases right <;> simp [same]
  | decimal left, right => by cases right <;> simp [same]
  | text left, right => by cases right <;> simp [same]
  | array left, right => by
    cases right with
    | array right => simp [same, sameItems_iff left right]
    | _ => simp [same]
  | object left, right => by
    cases right with
    | object right => simp [same, sameMembers_iff left right]
    | _ => simp [same]

theorem sameItems_iff : ∀ left right : List Json, sameItems left right = true ↔ left = right
  | [], right => by cases right <;> simp [sameItems]
  | left :: lefts, right => by
    cases right with
    | nil => simp [sameItems]
    | cons right rights => simp [sameItems, same_iff left right, sameItems_iff lefts rights]

theorem sameMembers_iff :
    ∀ left right : List (String × Json), sameMembers left right = true ↔ left = right
  | [], right => by cases right <;> simp [sameMembers]
  | (name, left) :: lefts, right => by
    cases right with
    | nil => simp [sameMembers]
    | cons right rights =>
      simp [sameMembers, same_iff left right.2, sameMembers_iff lefts rights, Prod.ext_iff]

end

instance : DecidableEq Json := fun left right => decidable_of_iff _ (same_iff left right)

end Json

end Retrace
