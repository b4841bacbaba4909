import Retrace.Error

/-!
# Scopes

A scope says which part of an application a command belongs to: everything, or a set of numbered
areas. A filter selects a command when the two have an area in common.
-/

namespace Retrace

/-- Everything, or the areas whose bits are set. -/
inductive Scope where
  | all
  | areas (bits : BitVec 32)
  deriving DecidableEq, Inhabited

namespace Scope

def areaLimit : Nat := 28

def everyArea : BitVec 32 := 0x0FFFFFFF#32

def wildcardName : String := "all"

def empty : Scope := areas 0#32

/-- How many positions there are up to this one, by a checked addition: nothing after the last machine word. -/
def countUpTo? (position : UInt64) : Option UInt64 :=
  if position.toNat + 1 < UInt64.size then some (position + 1) else none

/-- The scope of the area at a position. A position without an area is refused with a count; where the count overflows
there is no answer at all. -/
def flag (position : UInt64) : Option (Except EngineError Scope) :=
  if position.toNat < areaLimit then some (.ok (areas (1#32 <<< position.toNat)))
  else (countUpTo? position).map fun count => .error (.tooManyScopes count.toNat areaLimit)

/-- The scope of the areas whose bits are set; every area together is everything. -/
def ofBits (bits : BitVec 32) : Scope :=
  if bits &&& everyArea = everyArea then all else areas (bits &&& everyArea)

def bits : Scope → BitVec 32
  | all => everyArea
  | areas bits => bits

/-- Whether a scope is everything. -/
def isAll : Scope → Bool
  | all => true
  | areas _ => false

/-- Whether a scope has no area. -/
def isEmpty : Scope → Bool
  | all => false
  | areas bits => bits == 0#32

/-- The scope of the areas of two scopes. -/
def union : Scope → Scope → Scope
  | areas left, areas right => areas (left ||| right)
  | _, _ => all

instance : OrOp Scope := ⟨union⟩

def selects : Scope → Scope → Bool
  | areas filter, areas scope => filter &&& scope != 0#32
  | _, _ => true

/-- A number in hexadecimal, with small digits. -/
def hexadecimal (number : Nat) : String := "0x" ++ String.ofList (Nat.toDigits 16 number)

def display : Scope → String
  | all => wildcardName
  | areas bits => hexadecimal bits.toNat

@[simp] theorem union_all (scope : Scope) : scope.union all = all := by cases scope <;> rfl

@[simp] theorem all_union (scope : Scope) : all.union scope = all := by cases scope <;> rfl

@[simp] theorem areas_union_areas (left right : BitVec 32) :
    (areas left).union (areas right) = areas (left ||| right) := rfl

@[simp] theorem selects_all (scope : Scope) : scope.selects all = true := by cases scope <;> rfl

@[simp] theorem all_selects (scope : Scope) : all.selects scope = true := by cases scope <;> rfl

@[simp] theorem areas_selects_areas (filter scope : BitVec 32) :
    (areas filter).selects (areas scope) = (filter &&& scope != 0#32) := rfl

theorem flag_eq_ok_iff {position : UInt64} {scope : Scope} :
    flag position = some (.ok scope) ↔ position.toNat < areaLimit ∧ scope = areas (1#32 <<< position.toNat) := by
  by_cases harea : position.toNat < areaLimit
  · rw [flag, if_pos harea, and_iff_right harea, Option.some.injEq, Except.ok.injEq, eq_comm]
  · simp [flag, harea]

theorem selects_comm (left right : Scope) : left.selects right = right.selects left := by
  cases left <;> cases right <;> simp [BitVec.and_comm]

end Scope

end Retrace
