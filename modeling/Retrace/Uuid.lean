import Retrace.Text.Digits

/-!
# Universally unique identifiers

A number of 128 bits. It is read from 32 hexadecimal digits, or from digits in groups of eight, four,
four, four and twelve, which may stand in braces or after the name of the namespace of such numbers; it
is written in groups, in lower case.
-/

namespace Retrace

structure Uuid where
  bits : BitVec 128
  deriving DecidableEq, Inhabited

namespace Uuid

def ofDigits? (digits : List Char) : Option Uuid :=
  if digits.length = 32 then
    (Text.number? 16 digits).map fun number => ⟨BitVec.ofNat 128 number⟩
  else none

def groupSizes : List Nat := [8, 4, 4, 4, 12]

def ungrouped? (text : List Char) : Option (List Char) :=
  let groups := text.splitOnP (· == '-')
  if groups.map List.length = groupSizes then some groups.flatten else none

def bare (text : List Char) : List Char :=
  let name := "urn:uuid:".toList
  if name.isPrefixOf text then text.drop name.length
  else if text.head? = some '\x7b' ∧ text.getLast? = some '\x7d' then (text.drop 1).dropLast
  else text

def ofText? (text : String) : Option Uuid :=
  let characters := text.toList
  match ofDigits? characters with
  | some id => some id
  | none => (ungrouped? (bare characters)).bind ofDigits?

def digits (id : Uuid) : List Char := Text.padded 16 32 id.bits.toNat

def cut : List Nat → List Char → List (List Char)
  | [], _ => []
  | size :: sizes, text => text.take size :: cut sizes (text.drop size)

/-- The text of an identifier. -/
def text (id : Uuid) : String := String.ofList (['-'].intercalate (cut groupSizes id.digits))

end Uuid

end Retrace
