import Retrace.Text.Digits

/-!
# Integers in decimal

Reading of unsigned and signed 64-bit numbers: at least one digit, an optional sign in front, no
other character, and a value that fits. Main statements: a number in decimal reads back as the number.
-/

namespace Retrace.Text

def dropPlus : List Char → List Char
  | '+' :: rest => rest
  | text => text

/-- The unsigned 64-bit number with the given value, which is at least zero and below 2 to the power
of 64. -/
def uint64OfInt? (value : Int) : Option UInt64 :=
  if 0 ≤ value ∧ value < 0x10000000000000000 then some (UInt64.ofNat value.toNat) else none

def unsigned64? (text : List Char) : Option UInt64 :=
  (number? 10 (dropPlus text)).bind fun value => uint64OfInt? value

/-- The signed 64-bit number with the given value, whose amount is below 2 to the power of 63, or that
power itself below zero. -/
def int64OfInt? (value : Int) : Option Int64 :=
  if -0x8000000000000000 ≤ value ∧ value < 0x8000000000000000 then some (Int64.ofInt value) else none

def signed64? : List Char → Option Int64
  | '-' :: digits => (number? 10 digits).bind fun value => int64OfInt? (-value)
  | text => (number? 10 (dropPlus text)).bind fun value => int64OfInt? value

/-- A number in decimal with its sign always written. -/
def withSign (value : Int) : String :=
  if 0 ≤ value then "+" ++ toString value else toString value

theorem uint64OfInt?_toNat (value : UInt64) : uint64OfInt? value.toNat = some value := by
  have hbound := value.toNat_lt
  rw [uint64OfInt?, if_pos (by omega), Int.toNat_natCast, UInt64.ofNat_toNat]

theorem int64OfInt?_toInt (value : Int64) : int64OfInt? value.toInt = some value := by
  rw [int64OfInt?, if_pos ⟨Int64.le_toInt value, Int64.toInt_lt value⟩, Int64.ofInt_toInt]

theorem not_mem_toDigits {character : Char} (hother : character.isDigit = false) (number : Nat) :
    character ∉ Nat.toDigits 10 number := by
  intro hmem
  rw [Nat.isDigit_of_mem_toDigits (by decide) (by decide) hmem] at hother
  cases hother

theorem dropPlus_toDigits (number : Nat) :
    dropPlus (Nat.toDigits 10 number) = Nat.toDigits 10 number := by
  unfold dropPlus
  split
  · next hplus => exact absurd (hplus ▸ List.mem_cons_self) (not_mem_toDigits (by decide) number)
  · rfl

theorem number?_toDigits (number : Nat) : number? 10 (Nat.toDigits 10 number) = some number := by
  have hread := number?_padded (by decide : 1 < 10) (by decide) 0 number
  rwa [padded, Nat.zero_sub, List.replicate_zero, List.nil_append] at hread

theorem signed64?_toDigits (number : Nat) :
    signed64? (Nat.toDigits 10 number) = int64OfInt? number := by
  unfold signed64?
  split
  · next hminus => exact absurd (hminus ▸ List.mem_cons_self) (not_mem_toDigits (by decide) number)
  · rw [dropPlus_toDigits, number?_toDigits, Option.bind_some]

/-- An unsigned number in decimal reads back as the number. -/
theorem unsigned64?_toString (value : UInt64) :
    unsigned64? (toString value.toNat).toList = some value := by
  rw [unsigned64?, Nat.toString_eq_repr, Nat.toList_repr, dropPlus_toDigits, number?_toDigits,
    Option.bind_some, uint64OfInt?_toNat]

/-- A signed number in decimal reads back as the number. -/
theorem signed64?_toString (value : Int64) :
    signed64? (toString value.toInt).toList = some value := by
  rw [Int.toString_eq_repr, Int.repr_eq_if]
  split
  · next hsign =>
      rw [Nat.toList_repr, signed64?_toDigits, Int.toNat_of_nonneg hsign, int64OfInt?_toInt]
  · next hsign =>
      rw [String.toList_append, Nat.toList_repr]
      show (number? 10 (Nat.toDigits 10 (-value.toInt).toNat)).bind _ = _
      rw [number?_toDigits, Option.bind_some, Int.toNat_of_nonneg (by omega), Int.neg_neg,
        int64OfInt?_toInt]

theorem toInt_of_int64OfInt? {value : Int} {word : Int64} (hword : int64OfInt? value = some word) :
    word.toInt = value := by
  unfold int64OfInt? at hword
  split at hword
  · next hbounds =>
      obtain rfl := Option.some.inj hword
      exact Int64.toInt_ofInt_of_le hbounds.1 hbounds.2
  · cases hword

end Retrace.Text
