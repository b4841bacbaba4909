/-!
# Digits of a base

Numbers in a base up to sixteen: letters in any case stand for the digits after nine. Main statement:
the digits of a number, with zeros in front, read back as the number.
-/

namespace Retrace.Text

def digitValue? (character : Char) : Option Nat :=
  if character.isDigit then some (character.toNat - '0'.toNat)
  else if 'a' ≤ character ∧ character ≤ 'f' then some (character.toNat - 'a'.toNat + 10)
  else if 'A' ≤ character ∧ character ≤ 'F' then some (character.toNat - 'A'.toNat + 10)
  else none

def digit? (base : Nat) (character : Char) : Option Nat :=
  (digitValue? character).filter fun value => decide (value < base)

def numberFrom? (base number : Nat) : List Char → Option Nat
  | [] => some number
  | character :: rest =>
    (digit? base character).bind fun value => numberFrom? base (base * number + value) rest

/-- The number that a non-empty run of digits of a base writes. -/
def number? (base : Nat) (digits : List Char) : Option Nat :=
  if digits.isEmpty then none else numberFrom? base 0 digits

def padded (base width number : Nat) : List Char :=
  let digits := Nat.toDigits base number
  List.replicate (width - digits.length) '0' ++ digits

theorem digit?_digitChar {base value : Nat} (hbase : base ≤ 16) (hvalue : value < base) :
    digit? base value.digitChar = some value := by
  have hall : ∀ value : Fin 16, digitValue? value.val.digitChar = some value.val := by decide
  have hread := hall ⟨value, Nat.lt_of_lt_of_le hvalue hbase⟩
  simp [digit?, hread, hvalue]

theorem numberFrom?_append (base number : Nat) (digits : List Char) (last : Char) :
    numberFrom? base number (digits ++ [last]) =
      (numberFrom? base number digits).bind fun number =>
        (digit? base last).map fun value => base * number + value := by
  induction digits generalizing number with
  | nil => cases hdigit : digit? base last <;> simp [numberFrom?, hdigit]
  | cons character rest ih =>
    cases hdigit : digit? base character <;> simp [numberFrom?, hdigit, ih]

theorem numberFrom?_toDigits {base : Nat} (hlow : 1 < base) (hhigh : base ≤ 16) (number : Nat) :
    numberFrom? base 0 (Nat.toDigits base number) = some number := by
  induction number using Nat.strongRecOn with
  | ind number ih =>
    by_cases hsmall : number < base
    · rw [Nat.toDigits_of_lt_base hsmall, numberFrom?, digit?_digitChar hhigh hsmall]
      simp [numberFrom?]
    · have hle : base ≤ number := Nat.le_of_not_lt hsmall
      have hless : number / base < number := Nat.div_lt_self (by omega) hlow
      rw [Nat.toDigits_of_base_le hlow hle, numberFrom?_append, ih _ hless,
        digit?_digitChar hhigh (Nat.mod_lt _ (by omega))]
      simp [Nat.div_add_mod]

theorem numberFrom?_zeros {base : Nat} (hpositive : 0 < base) (count : Nat) (digits : List Char) :
    numberFrom? base 0 (List.replicate count '0' ++ digits) = numberFrom? base 0 digits := by
  have hzero : digit? base '0' = some 0 := by simp [digit?, digitValue?, hpositive]
  induction count with
  | zero => rfl
  | succ count ih => simpa [List.replicate_succ, numberFrom?, hzero] using ih

/-- The digits of a number, with zeros in front, read back as the number. -/
theorem number?_padded {base : Nat} (hlow : 1 < base) (hhigh : base ≤ 16) (width number : Nat) :
    number? base (padded base width number) = some number := by
  have hsome : (padded base width number).isEmpty = false := by
    simp [padded, Nat.toDigits_ne_nil]
  rw [number?, hsome, if_neg (by simp), padded, numberFrom?_zeros (by omega),
    numberFrom?_toDigits hlow hhigh]

end Retrace.Text
