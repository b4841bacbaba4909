import Retrace.Json.Printer
import Retrace.Proofs.Notation

/-!
# Printed JSON

What the printer writes for a value keeps to the grammar, so that it reads back as the value. A value can be printed
unless it has an integer that fits no word, or another number that is none.
-/

namespace Retrace.Json

variable {gap : List Char} {character : Char} {loose : Bool} {passed : String → Bool}

/-! ### Numbers -/

private theorem leading_toDigits (number : Nat) :
    (Nat.toDigits 10 number).head? = some '0' → Nat.toDigits 10 number = ['0'] := by
  induction number using Nat.strongRecOn with
  | ind number ih =>
    intro hzero
    by_cases hsmall : number < 10
    · rw [Nat.toDigits_of_lt_base hsmall] at hzero ⊢
      rw [Option.some.inj hzero]
    · have hle : 10 ≤ number := Nat.le_of_not_lt hsmall
      rw [Nat.toDigits_of_base_le (by decide) hle, List.head?_append_of_ne_nil _ Nat.toDigits_ne_nil] at hzero
      -- the digits in front of the last would be those of zero
      have hnone := congrArg (Nat.ofDigitChars 10 · 0) (ih (number / 10) (by omega) hzero)
      simp only [Nat.ofDigitChars_ten_toDigits] at hnone
      have hpositive : 0 < number / 10 := by omega
      rw [hnone] at hpositive
      exact absurd hpositive (by decide)

private theorem digits_toDigits (number : Nat) : Digits (Nat.toDigits 10 number) where
  some := Nat.toDigits_ne_nil
  all := fun _ hmem => Nat.isDigit_of_mem_toDigits (by decide) (by decide) hmem

theorem numeral_toDigits {sign : List Char} (hsign : sign = [] ∨ sign = ['-']) (number : Nat) :
    Numeral sign (Nat.toDigits 10 number) [] [] where
  hsign := hsign
  hdigits := digits_toDigits number
  hleading := leading_toDigits number
  hfraction := .none
  hexponent := .none

private theorem writes_integer {value : Int} (hfits : fitsWord value = true) :
    Writes loose passed (integer value) (toString value).toList := by
  rw [Int.toString_eq_repr, Int.repr_eq_if]
  split
  · next hnonneg =>
    have hvalue : numberOf [] (Nat.toDigits 10 value.toNat) [] [] = integer value := by
      have hsigned : signed [] (Nat.toDigits 10 value.toNat) = value := by
        rw [signed, if_pos List.isEmpty_nil, Nat.ofDigitChars_ten_toDigits, Int.toNat_of_nonneg hnonneg]
      rw [numberOf, hsigned, hfits]
      simp
    have hwrites := @Writes.ofNumber loose passed _ _ _ _ (numeral_toDigits (.inl rfl) value.toNat)
    rw [hvalue, List.nil_append, List.append_nil, List.append_nil] at hwrites
    rw [Nat.toList_repr]
    exact hwrites
  · next hnegative =>
    have hvalue : numberOf ['-'] (Nat.toDigits 10 (-value).toNat) [] [] = integer value := by
      have hsigned : signed ['-'] (Nat.toDigits 10 (-value).toNat) = value := by
        rw [signed, if_neg (by decide), Nat.ofDigitChars_ten_toDigits, Int.toNat_of_nonneg (by omega), Int.neg_neg]
      rw [numberOf, hsigned, hfits]
      have hnonzero : value ≠ 0 := by omega
      simp [hnonzero]
    have hwrites := @Writes.ofNumber loose passed _ _ _ _ (numeral_toDigits (.inr rfl) (-value).toNat)
    rw [hvalue, List.append_nil, List.append_nil] at hwrites
    rw [String.toList_append, Nat.toList_repr]
    exact hwrites

theorem toList_of_decimal {sign digits fraction exponent : List Char} {literal : String}
    (hvalue : numberOf sign digits fraction exponent = decimal literal) :
    literal.toList = sign ++ digits ++ fraction ++ exponent := by
  unfold numberOf at hvalue
  split at hvalue
  · cases hvalue
  · rw [← Json.decimal.inj hvalue, String.toList_ofList]

/-! ### Texts -/

theorem standsAlone_toNat (loose : Bool) (character : Char) : standsAlone loose character.toNat = true := by
  have hvalid := character.valid
  simp only [UInt32.isValidChar, Nat.isValidChar] at hvalid
  have hcode : character.val.toNat = character.toNat := rfl
  rw [hcode] at hvalid
  have hwhole : (opensPair character.toNat || closesPair character.toNat) = false := by
    simp only [opensPair, closesPair, Bool.or_eq_false_iff, Bool.and_eq_false_iff, decide_eq_false_iff_not]
    omega
  rw [standsAlone, hwhole]
  exact Bool.or_true loose

theorem spells_controlEscape (hcontrol : character.toNat < 0x20) : Spells loose character (controlEscape character) := by
  have hall : ∀ code : Fin 0x20, (Text.padded 16 4 code.val).length = 4 := by decide
  have hlength := hall ⟨character.toNat, hcontrol⟩
  have hread := Text.number?_padded (by decide : 1 < 16) (by decide) 4 character.toNat
  unfold controlEscape
  generalize Text.padded 16 4 character.toNat = digits at hlength hread
  match digits, hlength with
  | [first, second, third, fourth], _ =>
    exact .code first second third fourth character.toNat hread (standsAlone_toNat loose character)
      (Char.ofNat_toNat character)

private theorem spells_writtenChar (character : Char) : Spells loose character (writtenChar character) := by
  unfold writtenChar
  split
  · exact .short '"' rfl
  · exact .short '\\' rfl
  · exact .short 'n' rfl
  · exact .short 'r' rfl
  · exact .short 't' rfl
  · exact .short 'b' rfl
  · exact .short 'f' rfl
  · next hquote hescape _ _ _ _ _ =>
    split_ifs with hcontrol
    · exact spells_controlEscape hcontrol
    · exact .plain (Nat.le_of_not_lt hcontrol) hquote hescape

theorem writesText_writtenText (value : String) : WritesText loose value (writtenText value) := by
  refine .quoted _ ?_
  generalize value.toList = characters
  induction characters with
  | nil => exact .nil
  | cons character characters ih => exact .cons (spells_writtenChar character) ih

/-! ### Values -/

/-- A value that can be printed: its integers fit a word, and its other numbers are numbers. -/
inductive Printable : Json → Prop where
  | ofNull : Printable null
  | ofBool (value : Bool) : Printable (bool value)
  | ofInteger (value : Int) (hfits : fitsWord value = true) : Printable (integer value)
  | ofDecimal {sign digits fraction exponent : List Char} {literal : String}
      (hnumeral : Numeral sign digits fraction exponent)
      (hvalue : numberOf sign digits fraction exponent = decimal literal) : Printable (decimal literal)
  | ofText (value : String) : Printable (text value)
  | ofItems (items : List Json) (hitems : ∀ item ∈ items, Printable item) : Printable (array items)
  | ofMembers (members : List (String × Json)) (hmembers : ∀ entry ∈ members, Printable entry.2) :
      Printable (object members)

theorem gap_newLine (depth : Nat) : Gap (newLine depth) := by
  intro character hmem
  rcases List.mem_cons.mp hmem with rfl | hblank
  · rfl
  · rw [List.eq_of_mem_replicate hblank]
    rfl

section Indented

variable {items : List Json} {members : List (String × Json)}

private theorem writesItems_indented
    (hitems : ∀ item ∈ items, ∀ depth, Writes loose (fun _ => loose) item (indentedChars depth item))
    (hsome : items ≠ []) (depth : Nat) (hgap : Gap gap) :
    WritesItems loose items (indentedItems depth items ++ gap) := by
  induction items with
  | nil => contradiction
  | cons item rest ih =>
    obtain ⟨hitem, hrest⟩ := List.forall_mem_cons.mp hitems
    cases rest with
    | nil => exact .last (.spaced (gap_newLine depth) (hitem depth) hgap)
    | cons next rest =>
      have hspaced := WritesSpaced.spaced (gap_newLine depth) (hitem depth) gap_nil
      rw [List.append_nil] at hspaced
      rw [indentedItems, List.append_assoc, List.cons_append]
      exact .more hspaced (ih hrest nofun)

private theorem writesMembers_indented
    (hmembers : ∀ entry ∈ members, ∀ loose passed depth, Writes loose passed entry.2 (indentedChars depth entry.2))
    (hsome : members ≠ []) (depth : Nat) (hgap : Gap gap) :
    WritesMembers loose passed members (indentedMembers depth members ++ gap) := by
  have hmember : ∀ name value, (∀ loose passed depth, Writes loose passed value (indentedChars depth value)) →
      ∀ {after}, Gap after → WritesMember loose passed (name, value)
        (newLine depth ++ writtenText name ++ [':', ' '] ++ indentedChars depth value ++ after) := by
    intro name value hvalue after hafter
    have hblank : Gap [' '] := fun _ hmem => by rw [List.mem_singleton.mp hmem]; rfl
    have hname := @writesText_writtenText loose name
    have hspaced := WritesSpaced.spaced hblank (hvalue (passed name) (fun _ => passed name) depth) hafter
    have hentry := WritesMember.named (gap_newLine depth) hname gap_nil hspaced
    simpa using hentry
  induction members with
  | nil => contradiction
  | cons entry rest ih =>
    obtain ⟨hentry, hrest⟩ := List.forall_mem_cons.mp hmembers
    cases rest with
    | nil => exact .last (hmember entry.1 entry.2 hentry hgap)
    | cons next rest =>
      have hfirst := hmember entry.1 entry.2 hentry gap_nil
      rw [List.append_nil] at hfirst
      rw [indentedMembers, List.append_assoc, List.cons_append]
      exact .more hfirst (ih hrest nofun)

end Indented

/-- **The printer keeps to the grammar.** -/
theorem Printable.writes_indented {value : Json} (hprintable : Printable value) (loose : Bool) (passed : String → Bool)
    (depth : Nat) : Writes loose passed value (indentedChars depth value) := by
  induction hprintable generalizing loose passed depth with
  | ofNull => exact .ofNull
  | ofBool value => cases value <;> constructor
  | ofInteger value hfits => exact writes_integer hfits
  | ofDecimal hnumeral hvalue =>
    have hwrites := @Writes.ofNumber loose passed _ _ _ _ hnumeral
    rw [hvalue, ← toList_of_decimal hvalue] at hwrites
    exact hwrites
  | ofText value => exact .ofText (writesText_writtenText value)
  | ofItems items hitems ih =>
    cases items with
    | nil => exact .ofNoItems gap_nil
    | cons item rest =>
      have hitems := fun item hmem => ih item hmem loose (fun _ => loose)
      exact .ofItems (writesItems_indented hitems nofun (depth + 1) (gap_newLine depth))
  | ofMembers members hmembers ih =>
    cases members with
    | nil => exact .ofNoMembers gap_nil
    | cons entry rest => exact .ofMembers (writesMembers_indented ih nofun (depth + 1) (gap_newLine depth))

theorem Printable.document_indented {value : Json} (hprintable : Printable value) (passed : String → Bool) :
    Document passed value value.indented := by
  have hspaced := WritesSpaced.spaced gap_nil (hprintable.writes_indented false passed 0) gap_nil
  rw [List.nil_append, List.append_nil] at hspaced
  rw [Document, indented, String.toList_ofList]
  exact hspaced

end Retrace.Json
