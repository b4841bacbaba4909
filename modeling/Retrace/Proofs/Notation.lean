import Mathlib.Data.List.DropRight
import Retrace.Json.Reader

/-!
# The notation of JSON

`Writes` is the grammar of JSON: which texts write a value, with any gaps between the tokens, any escapes in texts and
any form of numbers. What a reader passes over is written loosely: there half of a pair may stand by itself. Main
statement: the reader reads every such text as the value that it writes.
-/

namespace Retrace.Json

/-! ### The grammar -/

def Gap (text : List Char) : Prop := ∀ character ∈ text, isGap character = true

/-- How one character can stand in a text: as it is, after a backslash, by its code, or by the two codes of a pair. -/
inductive Spells (loose : Bool) (character : Char) : List Char → Prop where
  | plain (hprintable : 0x20 ≤ character.toNat) (hquote : character ≠ '"') (hescape : character ≠ '\\') :
      Spells loose character [character]
  | short (letter : Char) (hmeant : shortEscape? letter = some character) : Spells loose character ['\\', letter]
  | code (first second third fourth : Char) (unit : Nat) (hunit : unit? first second third fourth = some unit)
      (halone : standsAlone loose unit = true) (hcode : Char.ofNat unit = character) :
      Spells loose character ['\\', 'u', first, second, third, fourth]
  | pair (first second third fourth fifth sixth seventh eighth : Char) (high low : Nat)
      (hhigh : unit? first second third fourth = some high) (halone : standsAlone loose high = false)
      (hopens : opensPair high = true) (hlow : unit? fifth sixth seventh eighth = some low)
      (hcloses : closesPair low = true)
      (hcode : Char.ofNat (0x10000 + (high - 0xD800) * 0x400 + (low - 0xDC00)) = character) :
      Spells loose character ['\\', 'u', first, second, third, fourth, '\\', 'u', fifth, sixth, seventh, eighth]

/-- How the characters of a text can stand between its quotes. -/
inductive SpellsAll (loose : Bool) : List Char → List Char → Prop where
  | nil : SpellsAll loose [] []
  | cons {character : Char} {characters piece written : List Char} (hfirst : Spells loose character piece)
      (hrest : SpellsAll loose characters written) : SpellsAll loose (character :: characters) (piece ++ written)

inductive WritesText (loose : Bool) (value : String) : List Char → Prop where
  | quoted (inner : List Char) (hinner : SpellsAll loose value.toList inner) :
      WritesText loose value ('"' :: inner ++ ['"'])

structure Digits (digits : List Char) : Prop where
  some : digits ≠ []
  all : ∀ character ∈ digits, character.isDigit = true

inductive Fraction : List Char → Prop where
  | none : Fraction []
  | places (digits : List Char) (hdigits : Digits digits) : Fraction ('.' :: digits)

inductive Exponent : List Char → Prop where
  | none : Exponent []
  | power (letter : Char) (mark digits : List Char) (hletter : letter = 'e' ∨ letter = 'E')
      (hmark : mark = [] ∨ mark = ['+'] ∨ mark = ['-']) (hdigits : Digits digits) :
      Exponent (letter :: mark ++ digits)

structure Numeral (sign digits fraction exponent : List Char) : Prop where
  hsign : sign = [] ∨ sign = ['-']
  hdigits : Digits digits
  hleading : digits.head? = some '0' → digits = ['0']
  hfraction : Fraction fraction
  hexponent : Exponent exponent

mutual

/-- The texts that write a value, from its first character to its last. -/
inductive Writes : Bool → (String → Bool) → Json → List Char → Prop where
  | ofNull {loose : Bool} {passed : String → Bool} : Writes loose passed null "null".toList
  | ofTrue {loose : Bool} {passed : String → Bool} : Writes loose passed (bool true) "true".toList
  | ofFalse {loose : Bool} {passed : String → Bool} : Writes loose passed (bool false) "false".toList
  | ofNumber {loose : Bool} {passed : String → Bool} {sign digits fraction exponent : List Char}
      (hnumeral : Numeral sign digits fraction exponent) :
      Writes loose passed (numberOf sign digits fraction exponent) (sign ++ digits ++ fraction ++ exponent)
  | ofText {loose : Bool} {passed : String → Bool} {value : String} {written : List Char}
      (hvalue : WritesText loose value written) : Writes loose passed (text value) written
  | ofNoItems {loose : Bool} {passed : String → Bool} {gap : List Char} (hgap : Gap gap) :
      Writes loose passed (array []) ('[' :: gap ++ [']'])
  | ofItems {loose : Bool} {passed : String → Bool} {items : List Json} {inner : List Char}
      (hitems : WritesItems loose items inner) : Writes loose passed (array items) ('[' :: inner ++ [']'])
  | ofNoMembers {loose : Bool} {passed : String → Bool} {gap : List Char} (hgap : Gap gap) :
      Writes loose passed (object []) ('\x7b' :: gap ++ ['\x7d'])
  | ofMembers {loose : Bool} {passed : String → Bool} {members : List (String × Json)} {inner : List Char}
      (hmembers : WritesMembers loose passed members inner) :
      Writes loose passed (object members) ('\x7b' :: inner ++ ['\x7d'])

/-- The texts that write a value, with gaps around it. -/
inductive WritesSpaced : Bool → (String → Bool) → Json → List Char → Prop where
  | spaced {loose : Bool} {passed : String → Bool} {value : Json} {before written after : List Char}
      (hbefore : Gap before) (hvalue : Writes loose passed value written) (hafter : Gap after) :
      WritesSpaced loose passed value (before ++ written ++ after)

/-- The texts that write the items of an array that has some. -/
inductive WritesItems : Bool → List Json → List Char → Prop where
  | last {loose : Bool} {item : Json} {written : List Char} (hitem : WritesSpaced loose (fun _ => loose) item written) :
      WritesItems loose [item] written
  | more {loose : Bool} {item : Json} {items : List Json} {written inner : List Char}
      (hitem : WritesSpaced loose (fun _ => loose) item written) (hitems : WritesItems loose items inner) :
      WritesItems loose (item :: items) (written ++ ',' :: inner)

/-- The texts that write a member of an object. -/
inductive WritesMember : Bool → (String → Bool) → String × Json → List Char → Prop where
  | named {loose : Bool} {passed : String → Bool} {name : String} {value : Json}
      {before title between written : List Char} (hbefore : Gap before) (hname : WritesText loose name title)
      (hbetween : Gap between) (hvalue : WritesSpaced (passed name) (fun _ => passed name) value written) :
      WritesMember loose passed (name, value) (before ++ title ++ between ++ ':' :: written)

/-- The texts that write the members of an object that has some. -/
inductive WritesMembers : Bool → (String → Bool) → List (String × Json) → List Char → Prop where
  | last {loose : Bool} {passed : String → Bool} {entry : String × Json} {written : List Char}
      (hentry : WritesMember loose passed entry written) : WritesMembers loose passed [entry] written
  | more {loose : Bool} {passed : String → Bool} {entry : String × Json} {members : List (String × Json)}
      {written inner : List Char} (hentry : WritesMember loose passed entry written)
      (hmembers : WritesMembers loose passed members inner) :
      WritesMembers loose passed (entry :: members) (written ++ ',' :: inner)

end

/-- The texts that write a value for a reader who passes over some members of it. -/
def Document (passed : String → Bool) (value : Json) (text : String) : Prop :=
  WritesSpaced false passed value text.toList

/-! ### Gaps -/

variable {gap input rest : List Char} {character : Char} {loose : Bool} {passed : String → Bool}

theorem skipGap_append (hgap : Gap gap) (input : List Char) : skipGap (gap ++ input) = skipGap input :=
  List.dropWhile_append_of_pos hgap

theorem skipGap_cons (hother : isGap character = false) (rest : List Char) :
    skipGap (character :: rest) = character :: rest :=
  List.dropWhile_cons_of_neg (by simp [hother])

theorem gap_nil : Gap [] := nofun

/-! ### Texts -/

private theorem readText_spells {piece : List Char} (hspells : Spells loose character piece) (rest : List Char) :
    readText loose (piece ++ rest) = withFront character (readText loose rest) := by
  cases hspells with
  | plain hprintable hquote hescape =>
    have hkept : ¬(character.toNat < 0x20 ∨ character = '\\') := by
      rintro (hcontrol | hsame)
      · omega
      · exact hescape hsame
    rw [List.singleton_append, readText.eq_def]
    split
    · next heq => cases heq
    · next heq => exact absurd (List.cons.inj heq).1 hquote
    · next heq => exact absurd (List.cons.inj heq).1 hescape
    · next heq => exact absurd (List.cons.inj heq).1 hescape
    · next heq =>
      obtain ⟨rfl, rfl⟩ := List.cons.inj heq
      rw [if_neg hkept]
  | short letter hmeant =>
    have hletter : letter ≠ 'u' := by
      rintro rfl
      cases hmeant
    show readText loose ('\\' :: letter :: rest) = _
    rw [readText, hmeant]
    · rintro _ _ _ _ _ rfl
      exact absurd rfl hletter
  | code first second third fourth unit hunit halone hcode =>
    show readText loose ('\\' :: 'u' :: first :: second :: third :: fourth :: rest) = _
    rw [readText, hunit]
    dsimp only
    rw [if_pos halone, hcode]
  | pair first second third fourth fifth sixth seventh eighth high low hhigh halone hopens hlow hcloses hcode =>
    have hfirst : closesPair high = false := by
      simp only [opensPair, Bool.and_eq_true, decide_eq_true_eq] at hopens
      simp only [closesPair, Bool.and_eq_false_iff, decide_eq_false_iff_not]
      omega
    show readText loose ('\\' :: 'u' :: first :: second :: third :: fourth :: '\\' :: 'u' :: fifth :: sixth ::
      seventh :: eighth :: rest) = _
    rw [readText, hhigh]
    dsimp only
    rw [if_neg (by simp [halone]), if_neg (by simp [hfirst])]
    simp only [hlow]
    rw [if_pos hcloses, hcode]

private theorem readText_spellsAll {characters written : List Char} (hspells : SpellsAll loose characters written)
    (rest : List Char) : readText loose (written ++ '"' :: rest) = some (characters, rest) := by
  induction hspells with
  | nil => rfl
  | cons hfirst hrest ih =>
    rw [List.append_assoc, readText_spells hfirst, ih]
    rfl

theorem readText_writes {value : String} {written : List Char} (hwrites : WritesText loose value written)
    (rest : List Char) :
    ∃ inner, written = '"' :: inner ∧ readText loose (inner ++ rest) = some (value.toList, rest) := by
  obtain ⟨inner, hinner⟩ := hwrites
  refine ⟨inner ++ ['"'], rfl, ?_⟩
  rw [List.append_assoc]
  exact readText_spellsAll hinner rest

/-! ### Numbers -/

/-- What can follow a value: a gap, a comma, a closing bracket or brace, or the end. -/
def Stops (rest : List Char) : Prop :=
  ∀ character, rest.head? = some character →
    isGap character = true ∨ character = ',' ∨ character = ']' ∨ character = '\x7d'

def Ends (rest : List Char) : Prop := ∀ character, rest.head? = some character → character.isDigit = false

theorem Stops.head?_ne (hstops : Stops rest) (hother : isGap character = false ∧ character ≠ ',' ∧ character ≠ ']' ∧
    character ≠ '\x7d') : rest.head? ≠ some character := by
  intro hhead
  rcases hstops character hhead with hgap | rfl | rfl | rfl
  · rw [hother.1] at hgap
    cases hgap
  · exact hother.2.1 rfl
  · exact hother.2.2.1 rfl
  · exact hother.2.2.2 rfl

theorem isGap_of_isDigit (hdigit : character.isDigit = true) : isGap character = false := by
  rw [Char.isDigit_iff_toNat] at hdigit
  simp only [isGap, Bool.or_eq_false_iff, decide_eq_false_iff_not]
  refine ⟨⟨⟨?_, ?_⟩, ?_⟩, ?_⟩ <;> rintro rfl <;> exact absurd hdigit (by decide)

private theorem Stops.ends (hstops : Stops rest) : Ends rest := by
  intro character hhead
  cases hdigit : character.isDigit with
  | false => rfl
  | true =>
    refine absurd hhead (hstops.head?_ne ⟨isGap_of_isDigit hdigit, ?_, ?_, ?_⟩) <;> rintro rfl <;> cases hdigit

section Numbers

variable {sign digits fraction exponent mark : List Char}

theorem takeWhile_digits (hdigits : Digits digits) (hends : Ends rest) :
    (digits ++ rest).takeWhile Char.isDigit = digits ∧ (digits ++ rest).dropWhile Char.isDigit = rest := by
  rw [List.takeWhile_append_of_pos hdigits.all, List.dropWhile_append_of_pos hdigits.all]
  cases rest with
  | nil => exact ⟨List.append_nil _, rfl⟩
  | cons first more =>
    have hother : ¬ first.isDigit = true := by simp [hends first rfl]
    rw [List.takeWhile_cons_of_neg hother, List.dropWhile_cons_of_neg hother, List.append_nil]
    exact ⟨rfl, rfl⟩

theorem Digits.head (hdigits : Digits digits) : ∃ first more, digits = first :: more ∧ first.isDigit = true := by
  obtain ⟨first, more, rfl⟩ := List.exists_cons_of_ne_nil hdigits.some
  exact ⟨first, more, rfl, hdigits.all first List.mem_cons_self⟩

private theorem Exponent.ends (hexponent : Exponent exponent) (hends : Ends rest) : Ends (exponent ++ rest) := by
  cases hexponent with
  | none => exact hends
  | power letter mark digits hletter =>
    intro character hhead
    obtain rfl : letter = character := Option.some.inj hhead
    rcases hletter with rfl | rfl <;> rfl

private theorem Fraction.ends (hfraction : Fraction fraction) (hends : Ends rest) : Ends (fraction ++ rest) := by
  cases hfraction with
  | none => exact hends
  | places digits =>
    intro character hhead
    obtain rfl : '.' = character := Option.some.inj hhead
    rfl

theorem readFraction_append (hfraction : Fraction fraction) (hends : Ends rest) (hpoint : rest.head? ≠ some '.') :
    readFraction (fraction ++ rest) = some (fraction, rest) := by
  cases hfraction with
  | none =>
    rw [List.nil_append]
    unfold readFraction
    split
    · next later => exact absurd rfl hpoint
    · rfl
  | places digits hdigits =>
    obtain ⟨htaken, hleft⟩ := takeWhile_digits hdigits hends
    rw [List.cons_append, readFraction, htaken, hleft]
    exact if_neg (by simp [hdigits.some])

theorem readMark_append (hmark : mark = [] ∨ mark = ['+'] ∨ mark = ['-']) (hdigits : Digits digits) (rest : List Char) :
    readMark (mark ++ (digits ++ rest)) = (mark, digits ++ rest) := by
  rcases hmark with rfl | rfl | rfl
  · obtain ⟨first, more, rfl, hfirst⟩ := hdigits.head
    rw [List.nil_append, List.cons_append]
    unfold readMark
    split
    · next heq =>
      rw [(List.cons.inj heq).1] at hfirst
      cases hfirst
    · next heq =>
      rw [(List.cons.inj heq).1] at hfirst
      cases hfirst
    · rfl
  · rfl
  · rfl

theorem readExponent_append (hexponent : Exponent exponent) (hends : Ends rest) (hsmall : rest.head? ≠ some 'e')
    (hlarge : rest.head? ≠ some 'E') : readExponent (exponent ++ rest) = some (exponent, rest) := by
  cases hexponent with
  | none =>
    cases rest with
    | nil => rfl
    | cons first more =>
      have hother : ¬(first = 'e' ∨ first = 'E') := by
        rintro (rfl | rfl)
        · exact hsmall rfl
        · exact hlarge rfl
      rw [List.nil_append, readExponent, if_neg hother]
  | power letter mark digits hletter hmark hdigits =>
    obtain ⟨htaken, hleft⟩ := takeWhile_digits hdigits hends
    rw [List.append_assoc, List.cons_append, readExponent, if_pos hletter, readMark_append hmark hdigits]
    dsimp only
    rw [htaken, hleft]
    exact if_neg (by simp [hdigits.some])

private theorem Exponent.head?_ne (hexponent : Exponent exponent) (hpoint : rest.head? ≠ some '.') :
    (exponent ++ rest).head? ≠ some '.' := by
  cases hexponent with
  | none => exact hpoint
  | power letter mark digits hletter =>
    intro hhead
    obtain rfl : letter = '.' := Option.some.inj hhead
    rcases hletter with hsame | hsame <;> cases hsame

theorem readNumber_append (hnumeral : Numeral sign digits fraction exponent) (hstops : Stops rest) :
    readNumber (sign ++ digits ++ fraction ++ exponent ++ rest) =
      some (numberOf sign digits fraction exponent, rest) := by
  obtain ⟨hsign, hdigits, hleading, hfraction, hexponent⟩ := hnumeral
  have hpoint : rest.head? ≠ some '.' := hstops.head?_ne (by decide)
  have hends := hexponent.ends hstops.ends
  obtain ⟨htaken, hleft⟩ := takeWhile_digits hdigits (hfraction.ends hends)
  have htail : readTail sign digits (fraction ++ (exponent ++ rest)) =
      some (numberOf sign digits fraction exponent, rest) := by
    rw [readTail, readFraction_append hfraction hends (hexponent.head?_ne hpoint)]
    dsimp only
    rw [readExponent_append hexponent hstops.ends (hstops.head?_ne (by decide)) (hstops.head?_ne (by decide))]
  have hunsigned : readUnsigned sign (digits ++ (fraction ++ (exponent ++ rest))) =
      some (numberOf sign digits fraction exponent, rest) := by
    rw [readUnsigned, htaken, hleft]
    split
    · exact absurd rfl hdigits.some
    · next next more => cases hleading rfl
    · exact htail
  simp only [List.append_assoc]
  rcases hsign with rfl | rfl
  · obtain ⟨first, others, rfl, hfirst⟩ := hdigits.head
    rw [List.nil_append, ← hunsigned, List.cons_append, readNumber]
    -- A digit is no sign.
    intro more heq
    rw [(List.cons.inj heq).1] at hfirst
    cases hfirst
  · exact hunsigned

end Numbers

/-! ### Values -/

section Values

variable {value item : Json} {items : List Json} {entry : String × Json} {members : List (String × Json)}
  {written inner : List Char} {fuel : Nat}

theorem Stops.after_gap (hgap : Gap gap) (hstops : Stops rest) : Stops (gap ++ rest) := by
  cases gap with
  | nil => exact hstops
  | cons first more =>
    intro character hhead
    obtain rfl : first = character := Option.some.inj hhead
    exact .inl (hgap first List.mem_cons_self)

theorem stops_cons (hends : character = ',' ∨ character = ']' ∨ character = '\x7d') (rest : List Char) :
    Stops (character :: rest) := by
  intro other hhead
  obtain rfl : character = other := Option.some.inj hhead
  exact .inr hends

theorem stops_nil : Stops [] := nofun

theorem readValue_skipGap (fuel : Nat) (input : List Char) :
    readValue loose passed fuel (skipGap input) = readValue loose passed fuel input := by
  have htwice : skipGap (skipGap input) = skipGap input := List.dropWhile_idempotent ..
  cases fuel with
  | zero => rfl
  | succ fuel => rw [readValue, readValue, htwice]

theorem readValue_append (hgap : Gap gap) (fuel : Nat) (input : List Char) :
    readValue loose passed fuel (gap ++ input) = readValue loose passed fuel input := by
  rw [← readValue_skipGap, skipGap_append hgap, readValue_skipGap]

private theorem readItems_skipGap (fuel : Nat) (input : List Char) :
    readItems loose fuel (skipGap input) = readItems loose fuel input := by
  cases fuel with
  | zero => rfl
  | succ fuel => rw [readItems, readItems, readValue_skipGap]

private theorem readMembers_skipGap (fuel : Nat) (input : List Char) :
    readMembers loose passed fuel (skipGap input) = readMembers loose passed fuel input := by
  have htwice : skipGap (skipGap input) = skipGap input := List.dropWhile_idempotent ..
  cases fuel with
  | zero => rfl
  | succ fuel => rw [readMembers, readMembers, htwice]

theorem Numeral.head {sign digits fraction exponent : List Char} (hnumeral : Numeral sign digits fraction exponent) :
    ∃ first more, sign ++ digits ++ fraction ++ exponent = first :: more ∧ (first = '-' ∨ first.isDigit = true) := by
  rcases hnumeral.hsign with rfl | rfl
  · obtain ⟨first, more, rfl, hfirst⟩ := hnumeral.hdigits.head
    exact ⟨first, _, rfl, .inr hfirst⟩
  · exact ⟨'-', _, rfl, .inl rfl⟩

theorem Writes.head (hwrites : Writes loose passed value written) :
    ∃ first more, written = first :: more ∧ isGap first = false ∧ first ≠ ']' := by
  cases hwrites with
  | ofNumber hnumeral =>
    obtain ⟨first, more, hwhole, rfl | hdigit⟩ := hnumeral.head
    · exact ⟨'-', more, hwhole, by decide, by decide⟩
    · refine ⟨first, more, hwhole, isGap_of_isDigit hdigit, ?_⟩
      rintro rfl
      cases hdigit
  | ofText hvalue =>
    cases hvalue
    exact ⟨_, _, rfl, by decide, by decide⟩
  | _ => exact ⟨_, _, rfl, by decide, by decide⟩

private theorem WritesSpaced.head (hspaced : WritesSpaced loose passed value written) (rest : List Char) :
    ∃ first more, skipGap (written ++ rest) = first :: more ∧ first ≠ ']' := by
  obtain ⟨hbefore, hvalue, -⟩ := hspaced
  obtain ⟨first, more, rfl, hfirst, hbracket⟩ := hvalue.head
  simp only [List.append_assoc, List.cons_append]
  rw [skipGap_append hbefore, skipGap_cons hfirst]
  exact ⟨first, _, rfl, hbracket⟩

theorem WritesItems.head (hitems : WritesItems loose items inner) (rest : List Char) :
    ∃ first more, skipGap (inner ++ rest) = first :: more ∧ first ≠ ']' := by
  cases hitems with
  | last hitem => exact hitem.head rest
  | more hitem =>
    rw [List.append_assoc]
    exact hitem.head _

private theorem WritesMember.head (hentry : WritesMember loose passed entry written) (rest : List Char) :
    ∃ more, skipGap (written ++ rest) = '"' :: more := by
  obtain ⟨hbefore, hname⟩ := hentry
  obtain ⟨inner, hinner⟩ := hname
  simp only [List.append_assoc, List.cons_append]
  rw [skipGap_append hbefore, skipGap_cons (by decide)]
  exact ⟨_, rfl⟩

theorem WritesMembers.head (hmembers : WritesMembers loose passed members inner) (rest : List Char) :
    ∃ more, skipGap (inner ++ rest) = '"' :: more := by
  cases hmembers with
  | last hentry => exact hentry.head rest
  | more hentry =>
    rw [List.append_assoc]
    exact hentry.head _

theorem readValue_number {first : Char} (hfirst : first = '-' ∨ first.isDigit = true) (rest : List Char) :
    readValue loose passed (fuel + 1) (first :: rest) = readNumber (first :: rest) := by
  have hgap : isGap first = false := by
    rcases hfirst with rfl | hdigit
    · rfl
    · exact isGap_of_isDigit hdigit
  have hother : ∀ other : Char, other ≠ '-' → other.isDigit = false → first ≠ other := by
    rintro other hminus hdigit rfl
    rcases hfirst with rfl | htrue
    · exact hminus rfl
    · rw [hdigit] at htrue
      cases htrue
  rw [readValue, skipGap_cons hgap]
  split
  iterate 6
    next heq => exact absurd (List.cons.inj heq).1 (hother _ (by decide) (by decide))
  rfl

theorem readValue_text {characters : List Char} (hread : readText loose input = some (characters, rest)) :
    readValue loose passed (fuel + 1) ('"' :: input) = some (.text (String.ofList characters), rest) := by
  rw [readValue, skipGap_cons (by decide)]
  simp only [hread, Option.map_some]

theorem readValue_items (hhead : ∃ first more, skipGap input = first :: more ∧ first ≠ ']')
    (hread : readItems loose fuel input = some (items, rest)) :
    readValue loose passed (fuel + 1) ('[' :: input) = some (.array items, rest) := by
  obtain ⟨first, more, hfirst, hbracket⟩ := hhead
  rw [← readItems_skipGap, hfirst] at hread
  rw [readValue, skipGap_cons (by decide)]
  simp only [hfirst]
  split
  · next heq => exact absurd (List.cons.inj heq).1 hbracket
  · rw [hread, Option.map_some]

theorem readValue_members (hhead : ∃ more, skipGap input = '"' :: more)
    (hread : readMembers loose passed fuel input = some (members, rest)) :
    readValue loose passed (fuel + 1) ('\x7b' :: input) = some (.object members, rest) := by
  obtain ⟨more, hfirst⟩ := hhead
  rw [← readMembers_skipGap, hfirst] at hread
  rw [readValue, skipGap_cons (by decide)]
  simp only [hfirst]
  show (readMembers loose passed fuel ('"' :: more)).map _ = _
  rw [hread, Option.map_some]

mutual

theorem Writes.read : ∀ {loose : Bool} {passed : String → Bool} {value : Json} {written : List Char},
    Writes loose passed value written → ∀ {fuel : Nat} {rest : List Char}, written.length ≤ fuel → Stops rest →
      readValue loose passed fuel (written ++ rest) = some (value, rest)
  | _, _, _, _, .ofNull, fuel + 1, _, _, _ => rfl
  | _, _, _, _, .ofTrue, fuel + 1, _, _, _ => rfl
  | _, _, _, _, .ofFalse, fuel + 1, _, _, _ => rfl
  | _, _, _, _, .ofNumber hnumeral, fuel + 1, rest, _, hstops => by
    obtain ⟨first, more, hwhole, hfirst⟩ := hnumeral.head
    rw [← readNumber_append hnumeral hstops, hwhole, List.cons_append]
    exact readValue_number hfirst _
  | _, _, _, _, .ofText hvalue, fuel + 1, rest, _, _ => by
    obtain ⟨inner, rfl, hread⟩ := readText_writes hvalue rest
    rw [List.cons_append, readValue_text hread, String.ofList_toList]
  | _, _, _, _, .ofNoItems hgap, fuel + 1, rest, _, _ => by
    have hclosing := skipGap_append hgap (']' :: rest)
    rw [skipGap_cons (by decide)] at hclosing
    rw [List.cons_append, List.cons_append, List.append_assoc, readValue, skipGap_cons (by decide)]
    simp only [List.singleton_append, hclosing]
  | _, _, _, _, .ofItems hitems, fuel + 1, rest, hfuel, _ => by
    rw [List.cons_append, List.cons_append, List.append_assoc]
    refine readValue_items (hitems.head _) (hitems.read ?_)
    simp only [List.cons_append, List.length_cons, List.length_append] at hfuel
    omega
  | _, _, _, _, .ofNoMembers hgap, fuel + 1, rest, _, _ => by
    have hclosing := skipGap_append hgap ('\x7d' :: rest)
    rw [skipGap_cons (by decide)] at hclosing
    rw [List.cons_append, List.cons_append, List.append_assoc, readValue, skipGap_cons (by decide)]
    simp only [List.singleton_append, hclosing]
  | _, _, _, _, .ofMembers hmembers, fuel + 1, rest, hfuel, _ => by
    rw [List.cons_append, List.cons_append, List.append_assoc]
    refine readValue_members (hmembers.head _) (hmembers.read ?_)
    simp only [List.cons_append, List.length_cons, List.length_append] at hfuel
    omega
  | _, _, _, _, hwrites, 0, _, hfuel, _ => by
    obtain ⟨first, more, rfl, -⟩ := hwrites.head
    cases hfuel

theorem WritesSpaced.read : ∀ {loose : Bool} {passed : String → Bool} {value : Json} {written : List Char},
    WritesSpaced loose passed value written → ∀ {fuel : Nat} {rest : List Char}, written.length ≤ fuel → Stops rest →
      ∃ after, Gap after ∧ readValue loose passed fuel (written ++ rest) = some (value, after ++ rest)
  | _, _, _, _, @WritesSpaced.spaced _ _ value before written after hbefore hvalue hafter, fuel, rest, hfuel, hstops => by
    refine ⟨after, hafter, ?_⟩
    rw [List.append_assoc, List.append_assoc, readValue_append hbefore]
    refine hvalue.read ?_ (hstops.after_gap hafter)
    simp only [List.length_append] at hfuel
    omega

theorem WritesItems.read : ∀ {loose : Bool} {items : List Json} {inner : List Char}, WritesItems loose items inner →
    ∀ {fuel : Nat} {rest : List Char}, inner.length < fuel →
      readItems loose fuel (inner ++ ']' :: rest) = some (items, rest)
  | _, _, _, .last hitem, fuel + 1, rest, hfuel => by
    obtain ⟨after, hafter, hread⟩ := hitem.read (Nat.lt_succ_iff.mp hfuel) (stops_cons (.inr (.inl rfl)) rest)
    rw [readItems, hread]
    simp only [skipGap_append hafter, skipGap_cons (by decide : isGap ']' = false)]
  | _, _, _, @WritesItems.more loose item items written inner hitem hitems, fuel + 1, rest, hfuel => by
    rw [List.length_append, List.length_cons] at hfuel
    obtain ⟨after, hafter, hread⟩ :=
      hitem.read (by omega : written.length ≤ fuel) (stops_cons (.inl rfl) (inner ++ ']' :: rest))
    have hrest : readItems loose fuel (inner ++ ']' :: rest) = some (items, rest) := hitems.read (by omega)
    rw [List.append_assoc, List.cons_append, readItems, hread]
    simp only [skipGap_append hafter, skipGap_cons (by decide : isGap ',' = false), hrest, Option.map_some]

theorem WritesMember.read : ∀ {loose : Bool} {passed : String → Bool} {entry : String × Json} {written : List Char},
    WritesMember loose passed entry written → ∀ {fuel : Nat} {rest : List Char}, written.length ≤ fuel → Stops rest →
      ∃ title middle value after, skipGap (written ++ rest) = '"' :: title ∧
        readText loose title = some (entry.1.toList, middle) ∧ skipGap middle = ':' :: value ∧ Gap after ∧
        readValue (passed entry.1) (fun _ => passed entry.1) fuel value = some (entry.2, after ++ rest)
  | _, _, _, _, @WritesMember.named _ _ name value before title between written hbefore hname hbetween hvalue, fuel, rest,
      hfuel, hstops => by
    simp only [List.length_append, List.length_cons] at hfuel
    obtain ⟨after, hafter, hread⟩ := hvalue.read (by omega : written.length ≤ fuel) hstops
    obtain ⟨inner, rfl, htitle⟩ := readText_writes hname (between ++ ':' :: (written ++ rest))
    refine ⟨_, _, _, after, ?_, htitle, ?_, hafter, hread⟩
    · simp only [List.append_assoc, List.cons_append]
      rw [skipGap_append hbefore, skipGap_cons (by decide)]
    · rw [skipGap_append hbetween, skipGap_cons (by decide)]

theorem WritesMembers.read : ∀ {loose : Bool} {passed : String → Bool} {members : List (String × Json)}
    {inner : List Char}, WritesMembers loose passed members inner → ∀ {fuel : Nat} {rest : List Char},
      inner.length < fuel → readMembers loose passed fuel (inner ++ '\x7d' :: rest) = some (members, rest)
  | _, _, _, _, .last hentry, fuel + 1, rest, hfuel => by
    obtain ⟨title, middle, value, after, htitle, hname, hcolon, hafter, hread⟩ :=
      hentry.read (Nat.lt_succ_iff.mp hfuel) (stops_cons (.inr (.inr rfl)) rest)
    rw [readMembers]
    simp only [htitle, hname, hcolon, String.ofList_toList, hread, skipGap_append hafter,
      skipGap_cons (by decide : isGap '\x7d' = false)]
  | _, _, _, _, @WritesMembers.more loose passed entry members written inner hentry hmembers, fuel + 1, rest, hfuel => by
    rw [List.length_append, List.length_cons] at hfuel
    obtain ⟨title, middle, value, after, htitle, hname, hcolon, hafter, hread⟩ :=
      hentry.read (by omega : written.length ≤ fuel) (stops_cons (.inl rfl) (inner ++ '\x7d' :: rest))
    have hrest : readMembers loose passed fuel (inner ++ '\x7d' :: rest) = some (members, rest) :=
      hmembers.read (by omega)
    rw [List.append_assoc, List.cons_append, readMembers]
    simp only [htitle, hname, hcolon, String.ofList_toList, hread, skipGap_append hafter,
      skipGap_cons (by decide : isGap ',' = false), hrest, Option.map_some]

end

/-- **Every text of the grammar is read** as the value that it writes. -/
theorem parsePassing?_of_document {text : String} (hdocument : Document passed value text) :
    parsePassing? passed text = some value := by
  obtain ⟨after, hafter, hread⟩ :=
    hdocument.read (by omega : text.toList.length ≤ 2 * text.toList.length + 1) stops_nil
  have hnothing : skipGap (after ++ []) = [] := skipGap_append hafter []
  rw [List.append_nil] at hread
  simp only [parsePassing?, hread, hnothing, List.isEmpty_nil, if_true]

end Values

end Retrace.Json
