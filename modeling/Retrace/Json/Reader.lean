import Retrace.Json
import Retrace.Text.Digits
import Retrace.Text.Integer

/-!
# Reading JSON

The grammar of JSON, without comments and without trailing commas. Each function takes the characters
that are left and answers with what it read and what is left after it.
-/

namespace Retrace.Json

def isGap (character : Char) : Bool :=
  character = ' ' || character = '\n' || character = '\t' || character = '\r'

def skipGap (text : List Char) : List Char := text.dropWhile isGap

/-- The code unit that four hexadecimal digits write. -/
def unit? (first second third fourth : Char) : Option Nat :=
  Text.number? 16 [first, second, third, fourth]

def opensPair (unit : Nat) : Bool := decide (0xD800 ≤ unit) && decide (unit < 0xDC00)

def closesPair (unit : Nat) : Bool := decide (0xDC00 ≤ unit) && decide (unit < 0xE000)

/-- Whether a code unit is read as a character by itself. In a text that nobody asks for, a `loose` one, half of
a pair is so read, too. -/
def standsAlone (loose : Bool) (unit : Nat) : Bool := loose || !(opensPair unit || closesPair unit)

def shortEscape? : Char → Option Char
  | '"' => some '"'
  | '\\' => some '\\'
  | '/' => some '/'
  | 'b' => some '\x08'
  | 'f' => some '\x0c'
  | 'n' => some '\n'
  | 'r' => some '\r'
  | 't' => some '\t'
  | _ => none

/-- Puts a character in front of a text that was read. -/
def withFront (character : Char) (read : Option (List Char × List Char)) :
    Option (List Char × List Char) :=
  read.map fun (value, rest) => (character :: value, rest)

def readText (loose : Bool) : List Char → Option (List Char × List Char)
  | [] => none
  | '"' :: rest => some ([], rest)
  | '\\' :: 'u' :: first :: second :: third :: fourth :: rest =>
    match unit? first second third fourth with
    | none => none
    | some unit =>
      if standsAlone loose unit then withFront (Char.ofNat unit) (readText loose rest)
      else if closesPair unit then none
      else
        match rest with
        | '\\' :: 'u' :: fifth :: sixth :: seventh :: eighth :: later =>
          match unit? fifth sixth seventh eighth with
          | none => none
          | some other =>
            if closesPair other then
              withFront (Char.ofNat (0x10000 + (unit - 0xD800) * 0x400 + (other - 0xDC00)))
                (readText loose later)
            else none
        | _ => none
  | '\\' :: character :: rest =>
    match shortEscape? character with
    | none => none
    | some meant => withFront meant (readText loose rest)
  | character :: rest =>
    if character.toNat < 0x20 ∨ character = '\\' then none
    else withFront character (readText loose rest)

/-- Whether a number fits a signed or an unsigned 64-bit word. -/
def fitsWord (value : Int) : Bool :=
  (Text.int64OfInt? value).isSome || (Text.uint64OfInt? value).isSome

def signed (sign digits : List Char) : Int :=
  if sign.isEmpty then Nat.ofDigitChars 10 digits 0 else -(Nat.ofDigitChars 10 digits 0 : Int)

/-- The value of a number by its parts: an integer if there is neither fraction nor exponent, if it fits a
word, and if it is not a negative zero; any other number stays as it is written. -/
def numberOf (sign digits fraction exponent : List Char) : Json :=
  if fraction.isEmpty && exponent.isEmpty && fitsWord (signed sign digits) &&
      !(decide (signed sign digits = 0) && !sign.isEmpty) then
    integer (signed sign digits)
  else decimal (String.ofList (sign ++ digits ++ fraction ++ exponent))

def readFraction : List Char → Option (List Char × List Char)
  | '.' :: later =>
    let places := later.takeWhile Char.isDigit
    if places.isEmpty then none else some ('.' :: places, later.dropWhile Char.isDigit)
  | rest => some ([], rest)

def readMark : List Char → List Char × List Char
  | '+' :: rest => (['+'], rest)
  | '-' :: rest => (['-'], rest)
  | rest => ([], rest)

/-- Reads the exponent of a number; there may be none. -/
def readExponent : List Char → Option (List Char × List Char)
  | [] => some ([], [])
  | letter :: later =>
    if letter = 'e' ∨ letter = 'E' then
      let (mark, later) := readMark later
      let power := later.takeWhile Char.isDigit
      if power.isEmpty then none else some (letter :: mark ++ power, later.dropWhile Char.isDigit)
    else some ([], letter :: later)

def readTail (sign digits rest : List Char) : Option (Json × List Char) :=
  match readFraction rest with
  | none => none
  | some (fraction, rest) =>
    match readExponent rest with
    | none => none
    | some (exponent, rest) => some (numberOf sign digits fraction exponent, rest)

/-- Reads what follows the sign of a number: at least a digit, and no needless zero in front. -/
def readUnsigned (sign unsigned : List Char) : Option (Json × List Char) :=
  let digits := unsigned.takeWhile Char.isDigit
  match digits with
  | [] => none
  | '0' :: _ :: _ => none
  | _ => readTail sign digits (unsigned.dropWhile Char.isDigit)

/-- Reads a number: no plus sign, and a digit on each side of the point. -/
def readNumber : List Char → Option (Json × List Char)
  | '-' :: rest => readUnsigned ['-'] rest
  | rest => readUnsigned [] rest

mutual

/-- Reads a value, loosely or not, in which the members of the names of `passed` are read loosely if it is an
object. The number bounds how many values and separators are read. -/
def readValue (loose : Bool) (passed : String → Bool) : Nat → List Char → Option (Json × List Char)
  | 0, _ => none
  | fuel + 1, input =>
    match skipGap input with
    | 'n' :: 'u' :: 'l' :: 'l' :: rest => some (null, rest)
    | 't' :: 'r' :: 'u' :: 'e' :: rest => some (bool true, rest)
    | 'f' :: 'a' :: 'l' :: 's' :: 'e' :: rest => some (bool false, rest)
    | '"' :: rest => (readText loose rest).map fun (value, rest) => (.text (String.ofList value), rest)
    | '[' :: rest =>
      match skipGap rest with
      | ']' :: rest => some (array [], rest)
      | rest => (readItems loose fuel rest).map fun (items, rest) => (array items, rest)
    | '\x7b' :: rest =>
      match skipGap rest with
      | '\x7d' :: rest => some (object [], rest)
      | rest => (readMembers loose passed fuel rest).map fun (members, rest) => (object members, rest)
    | rest => readNumber rest

/-- Reads the items of an array up to its closing bracket. -/
def readItems (loose : Bool) : Nat → List Char → Option (List Json × List Char)
  | 0, _ => none
  | fuel + 1, input =>
    match readValue loose (fun _ => loose) fuel input with
    | none => none
    | some (item, rest) =>
      match skipGap rest with
      | ']' :: rest => some ([item], rest)
      | ',' :: rest => (readItems loose fuel rest).map fun (items, rest) => (item :: items, rest)
      | _ => none

/-- Reads the members of an object up to its closing brace. -/
def readMembers (loose : Bool) (passed : String → Bool) :
    Nat → List Char → Option (List (String × Json) × List Char)
  | 0, _ => none
  | fuel + 1, input =>
    match skipGap input with
    | '"' :: rest =>
      match readText loose rest with
      | none => none
      | some (name, rest) =>
        match skipGap rest with
        | ':' :: rest =>
          let unread := passed (String.ofList name)
          match readValue unread (fun _ => unread) fuel rest with
          | none => none
          | some (value, rest) =>
            match skipGap rest with
            | '\x7d' :: rest => some ([(String.ofList name, value)], rest)
            | ',' :: rest =>
              (readMembers loose passed fuel rest).map fun (members, rest) =>
                ((String.ofList name, value) :: members, rest)
            | _ => none
        | _ => none
    | _ => none

end

/-- The value that a whole text writes, for a reader who passes over some members of it if it is an object. -/
def parsePassing? (passed : String → Bool) (input : String) : Option Json :=
  let characters := input.toList
  match readValue false passed (2 * characters.length + 1) characters with
  | some (value, rest) => if (skipGap rest).isEmpty then some value else none
  | none => none

def parse? (input : String) : Option Json := parsePassing? (fun _ => false) input

end Retrace.Json
