import Retrace.Text.Digits
import Retrace.Text.Integer

/-!
# Plain scalars

What a scalar without quotes stands for: nothing, a truth value, a number, or its own text. Integers
may be written in bases sixteen, eight and two; a needless zero in front makes a text of a number.
-/

namespace Retrace.Yaml

def isNull (text : String) : Bool := ["", "null", "Null", "NULL", "~"].contains text

def isTruth (text : String) : Bool :=
  ["true", "True", "TRUE", "false", "False", "FALSE"].contains text

def marked? : List Char → Option Nat
  | '0' :: 'x' :: digits => Text.number? 16 digits
  | '0' :: 'o' :: digits => Text.number? 8 digits
  | '0' :: 'b' :: digits => Text.number? 2 digits
  | _ => none

/-- A text without its sign. -/
def dropSign : List Char → List Char
  | '+' :: rest => rest
  | '-' :: rest => rest
  | text => text

/-- Whether a text is a number with a needless zero in front. -/
def isPadded (text : List Char) : Bool :=
  match dropSign text with
  | '0' :: next :: rest => (next :: rest).all Char.isDigit
  | _ => false

def unsigned? (text : List Char) : Option Nat :=
  let bare := Text.dropPlus text
  match marked? bare with
  | some number => some number
  | none => if isPadded text then none else Text.number? 10 bare

def negative? : List Char → Option Nat
  | '-' :: rest =>
    match marked? rest with
    | some number => some number
    | none => if isPadded rest then none else Text.number? 10 rest
  | _ => none

/-- The unsigned 64-bit number that a plain scalar writes. -/
def word? (text : String) : Option UInt64 :=
  (unsigned? text.toList).bind fun number => Text.uint64OfInt? number

def afterDigits (text : List Char) : Bool × List Char :=
  (!(text.takeWhile Char.isDigit).isEmpty, text.dropWhile Char.isDigit)

def isExponent : List Char → Bool
  | [] => true
  | letter :: rest =>
    (letter = 'e' || letter = 'E') &&
      match afterDigits (dropSign rest) with
      | (true, []) => true
      | _ => false

/-- Whether a text is a decimal number with an optional sign, point and exponent. -/
def isDecimal (text : List Char) : Bool :=
  match afterDigits (dropSign text) with
  | (whole, '.' :: rest) =>
    let (places, rest) := afterDigits rest
    (whole || places) && isExponent rest
  | (whole, rest) => whole && isExponent rest

def isSpecialNumber (text : String) : Bool :=
  [".inf", ".Inf", ".INF", "+.inf", "+.Inf", "+.INF", "-.inf", "-.Inf", "-.INF", ".nan", ".NaN",
    ".NAN"].contains text

def isNumber (text : String) : Bool :=
  (unsigned? text.toList).isSome || (negative? text.toList).isSome || isDecimal text.toList ||
    isSpecialNumber text

def needsQuotes (text : String) : Bool :=
  isNull text || isTruth text || isNumber text || isPadded text.toList

end Retrace.Yaml
