import Retrace.Yaml
import Retrace.Yaml.Scalar

/-!
# Writing YAML

Block style: one entry or item a line, the items of a sequence no deeper than the key above them. A text
stands without quotes where it is read as the same text again; a text of several lines is a literal
block.
-/

namespace Retrace.Yaml

/-- How the text of a scalar is set. -/
inductive Style where
  | plain
  | single
  | double
  | literal
  deriving DecidableEq

def isBreak (character : Char) : Bool :=
  ['\n', '\r', '\u0085', '\u2028', '\u2029'].contains character

def isBlankOrBreak (character : Char) : Bool :=
  character = ' ' || character = '\t' || isBreak character

def isUnprintable (character : Char) : Bool :=
  let code := character.toNat
  (code < 0x20 && code != 0x0A) || (0x7F ≤ code && code < 0xA0) ||
    [0xFEFF, 0xFFFE, 0xFFFF].contains code

def hasNeighbours (isFirst isSecond : Char → Bool) : List Char → Bool
  | left :: right :: rest =>
    (isFirst left && isSecond right) || hasNeighbours isFirst isSecond (right :: rest)
  | _ => false

/-- Whether a text starts or ends with a blank or with the end of a line. -/
def hasOpenEnds (text : List Char) : Bool :=
  let isOpen (character : Char) : Bool := character = ' ' || isBreak character
  text.head?.any isOpen || text.getLast?.any isOpen

def startsAsMark (text : List Char) : Bool :=
  "---".toList.isPrefixOf text || "...".toList.isPrefixOf text ||
    text.head?.any (fun first => "#,[]\x7b\x7d&*!|>'\"%@\x60".toList.contains first) ||
      match text with
      | first :: rest => "?-".toList.contains first && (rest.head?.all isBlankOrBreak)
      | [] => false

def holdsMark (text : List Char) : Bool :=
  text.getLast? = some ':' || hasNeighbours (· == ':') isBlankOrBreak text ||
    hasNeighbours isBlankOrBreak (· == '#') text

def allowsPlain (text : List Char) : Bool :=
  !(text.any isBreak || text.any isUnprintable || hasOpenEnds text || startsAsMark text ||
    holdsMark text)

def allowsSingle (text : List Char) : Bool :=
  !(text.any isUnprintable || hasNeighbours (· == ' ') isBreak text ||
    hasNeighbours isBreak (· == ' ') text)

def allowsLiteral (text : List Char) : Bool :=
  !(text.any isUnprintable || hasNeighbours (· == ' ') isBreak text || text.getLast? = some ' ')

def styleOf (text : String) : Style :=
  let characters := text.toList
  if characters.contains '\n' then if allowsLiteral characters then .literal else .double
  else if !needsQuotes text && allowsPlain characters then .plain
  else if allowsSingle characters then .single
  else .double

/-! ### Scalars -/

/-- A hexadecimal number with a fixed count of digits. -/
def paddedHex (width code : Nat) : List Char := (Text.padded 16 width code).map Char.toUpper

def escapedCode (code : Nat) : List Char :=
  if code ≤ 0xFF then '\\' :: 'x' :: paddedHex 2 code
  else if code ≤ 0xFFFF then '\\' :: 'u' :: paddedHex 4 code
  else '\\' :: 'U' :: paddedHex 8 code

def doubleChar (character : Char) : List Char :=
  match character with
  | '"' => ['\\', '"']
  | '\\' => ['\\', '\\']
  | '\x00' => ['\\', '0']
  | '\x07' => ['\\', 'a']
  | '\x08' => ['\\', 'b']
  | '\t' => ['\\', 't']
  | '\n' => ['\\', 'n']
  | '\x0b' => ['\\', 'v']
  | '\x0c' => ['\\', 'f']
  | '\r' => ['\\', 'r']
  | '\x1b' => ['\\', 'e']
  | '\u0085' => ['\\', 'N']
  | '\u2028' => ['\\', 'L']
  | '\u2029' => ['\\', 'P']
  | _ => if isUnprintable character then escapedCode character.toNat else [character]

def singleChar (character : Char) : List Char :=
  if character = '\'' then ['\'', '\''] else [character]

/-- The header of a literal block: an indentation where the first line would hide it, and which line
ends at its end count. -/
def literalHeader (text : List Char) : List Char :=
  let hint := if text.head?.any fun first => first = ' ' || isBreak first then ['2'] else []
  let chomping :=
    match text.reverse with
    | '\n' :: '\n' :: _ => ['+']
    | ['\n'] => ['+']
    | '\n' :: _ => []
    | _ => ['-']
  '|' :: hint ++ chomping

/-- A line further to the right; an empty line stays empty. -/
def indentLine (line : List Char) : List Char := if line.isEmpty then [] else ' ' :: ' ' :: line

def literalLines (text : List Char) : List (List Char) :=
  let pieces := text.splitOnP (· == '\n')
  if pieces.getLast? = some [] then pieces.dropLast else pieces

def scalarLines (text : String) (isPlain : Bool) : List (List Char) :=
  let characters := text.toList
  if isPlain then [characters]
  else
    match styleOf text with
    | .plain => [characters]
    | .single => ['\'' :: characters.flatMap singleChar ++ ['\'']]
    | .double => ['"' :: characters.flatMap doubleChar ++ ['"']]
    | .literal => literalHeader characters :: literalLines characters

/-! ### Collections -/

/-- Lines after a mark of two characters: the first on its line, the others below it. -/
def hang (mark : Char) : List (List Char) → List (List Char)
  | [] => []
  | first :: rest => (mark :: ' ' :: first) :: rest.map indentLine

/-- The longest key, in bytes, that stands on one line with its value. -/
def keyLimit : Nat := 128

def shortKey? : Yaml → Option (List Char)
  | scalar text isPlain =>
    if text.toList.any isBreak || decide (keyLimit < text.utf8ByteSize) then none
    else (scalarLines text isPlain).head?
  | _ => none

mutual

/-- The lines of a node. -/
def blockLines : Yaml → List (List Char)
  | scalar text isPlain => scalarLines text isPlain
  | sequence [] => [['[', ']']]
  | sequence (item :: rest) => itemLines (item :: rest)
  | mapping [] => [['\x7b', '\x7d']]
  | mapping (entry :: rest) => entryLines (entry :: rest)

/-- The lines of the items of a sequence. -/
def itemLines : List Yaml → List (List Char)
  | [] => []
  | item :: rest => hang '-' (blockLines item) ++ itemLines rest

/-- The lines of the entries of a mapping. -/
def entryLines : List (Yaml × Yaml) → List (List Char)
  | [] => []
  | (key, value) :: rest =>
    let lines := blockLines value
    let entry :=
      match shortKey? key with
      | none => hang '?' (blockLines key) ++ hang ':' lines
      | some name =>
        match value with
        | sequence (_ :: _) => (name ++ [':']) :: lines
        | mapping (_ :: _) => (name ++ [':']) :: lines.map indentLine
        | _ =>
          match lines with
          | [] => [name ++ [':']]
          | first :: below => (name ++ ':' :: ' ' :: first) :: below.map indentLine
    entry ++ entryLines rest

end

def print (node : Yaml) : String :=
  String.ofList ((blockLines node).flatMap fun line => line ++ ['\n'])

end Retrace.Yaml
