import Retrace.Text.Digits
import Retrace.Yaml

/-!
# Reading YAML

Block and flow collections, plain and quoted scalars, literal blocks, comments and document marks. A
block is read line by line: its nesting is the indentation of its lines.
-/

namespace Retrace.Yaml

def isSpace (character : Char) : Bool := character = ' ' || character = '\t'

def isGap (character : Char) : Bool := isSpace character || character = '\n'

def atGap : List Char → Bool
  | [] => true
  | character :: _ => isGap character

/-- A text without the blanks at its end. -/
def trimGapEnd (text : List Char) : List Char := (text.reverse.dropWhile isGap).reverse

/-- What a run of blanks and line ends inside a scalar stands for: one line end is a space, more are
line ends without the first. -/
def folded (gap : List Char) : List Char :=
  match gap.count '\n' with
  | 0 => gap
  | 1 => [' ']
  | breaks + 1 => List.replicate breaks '\n'

/-! ### Quoted scalars -/

def namedEscape? : Char → Option Nat
  | '0' => some 0x00
  | 'a' => some 0x07
  | 'b' => some 0x08
  | 't' | '\t' => some 0x09
  | 'n' => some 0x0A
  | 'v' => some 0x0B
  | 'f' => some 0x0C
  | 'r' => some 0x0D
  | 'e' => some 0x1B
  | ' ' => some 0x20
  | '"' => some 0x22
  | '/' => some 0x2F
  | '\\' => some 0x5C
  | 'N' => some 0x85
  | '_' => some 0xA0
  | 'L' => some 0x2028
  | 'P' => some 0x2029
  | _ => none

/-- How many hexadecimal digits follow the letter of a code escape. -/
def codeLength? : Char → Option Nat
  | 'x' => some 2
  | 'u' => some 4
  | 'U' => some 8
  | _ => none

/-- The character of a code point. -/
def character? (code : Nat) : Option Char :=
  if code.isValidChar then some (Char.ofNat code) else none

def codeCharacter? (digits : List Char) : Option Char :=
  (Text.number? 16 digits).bind character?

/-- Reads a scalar in double quotes whose opening quote is behind. -/
def readDouble : Nat → List Char → Option (List Char × List Char)
  | 0, _ => none
  | _, [] => none
  | fuel + 1, character :: rest =>
    let put (read : List Char) (rest : List Char) :=
      (readDouble fuel rest).map fun (value, rest) => (read ++ value, rest)
    if character = '"' then some ([], rest)
    else if character = '\\' then
      match rest with
      | [] => none
      | '\n' :: rest => put [] (rest.dropWhile isSpace)
      | letter :: rest =>
        match codeLength? letter, namedEscape? letter with
        | some length, _ =>
          if rest.length < length then none
          else (codeCharacter? (rest.take length)).bind fun meant => put [meant] (rest.drop length)
        | none, some code => put [Char.ofNat code] rest
        | none, none => none
    else if isGap character then
      let gap := (character :: rest).takeWhile isGap
      put (folded gap) ((character :: rest).dropWhile isGap)
    else put [character] rest

/-- Reads a scalar in single quotes whose opening quote is behind. -/
def readSingle : Nat → List Char → Option (List Char × List Char)
  | 0, _ => none
  | _, [] => none
  | fuel + 1, character :: rest =>
    let put (read : List Char) (rest : List Char) :=
      (readSingle fuel rest).map fun (value, rest) => (read ++ value, rest)
    if character = '\'' then
      match rest with
      | '\'' :: rest => put ['\''] rest
      | rest => some ([], rest)
    else if isGap character then
      let gap := (character :: rest).takeWhile isGap
      put (folded gap) ((character :: rest).dropWhile isGap)
    else put [character] rest

def readQuoted : List Char → Option (Option (List Char × List Char))
  | '"' :: rest => some (readDouble (rest.length + 1) rest)
  | '\'' :: rest => some (readSingle (rest.length + 1) rest)
  | _ => none

/-! ### Flow collections -/

/-- Whether a character separates the items of a flow collection or bounds it. -/
def isFlowMark (character : Char) : Bool := ",[]\x7b\x7d".toList.contains character

def startsPlain (inFlow : Bool) : List Char → Bool
  | [] => false
  | character :: rest =>
    if "-?:".toList.contains character then
      match rest with
      | [] => false
      | next :: _ => !isGap next && !(inFlow && isFlowMark next)
    else !(isGap character || isFlowMark character || "#&*!|>'\"%@\x60".toList.contains character)

/-- The text without blanks, line ends and comments in front. -/
def skipFlow : Nat → List Char → List Char
  | 0, text => text
  | fuel + 1, text =>
    match text.dropWhile isGap with
    | '#' :: later => skipFlow fuel (later.dropWhile (· != '\n'))
    | rest => rest

/-- Reads a plain scalar in a flow collection. -/
def readFlowPlain : Nat → List Char → Option (List Char × List Char)
  | 0, _ => none
  | _, [] => some ([], [])
  | fuel + 1, character :: rest =>
    let put (read : List Char) (rest : List Char) :=
      (readFlowPlain fuel rest).map fun (value, rest) => (read ++ value, rest)
    if isFlowMark character then some ([], character :: rest)
    else if character = ':' then
      match rest with
      | [] => some ([], [':'])
      | next :: _ =>
        if isGap next then some ([], ':' :: rest) else if isFlowMark next then none else put [':'] rest
    else if isGap character then
      let gap := (character :: rest).takeWhile isGap
      let later := (character :: rest).dropWhile isGap
      if later.head? = some '#' then some ([], character :: rest) else put (folded gap) later
    else put [character] rest

mutual

def readFlow : Nat → List Char → Option (Yaml × List Char)
  | 0, _ => none
  | fuel + 1, input =>
    match readQuoted input with
    | some read => read.map fun (value, rest) => (scalar (String.ofList value) false, rest)
    | none =>
      match input with
      | '[' :: rest => (readFlowItems fuel rest).map fun (items, rest) => (sequence items, rest)
      | '\x7b' :: rest => (readFlowEntries fuel rest).map fun (entries, rest) => (mapping entries, rest)
      | _ =>
        if startsPlain true input then
          (readFlowPlain (input.length + 1) input).map fun (value, rest) =>
            (scalar (String.ofList (trimGapEnd value)) true, rest)
        else none

/-- Reads the value after a key in a flow collection, which may be missing. -/
def readFlowValue : Nat → List Char → Option (Yaml × List Char)
  | 0, _ => none
  | fuel + 1, input =>
    match skipFlow (input.length + 1) input with
    | ',' :: rest => some (nothing, ',' :: rest)
    | '\x7d' :: rest => some (nothing, '\x7d' :: rest)
    | ']' :: rest => some (nothing, ']' :: rest)
    | rest => readFlow fuel rest

/-- Reads the items of a flow sequence up to its closing bracket. -/
def readFlowItems : Nat → List Char → Option (List Yaml × List Char)
  | 0, _ => none
  | fuel + 1, input =>
    match skipFlow (input.length + 1) input with
    | ']' :: rest => some ([], rest)
    | start =>
      match readFlow fuel start with
      | none => none
      | some (item, rest) =>
        let read : Option (Yaml × List Char) :=
          match skipFlow (rest.length + 1) rest with
          | ':' :: rest =>
            (readFlowValue fuel rest).map fun (value, rest) => (mapping [(item, value)], rest)
          | rest => some (item, rest)
        match read with
        | none => none
        | some (item, rest) =>
          match skipFlow (rest.length + 1) rest with
          | ']' :: rest => some ([item], rest)
          | ',' :: rest => (readFlowItems fuel rest).map fun (items, rest) => (item :: items, rest)
          | _ => none

def readFlowEntries : Nat → List Char → Option (List (Yaml × Yaml) × List Char)
  | 0, _ => none
  | fuel + 1, input =>
    match skipFlow (input.length + 1) input with
    | '\x7d' :: rest => some ([], rest)
    | start =>
      match readFlow fuel start with
      | none => none
      | some (key, rest) =>
        let read : Option (Yaml × List Char) :=
          match skipFlow (rest.length + 1) rest with
          | ':' :: rest => readFlowValue fuel rest
          | rest => some (nothing, rest)
        match read with
        | none => none
        | some (value, rest) =>
          match skipFlow (rest.length + 1) rest with
          | '\x7d' :: rest => some ([(key, value)], rest)
          | ',' :: rest =>
            (readFlowEntries fuel rest).map fun (entries, rest) => ((key, value) :: entries, rest)
          | _ => none

end

/-! ### Lines -/

abbrev Lines := List (List Char)

/-- A line with something on it: its indentation, what is on it, and the lines below. -/
structure Line where
  indent : Nat
  text : List Char
  below : Lines

/-- The next line with something on it. A tab in front counts as something: no node starts with it. -/
def nextLine : Lines → Option Line
  | [] => none
  | line :: below =>
    let text := line.dropWhile (· == ' ')
    if text.isEmpty || text.head? == some '#' then nextLine below
    else some ⟨line.length - text.length, text, below⟩

def isLineEnd (rest : List Char) : Bool :=
  let later := rest.dropWhile isSpace
  later.isEmpty || later.head? == some '#'

def joined (text : List Char) (below : Lines) : List Char :=
  text ++ below.flatMap fun line => '\n' :: line

/-- The lines below the rest of a line, if that rest says nothing more. -/
def linesAfter (rest : List Char) : Option Lines :=
  match rest.splitOnP (· == '\n') with
  | [] => some []
  | first :: below => if isLineEnd first then some below else none

/-- Whether an item of a block sequence starts here. -/
def isDash : List Char → Bool
  | '-' :: rest => atGap rest
  | _ => false

/-- The part of a plain scalar on one line, and what is left of the line: a comment, or a colon that
ends a key. -/
def plainPart (afterSpace : Bool) : List Char → List Char × List Char
  | [] => ([], [])
  | character :: rest =>
    if (character = ':' && atGap rest) || (character = '#' && afterSpace) then ([], character :: rest)
    else
      let (part, later) := plainPart (isSpace character) rest
      (character :: part, later)

def isMarkedKey : List Char → Bool
  | '?' :: rest => atGap rest
  | _ => false

/-- Whether the value of a key after a mark of its own starts here. -/
def isMarkedValue : List Char → Bool
  | ':' :: rest => atGap rest
  | _ => false

/-- A key at the start of a line, and what follows its colon. -/
def splitKey (text : List Char) : Option (Yaml × List Char) :=
  let split : Option (Yaml × List Char) :=
    match readQuoted text with
    | some read => read.map fun (value, rest) => (scalar (String.ofList value) false, rest)
    | none =>
      if startsPlain false text then
        let (part, rest) := plainPart false text
        some (scalar (String.ofList (trimGapEnd part)) true, rest)
      else none
  match split with
  | none => none
  | some (key, rest) =>
    match rest.dropWhile isSpace with
    | ':' :: later => if atGap later then some (key, later) else none
    | _ => none

/-! ### Scalars over several lines -/

/-- The lines by which a plain scalar goes on, as long as they are indented far enough: the blank lines
in front of each count as line ends. -/
def continuePlain (indent : Nat) (blankLines : Nat) : Lines → Option (List Char × Lines)
  | [] => some ([], [])
  | line :: below =>
    let text := line.dropWhile isSpace
    let column := (line.takeWhile (· == ' ')).length
    if text.isEmpty && (column = line.length || indent ≤ column) then
      (continuePlain indent (blankLines + 1) below).map fun (more, rest) =>
        if more.isEmpty then ([], line :: below) else (more, rest)
    else if text.isEmpty || column < indent || text.head? == some '#' then some ([], line :: below)
    else
      let (part, later) := plainPart true text
      let gap := folded (List.replicate (blankLines + 1) '\n')
      match later with
      | [] =>
        (continuePlain indent 0 below).map fun (more, rest) => (gap ++ trimGapEnd part ++ more, rest)
      | '#' :: _ => some (gap ++ trimGapEnd part, below)
      | _ => none

def readPlain (indent : Nat) (text : List Char) (below : Lines) : Option (Yaml × Lines) :=
  let (part, later) := plainPart false text
  match later with
  | [] =>
    (continuePlain indent 0 below).map fun (more, rest) =>
      (scalar (String.ofList (trimGapEnd part ++ more)) true, rest)
  | '#' :: _ => some (scalar (String.ofList (trimGapEnd part)) true, below)
  | _ => none

/-- Which line ends at the end of a literal block count. -/
inductive Chomping where
  | clip
  | strip
  | keep
  deriving DecidableEq, Inhabited

def blockHeader? (text : List Char) : Option (Option Nat × Chomping) :=
  let marks := text.takeWhile fun character => !isSpace character
  let chomping (marks : List Char) : Option Chomping :=
    match marks with
    | [] => some .clip
    | ['-'] => some .strip
    | ['+'] => some .keep
    | _ => none
  if !isLineEnd (text.drop marks.length) then none
  else
    match marks with
    | digit :: rest =>
      if digit.isDigit then
        if digit = '0' then none
        else (chomping rest).map fun chomping => (some (digit.toNat - '0'.toNat), chomping)
      else
        match rest with
        | [last] =>
          if last.isDigit && last != '0' then
            (chomping [digit]).map fun chomping => (some (last.toNat - '0'.toNat), chomping)
          else none
        | [] => (chomping [digit]).map fun chomping => (none, chomping)
        | _ => none
    | [] => some (none, .clip)

def isEmptyLine (line : List Char) : Bool := line.all (· == ' ')

/-- The lines of a literal block that is indented by a number of spaces, and the lines below it. -/
def literalBlock (indent : Nat) (lines : Lines) : Lines × Lines :=
  let (inside, below) :=
    lines.span fun line =>
      isEmptyLine line || decide (indent ≤ (line.takeWhile (· == ' ')).length)
  (inside.map fun line => line.drop indent, below)

def readLiteral (parentIndent : Nat) (header : List Char) (below : Lines) : Option (Yaml × Lines) := do
  let (given, chomping) ← blockHeader? header
  let found :=
    match below.find? fun line => !isEmptyLine line with
    | some line => Nat.max parentIndent (line.takeWhile (· == ' ')).length
    | none => parentIndent
  let indent :=
    match given with
    | some more => parentIndent - 1 + more
    | none => found
  let (inside, rest) := literalBlock indent below
  let lines := (inside.reverse.dropWhile List.isEmpty).reverse
  let blanks := inside.length - lines.length
  let text := ("\n".toList).intercalate lines
  let ending :=
    match chomping with
    | .strip => []
    | .clip => if lines.isEmpty then [] else ['\n']
    | .keep => List.replicate (if lines.isEmpty then blanks else blanks + 1) '\n'
  return (scalar (String.ofList (text ++ ending)) false, rest)

/-- Reads a scalar or a flow collection that starts on a line. Lines by which it goes on are indented at
least as far as given. -/
def readInline (indent : Nat) (text : List Char) (below : Lines) : Option (Yaml × Lines) :=
  let finish (read : Option (Yaml × List Char)) : Option (Yaml × Lines) :=
    read.bind fun (node, rest) => (linesAfter rest).map fun below => (node, below)
  let all := joined text below
  match text with
  | '|' :: header => readLiteral indent header below
  | character :: _ =>
    if character = '[' || character = '\x7b' then finish (readFlow (2 * all.length + 2) all)
    else
      match readQuoted all with
      | some read => finish (read.map fun (value, rest) => (scalar (String.ofList value) false, rest))
      | none => if startsPlain false text then readPlain indent text below else none
  | [] => none

/-! ### Blocks -/

mutual

def readBlock : Nat → Nat → Lines → Option (Yaml × Lines)
  | 0, _, _ => none
  | fuel + 1, indent, lines =>
    match nextLine lines with
    | none => some (nothing, [])
    | some line =>
      if line.indent < indent then some (nothing, lines) else readNode fuel indent line

/-- Reads the node that starts on a line. -/
def readNode : Nat → Nat → Line → Option (Yaml × Lines)
  | 0, _, _ => none
  | fuel + 1, indent, line =>
    let here := List.replicate line.indent ' ' ++ line.text
    if line.text.head? == some '\t' then none
    else if isDash line.text then
      (readItems fuel line.indent (here :: line.below)).map fun (items, rest) => (sequence items, rest)
    else if isMarkedKey line.text || (splitKey line.text).isSome then
      (readEntries fuel line.indent (here :: line.below)).map fun (entries, rest) =>
        (mapping entries, rest)
    else readInline indent line.text line.below

def readMarked : Nat → Line → Option (Yaml × Lines)
  | 0, _ => none
  | fuel + 1, line =>
    let later := line.text.drop 1
    if isLineEnd later then readBlock fuel (line.indent + 1) line.below
    else
      let text := later.dropWhile (· == ' ')
      readNode fuel (line.indent + 1)
        ⟨line.indent + (line.text.length - text.length), text, line.below⟩

def readItems : Nat → Nat → Lines → Option (List Yaml × Lines)
  | 0, _, _ => none
  | fuel + 1, indent, lines =>
    match nextLine lines with
    | none => some ([], [])
    | some line =>
      if line.indent < indent || (line.indent = indent && !isDash line.text) then some ([], lines)
      else if indent < line.indent then none
      else
        match readMarked fuel line with
        | none => none
        | some (item, rest) => (readItems fuel indent rest).map fun (items, rest) => (item :: items, rest)

/-- Reads the entries of a block mapping whose keys stand at an indentation. -/
def readEntries : Nat → Nat → Lines → Option (List (Yaml × Yaml) × Lines)
  | 0, _, _ => none
  | fuel + 1, indent, lines =>
    match nextLine lines with
    | none => some ([], [])
    | some line =>
      if line.indent < indent || (line.indent = indent && isDash line.text) then some ([], lines)
      else if indent < line.indent then none
      else if isMarkedKey line.text then
        match readMarked fuel line with
        | none => none
        | some (key, rest) =>
          let value :=
            match nextLine rest with
            | some next =>
              if next.indent = indent && isMarkedValue next.text then readMarked fuel next
              else some (nothing, rest)
            | none => some (nothing, [])
          match value with
          | none => none
          | some (value, rest) =>
            (readEntries fuel indent rest).map fun (entries, rest) => ((key, value) :: entries, rest)
      else
        match splitKey line.text with
        | none => none
        | some (key, later) =>
          let value :=
            if isLineEnd later then
              match nextLine line.below with
              | some next =>
                if next.indent = indent && isDash next.text then
                  (readItems fuel indent line.below).map fun (items, rest) => (sequence items, rest)
                else readBlock fuel (indent + 1) line.below
              | none => some (nothing, [])
            else readInline (indent + 1) (later.dropWhile isSpace) line.below
          match value with
          | none => none
          | some (value, rest) =>
            (readEntries fuel indent rest).map fun (entries, rest) => ((key, value) :: entries, rest)

end

/-! ### Documents -/

def startsWithMark (mark : List Char) (line : List Char) : Bool :=
  mark.isPrefixOf line && atGap (line.drop mark.length)

def isDocumentStart (line : List Char) : Bool := startsWithMark ['-', '-', '-'] line

def isDocumentEnd (line : List Char) : Bool := startsWithMark ['.', '.', '.'] line

def isSilent (line : List Char) : Bool := (nextLine [line]).isNone

def unified : List Char → List Char
  | [] => []
  | '\r' :: '\n' :: rest => '\n' :: unified rest
  | '\r' :: rest => '\n' :: unified rest
  | character :: rest => character :: unified rest

/-- Whether a character may stand in a document. -/
def isAllowed (character : Char) : Bool :=
  let code := character.toNat
  [0x09, 0x0A, 0x0D, 0x85].contains code || (0x20 ≤ code && code ≤ 0x7E) ||
    (0xA0 ≤ code && code ≤ 0xFFFD) || 0x10000 ≤ code

def dropMark : List Char → List Char
  | '\uFEFF' :: rest => rest
  | text => text

/-- The lines of the first document, and the lines after it. -/
def firstDocument (lines : Lines) : Lines × Lines :=
  let content := lines.dropWhile isSilent
  let body :=
    match content with
    | [] => []
    | line :: below =>
      if isDocumentStart line then (List.replicate 3 ' ' ++ line.drop 3) :: below else content
  body.span fun line => !(isDocumentStart line || isDocumentEnd line)

def holdNothing (lines : Lines) : Bool := lines.all fun line => isSilent line || isDocumentEnd line

/-- The node that a whole text writes, if it holds one document. -/
def parse? (input : String) : Option Yaml :=
  let characters := unified (dropMark input.toList)
  let (document, after) := firstDocument (characters.splitOnP (· == '\n'))
  if !characters.all isAllowed || !holdNothing after then none
  else
    match readBlock (4 * characters.length + 8) 0 document with
    | some (node, rest) => if (nextLine rest).isNone then some node else none
    | none => none

end Retrace.Yaml
