import Retrace.Text.Ranges

/-!
# Blank characters

The characters with the Unicode property `White_Space`, and what is built on them: texts without
blank ends, the words of a text, and its lines.
-/

namespace Retrace.Text

def blankCodes : List (Nat × Nat) :=
  [(0x09, 0x0D), (0x20, 0x20), (0x85, 0x85), (0xA0, 0xA0), (0x1680, 0x1680), (0x2000, 0x200A),
    (0x2028, 0x2029), (0x202F, 0x202F), (0x205F, 0x205F), (0x3000, 0x3000)]

def isBlank (character : Char) : Bool := inRanges blankCodes character

def trimStart (text : List Char) : List Char := text.dropWhile isBlank

def trimEnd (text : List Char) : List Char := (text.reverse.dropWhile isBlank).reverse

def trim (text : List Char) : List Char := trimEnd (trimStart text)

/-- The non-empty runs of characters between separators, in order. -/
def wordsBy (separator : Char → Bool) (text : List Char) : List (List Char) :=
  (text.splitOnP separator).filter fun word => !word.isEmpty

def words (text : List Char) : List (List Char) := wordsBy isBlank text

def dropCarriageReturn (line : List Char) : List Char :=
  if line.getLast? = some '\r' then line.dropLast else line

/-- The lines of a text: each ends at a newline, a carriage return before the newline belongs to the
line's end, and an empty last line does not count. -/
def lines (text : List Char) : List (List Char) :=
  let pieces := text.splitOnP (· == '\n')
  pieces.dropLast.map dropCarriageReturn ++ (pieces.getLast?.toList.filter fun last => !last.isEmpty)

theorem mem_wordsBy {separator : Char → Bool} {text word : List Char} :
    word ∈ wordsBy separator text ↔ word ∈ text.splitOnP separator ∧ word ≠ [] := by
  simp [wordsBy]

end Retrace.Text
