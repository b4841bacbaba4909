import Retrace.Json
import Retrace.Text.Digits

/-!
# Writing JSON

A value in its compact form, without blanks, and in its indented form, one item a line.
-/

namespace Retrace.Json

def controlEscape (character : Char) : List Char :=
  '\\' :: 'u' :: Text.padded 16 4 character.toNat

def writtenChar (character : Char) : List Char :=
  match character with
  | '"' => ['\\', '"']
  | '\\' => ['\\', '\\']
  | '\n' => ['\\', 'n']
  | '\r' => ['\\', 'r']
  | '\t' => ['\\', 't']
  | '\x08' => ['\\', 'b']
  | '\x0c' => ['\\', 'f']
  | _ => if character.toNat < 0x20 then controlEscape character else [character]

def writtenText (value : String) : List Char :=
  '"' :: value.toList.flatMap writtenChar ++ ['"']

def writtenLeaf : Json → List Char
  | null => "null".toList
  | bool true => "true".toList
  | bool false => "false".toList
  | integer value => (toString value).toList
  | decimal literal => literal.toList
  | text value => writtenText value
  | array _ => "[]".toList
  | object _ => ['\x7b', '\x7d']

mutual

/-- The compact form of a value. -/
def compactChars : Json → List Char
  | array items => '[' :: compactItems items ++ [']']
  | object members => '\x7b' :: compactMembers members ++ ['\x7d']
  | leaf => writtenLeaf leaf

/-- The items of an array with commas between them. -/
def compactItems : List Json → List Char
  | [] => []
  | [item] => compactChars item
  | item :: next :: rest => compactChars item ++ ',' :: compactItems (next :: rest)

/-- The members of an object with commas between them. -/
def compactMembers : List (String × Json) → List Char
  | [] => []
  | [(name, value)] => writtenText name ++ ':' :: compactChars value
  | (name, value) :: next :: rest =>
    writtenText name ++ ':' :: compactChars value ++ ',' :: compactMembers (next :: rest)

end

/-- The compact form of a value. -/
def compact (value : Json) : String := String.ofList (compactChars value)

def newLine (depth : Nat) : List Char := '\n' :: List.replicate (2 * depth) ' '

mutual

def indentedChars (depth : Nat) : Json → List Char
  | array (item :: rest) => '[' :: indentedItems (depth + 1) (item :: rest) ++ newLine depth ++ [']']
  | object (entry :: rest) =>
    '\x7b' :: indentedMembers (depth + 1) (entry :: rest) ++ newLine depth ++ ['\x7d']
  | leaf => writtenLeaf leaf

/-- The items of an array, each on a line of its own. -/
def indentedItems (depth : Nat) : List Json → List Char
  | [] => []
  | [item] => newLine depth ++ indentedChars depth item
  | item :: next :: rest =>
    newLine depth ++ indentedChars depth item ++ ',' :: indentedItems depth (next :: rest)

/-- The members of an object, each on a line of its own. -/
def indentedMembers (depth : Nat) : List (String × Json) → List Char
  | [] => []
  | [(name, value)] => newLine depth ++ writtenText name ++ [':', ' '] ++ indentedChars depth value
  | (name, value) :: next :: rest =>
    newLine depth ++ writtenText name ++ [':', ' '] ++ indentedChars depth value ++
      ',' :: indentedMembers depth (next :: rest)

end

/-- The indented form of a value. -/
def indented (value : Json) : String := String.ofList (indentedChars 0 value)

end Retrace.Json
