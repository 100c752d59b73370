import PageBuilder.Decimal.Shortest
import PageBuilder.Json.Basic
import PageBuilder.Text.Quoted

/-!
JSON texts of trees: the compact form without blanks, and the indented form with one field or item
a line. Fields are written in the order they have.
-/

namespace PageBuilder

open Decimal (Spelling)

/-- Floats show a fraction or an exponent, and are written without an exponent from a hundred
thousandth up to ten quadrillion. -/
def JsonNumber.spelling : Spelling := ⟨-5, 16, "+"⟩

def JsonNumber.text : JsonNumber → String
  | .int value _ => toString value
  | .float value => value.text spelling

namespace JsonTree

/-- Only quotes, backslashes and control characters below the space are escaped. -/
def escapedChar (char : Char) : List Char :=
  if char = '"' then ['\\', '"']
  else if char = '\\' then ['\\', '\\']
  else if char.toNat = 8 then ['\\', 'b']
  else if char.toNat = 12 then ['\\', 'f']
  else if char = '\n' then ['\\', 'n']
  else if char = '\r' then ['\\', 'r']
  else if char = '\t' then ['\\', 't']
  else if char.toNat < 0x20 then
    ['\\', 'u', '0', '0', Text.hexDigit (char.toNat / 16), Text.hexDigit (char.toNat % 16)]
  else [char]

def stringChars (text : String) : List Char :=
  '"' :: text.toList.flatMap escapedChar ++ ['"']

def joined (separator : List Char) : List (List Char) → List Char
  | [] => []
  | [piece] => piece
  | piece :: rest => piece ++ separator ++ joined separator rest

mutual

def compactChars : JsonTree → List Char
  | .null => "null".toList
  | .bool value => (if value then "true" else "false").toList
  | .number value => value.text.toList
  | .string value => stringChars value
  | .array items => '[' :: joined [','] (compactItems items) ++ [']']
  | .object fields => '\x7b' :: joined [','] (compactFields fields) ++ ['\x7d']

def compactItems : List JsonTree → List (List Char)
  | [] => []
  | item :: rest => compactChars item :: compactItems rest

def compactFields : List (String × JsonTree) → List (List Char)
  | [] => []
  | (name, value) :: rest => (stringChars name ++ ':' :: compactChars value) :: compactFields rest

end

def indentation (level : Nat) : List Char := List.replicate (2 * level) ' '

/-- Pieces on lines of their own between two brackets, or the bare brackets. -/
def bracketed (opening closing : Char) (level : Nat) (pieces : List (List Char)) : List Char :=
  if pieces.isEmpty then [opening, closing]
  else
    opening :: '\n' :: indentation (level + 1)
      ++ joined (',' :: '\n' :: indentation (level + 1)) pieces
      ++ '\n' :: indentation level ++ [closing]

mutual

def indentedChars (level : Nat) : JsonTree → List Char
  | .array items => bracketed '[' ']' level (indentedItems level items)
  | .object fields => bracketed '\x7b' '\x7d' level (indentedFields level fields)
  | .null => "null".toList
  | .bool value => (if value then "true" else "false").toList
  | .number value => value.text.toList
  | .string value => stringChars value

def indentedItems (level : Nat) : List JsonTree → List (List Char)
  | [] => []
  | item :: rest => indentedChars (level + 1) item :: indentedItems level rest

def indentedFields (level : Nat) : List (String × JsonTree) → List (List Char)
  | [] => []
  | (name, value) :: rest =>
      (stringChars name ++ ':' :: ' ' :: indentedChars (level + 1) value)
        :: indentedFields level rest

end

def compact (tree : JsonTree) : String := String.ofList tree.compactChars

def indented (tree : JsonTree) : String := String.ofList (tree.indentedChars 0)

end JsonTree

def Json.text (value : Json) : String := value.tree.compact

def Json.stringText (text : String) : String := String.ofList (JsonTree.stringChars text)

end PageBuilder
