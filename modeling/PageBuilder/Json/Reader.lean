import PageBuilder.Json.Numeral
import PageBuilder.Json.Written

/-!
Reads JSON texts. The grammar is strict: one value, with nothing but blanks around it, no control
character inside a string, no digit before or after its place.
-/

namespace PageBuilder.Json

def isSpace (char : Char) : Bool := char = ' ' || char = '\n' || char = '\t' || char = '\r'

def skipSpace (chars : List Char) : List Char := chars.dropWhile isSpace

/-- A character of a string, or one of the sixteen bit units that an escape names. -/
inductive Piece where
  | char (value : Char)
  | unit (value : Nat)

def isHighHalf (unit : Nat) : Bool := 0xD800 ≤ unit && unit < 0xDC00

def isLowHalf (unit : Nat) : Bool := 0xDC00 ≤ unit && unit < 0xE000

/-- Two halves of a pair make one character; a half by itself makes none. -/
def joinPieces : List Piece → Option (List Char)
  | [] => some []
  | .char value :: rest => (joinPieces rest).map (value :: ·)
  | .unit high :: .unit low :: rest =>
      if isHighHalf high then
        if isLowHalf low then
          let code := 0x10000 + (high - 0xD800) * 0x400 + (low - 0xDC00)
          (joinPieces rest).map (Char.ofNat code :: ·)
        else none
      else if isLowHalf high then none
      else (joinPieces (.unit low :: rest)).map (Char.ofNat high :: ·)
  | .unit value :: rest =>
      if isHighHalf value || isLowHalf value then none
      else (joinPieces rest).map (Char.ofNat value :: ·)

def hexValue? (char : Char) : Option Nat :=
  let code := char.toNat
  if 48 ≤ code && code ≤ 57 then some (code - 48)
  else if 65 ≤ code && code ≤ 70 then some (code - 55)
  else if 97 ≤ code && code ≤ 102 then some (code - 87)
  else none

def unit? (first second third fourth : Char) : Option Nat := do
  let first ← hexValue? first
  let second ← hexValue? second
  let third ← hexValue? third
  let fourth ← hexValue? fourth
  some (((first * 16 + second) * 16 + third) * 16 + fourth)

def escape? (char : Char) : Option Char :=
  match char with
  | '"' => some '"'
  | '\\' => some '\\'
  | '/' => some '/'
  | 'b' => some '\x08'
  | 'f' => some '\x0c'
  | 'n' => some '\n'
  | 'r' => some '\r'
  | 't' => some '\t'
  | _ => none

def readPieces : List Char → Option (List Piece × List Char)
  | [] => none
  | '"' :: rest => some ([], rest)
  | '\\' :: 'u' :: first :: second :: third :: fourth :: rest => do
      let unit ← unit? first second third fourth
      let (pieces, rest) ← readPieces rest
      some (.unit unit :: pieces, rest)
  | '\\' :: escaped :: rest => do
      let char ← escape? escaped
      let (pieces, rest) ← readPieces rest
      some (.char char :: pieces, rest)
  | char :: rest =>
      if char = '\\' || char.toNat < 0x20 then none
      else do
        let (pieces, rest) ← readPieces rest
        some (.char char :: pieces, rest)

/-- A string whose opening quote is read; its value may be missing. -/
def readString (chars : List Char) : Option (Option String × List Char) := do
  let (pieces, rest) ← readPieces chars
  some ((joinPieces pieces).map String.ofList, rest)

def isDigit (char : Char) : Bool := '0' ≤ char && char ≤ '9'

def readDigits (chars : List Char) : Option (List Char × List Char) :=
  let digits := chars.takeWhile isDigit
  if digits.isEmpty then none else some (digits, chars.dropWhile isDigit)

/-- A zero stands alone before the point. -/
def readWhole (chars : List Char) : Option (List Char × List Char) := do
  let (digits, rest) ← readDigits chars
  if digits.head? = some '0' && digits.length ≠ 1 then none else some (digits, rest)

def readFraction : List Char → Option (Option (List Char) × List Char)
  | '.' :: rest => do
      let (digits, rest) ← readDigits rest
      some (some digits, rest)
  | chars => some (none, chars)

def readExponentDigits (down : Bool) (chars : List Char) :
    Option (Option (Bool × List Char) × List Char) := do
  let (digits, rest) ← readDigits chars
  some (some (down, digits), rest)

def readExponent : List Char → Option (Option (Bool × List Char) × List Char)
  | char :: rest =>
      if char = 'e' || char = 'E' then
        match rest with
        | '-' :: digits => readExponentDigits true digits
        | '+' :: digits => readExponentDigits false digits
        | digits => readExponentDigits false digits
      else some (none, char :: rest)
  | [] => some (none, [])

def readUnsigned (negative : Bool) (chars : List Char) : Option (Numeral × List Char) := do
  let (whole, rest) ← readWhole chars
  let (fraction, rest) ← readFraction rest
  let (exponent, rest) ← readExponent rest
  some (⟨negative, whole, fraction, exponent⟩, rest)

def readNumeral : List Char → Option (Numeral × List Char)
  | '-' :: rest => readUnsigned true rest
  | chars => readUnsigned false chars

def readName (chars : List Char) : Option (Option String × List Char) :=
  match skipSpace chars with
  | '"' :: rest => do
      let (name, rest) ← readString rest
      match skipSpace rest with
      | ':' :: rest => some (name, rest)
      | _ => none
  | _ => none

mutual

/-- Every step takes a character or goes on to a smaller task, so twice the length of the text is
fuel enough. -/
def readValue : Nat → List Char → Option (Written × List Char)
  | 0, _ => none
  | fuel + 1, chars =>
      match skipSpace chars with
      | '"' :: rest => do
          let (text, rest) ← readString rest
          some (.string text, rest)
      | '[' :: rest =>
          match skipSpace rest with
          | ']' :: rest => some (.array [], rest)
          | rest => do
              let (items, rest) ← readItems fuel rest
              some (.array items, rest)
      | '\x7b' :: rest =>
          match skipSpace rest with
          | '\x7d' :: rest => some (.object [], rest)
          | rest => do
              let (fields, rest) ← readFields fuel rest
              some (.object fields, rest)
      | 't' :: 'r' :: 'u' :: 'e' :: rest => some (.bool true, rest)
      | 'f' :: 'a' :: 'l' :: 's' :: 'e' :: rest => some (.bool false, rest)
      | 'n' :: 'u' :: 'l' :: 'l' :: rest => some (.null, rest)
      | chars => do
          let (numeral, rest) ← readNumeral chars
          some (.number numeral.number?, rest)

def readItems : Nat → List Char → Option (List Written × List Char)
  | 0, _ => none
  | fuel + 1, chars => do
      let (item, rest) ← readValue fuel chars
      match skipSpace rest with
      | ',' :: rest => do
          let (items, rest) ← readItems fuel rest
          some (item :: items, rest)
      | ']' :: rest => some ([item], rest)
      | _ => none

def readFields : Nat → List Char → Option (List (Option String × Written) × List Char)
  | 0, _ => none
  | fuel + 1, chars => do
      let (name, rest) ← readName chars
      let (value, rest) ← readValue fuel rest
      match skipSpace rest with
      | ',' :: rest => do
          let (fields, rest) ← readFields fuel rest
          some ((name, value) :: fields, rest)
      | '\x7d' :: rest => some ([(name, value)], rest)
      | _ => none

end

def read? (text : String) : Option Written := do
  let chars := text.toList
  let (value, rest) ← readValue (2 * chars.length + 2) chars
  if (skipSpace rest).isEmpty then some value else none

end PageBuilder.Json
