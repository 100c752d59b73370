import PageBuilder.Json.Basic

/-!
Numerals of JSON texts and the numbers they stand for. A numeral of digits alone is a whole number
if 64 bits hold it. Any other numeral has a significand of at most 64 bits: the digits are taken
from the left as long as they fit, and those after them count only for the power of ten.
-/

namespace PageBuilder

open Decimal (Binary64)

structure Numeral where
  negative : Bool
  whole : List Char
  fraction : Option (List Char)
  exponent : Option (Bool × List Char)

namespace Numeral

def digitValue (char : Char) : Nat := char.toNat - 48

def value (digits : List Char) : Nat := digits.foldl (fun sum char => 10 * sum + digitValue char) 0

/-- The significand with the digits that fit, and how many digits are left over. -/
def takeDigits (significand : Nat) : List Char → Nat × Nat
  | [] => (significand, 0)
  | char :: rest =>
      let longer := 10 * significand + digitValue char
      if longer < 0x10000000000000000 then takeDigits longer rest
      else (significand, rest.length + 1)

/-- A whole number below the range of 64 bits, and minus zero, are floats. -/
def ofWhole? (negative : Bool) (significand : Nat) : Option JsonNumber :=
  if negative then
    if significand = 0 then some (.float (Binary64.zero true))
    else
      match if significand ≤ 0x8000000000000000 then JsonNumber.ofInt? (-significand) else none with
      | some number => some number
      | none => (Binary64.ofScaled? true significand 0).map .float
  else JsonNumber.ofInt? significand

/-- An exponent past 31 bits makes the number zero or too large, whatever the other digits. -/
def ofScaled? (negative : Bool) (significand : Nat) (power : Int)
    (exponent : Option (Bool × List Char)) : Option JsonNumber :=
  match exponent with
  | none => (Binary64.ofScaled? negative significand power).map .float
  | some (down, digits) =>
      let size := value digits
      if size < 0x80000000 then
        let power := if down then power - size else power + size
        (Binary64.ofScaled? negative significand power).map .float
      else if significand = 0 || down then some (.float (Binary64.zero negative))
      else none

/-- None for a number too large for double precision. -/
def number? (numeral : Numeral) : Option JsonNumber :=
  let (significand, dropped) := takeDigits 0 numeral.whole
  match numeral.fraction, numeral.exponent with
  | none, none =>
      if dropped = 0 then ofWhole? numeral.negative significand
      else ofScaled? numeral.negative significand dropped none
  | none, exponent => ofScaled? numeral.negative significand dropped exponent
  | some digits, exponent =>
      let (significand, left) := takeDigits significand digits
      let used : Nat := digits.length - left
      ofScaled? numeral.negative significand ((dropped : Int) - used) exponent

end Numeral

end PageBuilder
