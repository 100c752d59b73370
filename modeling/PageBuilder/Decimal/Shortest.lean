import PageBuilder.Decimal.Binary64

/-!
The fewest decimal digits that still read back as the same number, and of those the nearest to it.
Everything is compared exactly, on naturals.
-/

namespace PageBuilder.Decimal

/-- A magnitude `digits * 10 ^ power`. -/
structure Scaled where
  digits : Nat
  power : Int
  deriving DecidableEq

/-- `quarters` counts quarter units of the last binary place. -/
def compareQuarters (value : Scaled) (quarters : Nat) (power : Int) : Ordering :=
  let tens := value.power.toNat
  let tenths := (-value.power).toNat
  let twos := (power - 2).toNat
  let halves := (2 - power).toNat
  compare ((value.digits * Nat.pow 10 tens) <<< halves) ((quarters <<< twos) * Nat.pow 10 tenths)

/-- The decimals that round to a magnitude lie half a unit around it, a quarter below the least
magnitude of its power. Both ends belong to an even magnitude. -/
def readsBack (rank : Nat) (value : Scaled) : Bool :=
  let exact := dyadicOfRank rank
  let below := if hiddenBit < rank && rank % hiddenBit = 0 then 1 else 2
  let low := compareQuarters value (4 * exact.whole - below) exact.power
  let high := compareQuarters value (4 * exact.whole + 2) exact.power
  if rank % 2 = 0 then low != .lt && high != .gt else low = .gt && high = .lt

def leadingPower (ratio : Ratio) : Int :=
  if ratio.below ≤ ratio.above then ((Nat.toDigits 10 ratio.floor).length : Int) - 1
  else -((Nat.toDigits 10 (ratio.below / ratio.above)).length : Int)

def gridFloor (ratio : Ratio) (power : Int) : Nat :=
  if 0 ≤ power then ratio.above / (ratio.below * Nat.pow 10 power.toNat)
  else ratio.above * Nat.pow 10 (-power).toNat / ratio.below

/-- Of two grid points that both read back the nearer is taken, at a tie the even one. -/
def nearerPoint (rank floor : Nat) (power : Int) : Scaled :=
  let exact := dyadicOfRank rank
  let middle : Scaled := ⟨(2 * floor + 1) * 5, power - 1⟩
  match compareQuarters middle (4 * exact.whole) exact.power with
  | .lt => ⟨floor + 1, power⟩
  | .gt => ⟨floor, power⟩
  | .eq => ⟨if floor % 2 = 0 then floor else floor + 1, power⟩

def gridPoint? (rank : Nat) (power : Int) : Option Scaled :=
  let floor := gridFloor (dyadicOfRank rank).ratio power
  match readsBack rank ⟨floor, power⟩, readsBack rank ⟨floor + 1, power⟩ with
  | true, true => some (nearerPoint rank floor power)
  | true, false => some ⟨floor, power⟩
  | false, true => some ⟨floor + 1, power⟩
  | false, false => none

/-- Seventeen digits are enough for every number. -/
def shortestScaled (rank : Nat) : Scaled :=
  let lead := leadingPower (dyadicOfRank rank).ratio
  let grids := (List.range 17).map fun (step : Nat) => lead - step
  (grids.findSome? (gridPoint? rank)).getD ⟨0, 0⟩

def Scaled.strip (value : Scaled) : Scaled :=
  if value.digits = 0 then ⟨0, 0⟩
  else if value.digits % 10 = 0 then Scaled.strip ⟨value.digits / 10, value.power + 1⟩
  else value
termination_by value.digits

structure Spelling where
  /-- The least power of the first digit that is written without an exponent. -/
  positionalFrom : Int
  /-- The least power of the first digit above those. -/
  positionalBelow : Int
  /-- What stands before an exponent that is not negative. -/
  plus : String

def zeros (count : Nat) : String := String.ofList (List.replicate count '0')

def decimalDigits (value : Nat) : List Char := Nat.toDigits 10 value

def positionalText (digits : List Char) (lead : Int) : String :=
  if lead < 0 then "0." ++ zeros (-lead - 1).toNat ++ String.ofList digits
  else
    let whole := lead.toNat + 1
    if digits.length ≤ whole then String.ofList digits ++ zeros (whole - digits.length) ++ ".0"
    else String.ofList (digits.take whole) ++ "." ++ String.ofList (digits.drop whole)

def exponentText (spelling : Spelling) (digits : List Char) (lead : Int) : String :=
  let point := if digits.length ≤ 1 then "" else "."
  let sign := if lead < 0 then "-" else spelling.plus
  String.ofList (digits.take 1) ++ point ++ String.ofList (digits.drop 1) ++ "e" ++ sign
    ++ String.ofList (decimalDigits lead.natAbs)

def magnitudeText (spelling : Spelling) (rank : Nat) : String :=
  if rank = 0 then "0.0"
  else
    let value := (shortestScaled rank).strip
    let digits := decimalDigits value.digits
    let lead := value.power + (digits.length : Int) - 1
    if spelling.positionalFrom ≤ lead && lead < spelling.positionalBelow then
      positionalText digits lead
    else exponentText spelling digits lead

def Binary64.text (spelling : Spelling) (number : Binary64) : String :=
  (if number.negative then "-" else "") ++ magnitudeText spelling number.rank

end PageBuilder.Decimal
