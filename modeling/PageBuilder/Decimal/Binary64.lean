/-!
Finite numbers of double precision. The magnitudes are counted from zero upwards, so the place of
a number in that count says all about it but the sign. Arithmetic is exact on naturals and rounds
once, to the nearest number and at a tie to the even one.
-/

namespace PageBuilder.Decimal

def hiddenBit : Nat := 1 <<< 52

/-- The count of finite magnitudes. -/
def rankLimit : Nat := 2047 <<< 52

structure Binary64 where
  negative : Bool
  rank : Nat
  finite : rank < rankLimit
  deriving DecidableEq

/-- A magnitude `whole * 2 ^ power`. -/
structure Dyadic where
  whole : Nat
  power : Int
  deriving DecidableEq

/-- The first `hiddenBit` magnitudes lie evenly from zero; after them the spacing doubles with
every further `hiddenBit` magnitudes. -/
def dyadicOfRank (rank : Nat) : Dyadic :=
  if rank < hiddenBit then ⟨rank, -1074⟩
  else ⟨hiddenBit + rank % hiddenBit, (rank / hiddenBit : Nat) - 1075⟩

/-- A ratio `above / below` of naturals; `below` is not zero. -/
structure Ratio where
  above : Nat
  below : Nat

def Dyadic.ratio (value : Dyadic) : Ratio :=
  if 0 ≤ value.power then ⟨value.whole <<< value.power.toNat, 1⟩
  else ⟨value.whole, 1 <<< (-value.power).toNat⟩

def Ratio.inUnits (ratio : Ratio) (power : Int) : Ratio :=
  if 0 ≤ power then ⟨ratio.above, ratio.below <<< power.toNat⟩
  else ⟨ratio.above <<< (-power).toNat, ratio.below⟩

def Ratio.floor (ratio : Ratio) : Nat := ratio.above / ratio.below

/-- The nearest natural, the even one at a tie. -/
def Ratio.round (ratio : Ratio) : Nat :=
  let whole := ratio.above / ratio.below
  let rest := ratio.above % ratio.below
  if ratio.below < 2 * rest || (2 * rest = ratio.below && whole % 2 = 1) then whole + 1
  else whole

/-- The power of two whose multiples hold 53 digits of `ratio`, or the least power there is. -/
def Ratio.unitPower (ratio : Ratio) : Int :=
  let guess : Int := (ratio.above.log2 : Int) - (ratio.below.log2 : Int) - 52
  let power := if (ratio.inUnits guess).floor < hiddenBit then guess - 1 else guess
  max power (-1074)

/-- The rank of the nearest magnitude, which may lie past the finite ones. A carry out of the
significand moves on to the next power by itself. -/
def rankOfRatio (ratio : Ratio) : Nat :=
  if ratio.above = 0 then 0
  else
    let power := ratio.unitPower
    (power + 1074).toNat * hiddenBit + (ratio.inUnits power).round

def Binary64.isZero (number : Binary64) : Bool := number.rank = 0

def Binary64.zero (negative : Bool) : Binary64 := ⟨negative, 0, by decide⟩

/-- Equal as numbers: the two zeros count as one. -/
def Binary64.same (left right : Binary64) : Bool :=
  left = right || (left.isZero && right.isZero)

def powerOfTen (exponent : Nat) : Ratio :=
  (dyadicOfRank (rankOfRatio ⟨Nat.pow 10 exponent, 1⟩)).ratio

def Ratio.times (left right : Ratio) : Ratio :=
  ⟨left.above * right.above, left.below * right.below⟩

def Ratio.over (left right : Ratio) : Ratio :=
  ⟨left.above * right.below, left.below * right.above⟩

/-- Divides by `10 ^ down` in steps of at most 308 tens, each of which rounds. -/
def scaleDown (rank down : Nat) : Nat :=
  let ratio := (dyadicOfRank rank).ratio
  if down ≤ 308 then rankOfRatio (ratio.over (powerOfTen down))
  else if rank = 0 then 0
  else scaleDown (rankOfRatio (ratio.over (powerOfTen 308))) (down - 308)
termination_by down

/-- A significand and a power of ten as one number: the significand is rounded first, and the
product or quotient once more. A number past the finite ones is none. -/
def Binary64.ofScaled? (negative : Bool) (significand : Nat) (exponent : Int) :
    Option Binary64 :=
  let start := rankOfRatio ⟨significand, 1⟩
  let rank :=
    if exponent < 0 then scaleDown start (-exponent).toNat
    else if 308 < exponent then (if start = 0 then 0 else rankLimit)
    else rankOfRatio ((dyadicOfRank start).ratio.times (powerOfTen exponent.toNat))
  if finite : rank < rankLimit then some ⟨negative, rank, finite⟩ else none

end PageBuilder.Decimal
