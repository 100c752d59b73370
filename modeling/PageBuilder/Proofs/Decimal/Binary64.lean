import PageBuilder.Decimal.Binary64
import Mathlib.Algebra.Order.Field.Power
import Mathlib.Algebra.Order.Floor.Semifield
import Mathlib.Data.Rat.Floor
import Mathlib.Tactic.Linarith

/-!
Magnitudes as rational numbers. Rounding keeps their order, so what is rounded stays below whatever
it was below before.
-/

namespace PageBuilder.Decimal

def Ratio.value (ratio : Ratio) : ℚ := ratio.above / ratio.below

def Dyadic.value (dyadic : Dyadic) : ℚ := dyadic.whole * 2 ^ dyadic.power

def magnitude (rank : Nat) : ℚ := (dyadicOfRank rank).value

theorem shift_left_cast (value count : Nat) :
    ((value <<< count : Nat) : ℚ) = value * 2 ^ count := by
  rw [Nat.shiftLeft_eq]
  push_cast
  rfl

theorem hidden_bit_cast : (hiddenBit : ℚ) = 2 ^ 52 := by
  rw [hiddenBit, shift_left_cast, Nat.cast_one, one_mul]

/-- A power of two is above the line, or its inverse below it. -/
theorem two_zpow (power : Int) :
    (2 : ℚ) ^ power = if 0 ≤ power then 2 ^ power.toNat else (2 ^ (-power).toNat)⁻¹ := by
  split
  · rename_i up
    rw [← zpow_natCast, Int.toNat_of_nonneg up]
  · rename_i down
    rw [← zpow_natCast, Int.toNat_of_nonneg (by omega), ← zpow_neg, neg_neg]

theorem log_bounds {value : Nat} (positive : value ≠ 0) :
    (2 : ℚ) ^ (value.log2 : Int) ≤ value ∧ (value : ℚ) < 2 ^ (value.log2 + 1 : Int) := by
  constructor
  · exact_mod_cast Nat.log2_self_le positive
  · exact_mod_cast Nat.lt_log2_self

theorem hidden_bit_units (power : Int) : (hiddenBit : ℚ) * 2 ^ power = 2 ^ (power + 52) := by
  rw [hidden_bit_cast, zpow_add₀ two_ne_zero, mul_comm]
  norm_cast

theorem Dyadic.ratio_value (dyadic : Dyadic) : dyadic.ratio.value = dyadic.value := by
  rw [Dyadic.value, two_zpow, Dyadic.ratio, Ratio.value]
  split
  · rw [shift_left_cast, Nat.cast_one, div_one]
  · rw [shift_left_cast, Nat.cast_one, one_mul, div_eq_mul_inv]

theorem Dyadic.ratio_below (dyadic : Dyadic) : 0 < dyadic.ratio.below := by
  rw [Dyadic.ratio]
  split
  · exact Nat.one_pos
  · rw [Nat.shiftLeft_eq, one_mul]
    exact Nat.two_pow_pos _

namespace Ratio

variable {ratio left right : Ratio}

theorem in_units_value (ratio : Ratio) (power : Int) :
    (ratio.inUnits power).value = ratio.value / 2 ^ power := by
  rw [two_zpow, inUnits, value, value]
  split
  · rw [shift_left_cast, div_div]
  · rw [shift_left_cast, div_inv_eq_mul, div_mul_eq_mul_div]

theorem in_units_below (proper : 0 < ratio.below) (power : Int) :
    0 < (ratio.inUnits power).below := by
  rw [inUnits]
  split
  · rw [Nat.shiftLeft_eq]
    exact Nat.mul_pos proper (Nat.two_pow_pos _)
  · exact proper

theorem value_nonneg (ratio : Ratio) : 0 ≤ ratio.value :=
  div_nonneg (Nat.cast_nonneg _) (Nat.cast_nonneg _)

theorem floor_eq (ratio : Ratio) : ratio.floor = ⌊ratio.value⌋₊ := by
  rw [value, Nat.floor_div_eq_div]
  rfl

theorem floor_in_units_lt (ratio : Ratio) (power : Int) (whole : Nat) :
    (ratio.inUnits power).floor < whole ↔ ratio.value < whole * 2 ^ power := by
  rw [floor_eq, Nat.floor_lt (value_nonneg _), in_units_value, div_lt_iff₀ (zpow_pos two_pos _)]

theorem rest_eq (proper : 0 < ratio.below) :
    ((ratio.above % ratio.below : Nat) : ℚ) = (ratio.value - ratio.floor) * ratio.below := by
  have whole : ((ratio.below * ratio.floor + ratio.above % ratio.below : Nat) : ℚ) = ratio.above :=
    congrArg Nat.cast (Nat.div_add_mod ratio.above ratio.below)
  have below : (ratio.below : ℚ) ≠ 0 := Nat.cast_ne_zero.2 (Nat.ne_of_gt proper)
  push_cast at whole
  rw [sub_mul, value, div_mul_cancel₀ _ below]
  linarith

theorem round_eq (proper : 0 < ratio.below) :
    ratio.round =
      if ratio.floor + 1 / 2 < ratio.value ∨
          ratio.value = ratio.floor + 1 / 2 ∧ ratio.floor % 2 = 1 then ratio.floor + 1
      else ratio.floor := by
  have rest := rest_eq proper
  have below : (0 : ℚ) < ratio.below := Nat.cast_pos.2 proper
  have past : ratio.below < 2 * (ratio.above % ratio.below) ↔
      ratio.floor + 1 / 2 < ratio.value := by
    rw [← Nat.cast_lt (α := ℚ)]
    push_cast
    rw [rest]
    constructor
    · intro more
      by_contra less
      nlinarith
    · intro more
      nlinarith
  have half : 2 * (ratio.above % ratio.below) = ratio.below ↔
      ratio.value = ratio.floor + 1 / 2 := by
    rw [← Nat.cast_inj (R := ℚ)]
    push_cast
    rw [rest]
    constructor
    · intro same
      have scaled : (ratio.value - ratio.floor - 1 / 2) * ratio.below = 0 := by linarith
      rcases mul_eq_zero.1 scaled with zero | zero
      · linarith
      · exact absurd zero below.ne'
    · intro same
      rw [same]
      ring
  simp only [round, Bool.or_eq_true, Bool.and_eq_true, decide_eq_true_eq, past, half]
  rfl

theorem round_mono (first : 0 < left.below) (second : 0 < right.below)
    (le : left.value ≤ right.value) : left.round ≤ right.round := by
  have floors : left.floor ≤ right.floor := by
    rw [floor_eq, floor_eq]
    exact Nat.floor_le_floor le
  rw [round_eq first, round_eq second]
  rcases Nat.lt_or_eq_of_le floors with less | same
  · split <;> split <;> omega
  · rw [same]
    split
    · rename_i up
      rw [if_pos]
      rcases up with past | half
      · exact .inl (lt_of_lt_of_le past le)
      · rcases lt_or_eq_of_le le with less | equal
        · exact .inl (half.1 ▸ less)
        · exact .inr ⟨equal ▸ half.1, half.2⟩
    · split <;> omega

theorem round_bounds (proper : 0 < ratio.below) :
    ratio.floor ≤ ratio.round ∧ ratio.round ≤ ratio.floor + 1 := by
  rw [round_eq proper]
  split
  · exact ⟨Nat.le_succ _, Nat.le_refl _⟩
  · exact ⟨Nat.le_refl _, Nat.le_succ _⟩

/-- The lengths of both numbers tell how long the ratio is, up to one digit. -/
theorem log_difference_bounds (proper : 0 < ratio.below) (positive : ratio.above ≠ 0) {guess : Int}
    (guessed : (ratio.above.log2 : Int) - ratio.below.log2 - 52 = guess) :
    2 ^ (guess + 51) ≤ ratio.value ∧ ratio.value < 2 ^ (guess + 53) := by
  have above := log_bounds positive
  have below := log_bounds (Nat.ne_of_gt proper)
  have two (power : Int) : (0 : ℚ) < 2 ^ power := zpow_pos two_pos power
  have divisor : (0 : ℚ) < ratio.below := Nat.cast_pos.2 proper
  constructor
  · rw [value, le_div_iff₀ divisor]
    calc (2 : ℚ) ^ (guess + 51) * ratio.below
        ≤ 2 ^ (guess + 51) * 2 ^ (ratio.below.log2 + 1 : Int) :=
          mul_le_mul_of_nonneg_left below.2.le (two _).le
      _ = 2 ^ (ratio.above.log2 : Int) := by
          rw [← zpow_add₀ two_ne_zero]
          congr 1
          omega
      _ ≤ ratio.above := above.1
  · rw [value, div_lt_iff₀ divisor]
    calc (ratio.above : ℚ) < 2 ^ (ratio.above.log2 + 1 : Int) := above.2
      _ = 2 ^ (guess + 53) * 2 ^ (ratio.below.log2 : Int) := by
          rw [← zpow_add₀ two_ne_zero]
          congr 1
          omega
      _ ≤ 2 ^ (guess + 53) * ratio.below := mul_le_mul_of_nonneg_left below.1 (two _).le

theorem unit_power_eq (proper : 0 < ratio.below) (positive : ratio.above ≠ 0) :
    ∃ power, ratio.unitPower = max power (-1074) ∧
      2 ^ (power + 52) ≤ ratio.value ∧ ratio.value < 2 ^ (power + 53) := by
  generalize guessed : (ratio.above.log2 : Int) - ratio.below.log2 - 52 = guess
  obtain ⟨low, high⟩ := log_difference_bounds proper positive guessed
  simp only [unitPower, guessed, floor_in_units_lt, hidden_bit_units]
  -- The guess is one too far up where the ratio does not fill 53 digits of it.
  split
  · rename_i less
    refine ⟨guess - 1, rfl, ?_, ?_⟩
    · rwa [show guess - 1 + 52 = guess + 51 by omega]
    · rwa [show guess - 1 + 53 = guess + 52 by omega]
  · rename_i enough
    exact ⟨guess, rfl, not_lt.1 enough, high⟩

/-- The unit of a ratio holds fewer than 54 digits of it, and 53 if there is a smaller unit. -/
theorem unit_power_bounds (proper : 0 < ratio.below) (positive : ratio.above ≠ 0) :
    ratio.value < 2 ^ (ratio.unitPower + 53) ∧
      (-1074 < ratio.unitPower → 2 ^ (ratio.unitPower + 52) ≤ ratio.value) := by
  obtain ⟨power, same, least, most⟩ := unit_power_eq proper positive
  rw [same]
  constructor
  · apply lt_of_lt_of_le most
    apply zpow_le_zpow_right₀ one_le_two
    omega
  · intro above
    rw [max_eq_left (by omega)]
    exact least

theorem unit_power_floor (ratio : Ratio) : -1074 ≤ ratio.unitPower := le_max_right _ _

theorem unit_power_mono (first : 0 < left.below) (positive : left.above ≠ 0)
    (second : 0 < right.below) (more : right.above ≠ 0) (le : left.value ≤ right.value) :
    left.unitPower ≤ right.unitPower := by
  by_contra other
  have floor := right.unit_power_floor
  have here := (unit_power_bounds first positive).2 (by omega)
  have there := (unit_power_bounds second more).1
  have far : (2 : ℚ) ^ (right.unitPower + 53) ≤ 2 ^ (left.unitPower + 52) :=
    zpow_le_zpow_right₀ one_le_two (by omega)
  linarith

/-- A significand has at most 53 digits, and just as many if there is a smaller unit. -/
theorem significand_bounds (proper : 0 < ratio.below) (positive : ratio.above ≠ 0) :
    (ratio.inUnits ratio.unitPower).floor < 2 * hiddenBit ∧
      (-1074 < ratio.unitPower → hiddenBit ≤ (ratio.inUnits ratio.unitPower).floor) := by
  obtain ⟨most, least⟩ := unit_power_bounds proper positive
  constructor
  · rw [floor_in_units_lt]
    push_cast
    rw [mul_assoc, hidden_bit_units, ← zpow_one_add₀ two_ne_zero]
    rwa [show 1 + (ratio.unitPower + 52) = ratio.unitPower + 53 by omega]
  · intro above
    rw [← Nat.not_lt, floor_in_units_lt, hidden_bit_units, not_lt]
    exact least above

theorem above_ne_zero_of_le (first : 0 < left.below) (positive : left.above ≠ 0)
    (le : left.value ≤ right.value) : right.above ≠ 0 := by
  intro zero
  have vanishes : right.value = 0 := by rw [value, zero, Nat.cast_zero, zero_div]
  have above : 0 < left.value :=
    div_pos (Nat.cast_pos.2 (Nat.pos_of_ne_zero positive)) (Nat.cast_pos.2 first)
  linarith

end Ratio

/-- The larger of two ratios gets no smaller rank. -/
theorem rank_of_ratio_mono {left right : Ratio} (first : 0 < left.below) (second : 0 < right.below)
    (le : left.value ≤ right.value) : rankOfRatio left ≤ rankOfRatio right := by
  rw [rankOfRatio]
  split
  · exact Nat.zero_le _
  · rename_i positive
    have more := Ratio.above_ne_zero_of_le first positive le
    rw [rankOfRatio, if_neg more]
    dsimp only
    rcases lt_or_eq_of_le (Ratio.unit_power_mono first positive second more le) with less | same
    · have floor := left.unit_power_floor
      have low := (Ratio.significand_bounds first positive).1
      have high := (Ratio.significand_bounds second more).2 (by omega)
      have up := (Ratio.round_bounds (Ratio.in_units_below first left.unitPower)).2
      have down := (Ratio.round_bounds (Ratio.in_units_below second right.unitPower)).1
      -- One more power outweighs the carry that rounding may make.
      have further : ((left.unitPower + 1074).toNat + 1) * hiddenBit ≤
          (right.unitPower + 1074).toNat * hiddenBit :=
        Nat.mul_le_mul_right _ (by omega)
      rw [Nat.add_mul] at further
      omega
    · rw [same]
      apply Nat.add_le_add_left
      apply Ratio.round_mono (Ratio.in_units_below first _) (Ratio.in_units_below second _)
      rw [Ratio.in_units_value, Ratio.in_units_value]
      exact div_le_div_of_nonneg_right le (zpow_pos two_pos _).le

theorem dyadic_low {rank : Nat} (low : rank < hiddenBit) : dyadicOfRank rank = ⟨rank, -1074⟩ :=
  if_pos low

theorem dyadic_high {rank : Nat} (high : hiddenBit ≤ rank) :
    dyadicOfRank rank = ⟨hiddenBit + rank % hiddenBit, (rank / hiddenBit : Nat) - 1075⟩ :=
  if_neg (Nat.not_lt.2 high)

theorem dyadic_succ (rank : Nat) :
    dyadicOfRank (rank + 1) =
      if (dyadicOfRank rank).whole + 1 = 2 * hiddenBit then
        ⟨hiddenBit, (dyadicOfRank rank).power + 1⟩
      else ⟨(dyadicOfRank rank).whole + 1, (dyadicOfRank rank).power⟩ := by
  have bit : hiddenBit = 4503599627370496 := by decide
  rcases Nat.lt_or_ge rank hiddenBit with low | high
  · rw [dyadic_low low]
    dsimp only
    rw [if_neg (by omega)]
    rcases Nat.lt_or_ge (rank + 1) hiddenBit with next | carry
    · rw [dyadic_low next]
    · have whole : rank + 1 = hiddenBit := by omega
      rw [dyadic_high carry, whole, Nat.mod_self, Nat.div_self (by omega)]
      rfl
  · rw [dyadic_high high, dyadic_high (Nat.le_succ_of_le high)]
    simp only [bit]
    split <;> rw [Dyadic.mk.injEq] <;> omega

theorem magnitude_succ (rank : Nat) :
    magnitude (rank + 1) = ((dyadicOfRank rank).whole + 1) * 2 ^ (dyadicOfRank rank).power := by
  rw [magnitude, dyadic_succ, Dyadic.value]
  split
  · rename_i carry
    have whole : (((dyadicOfRank rank).whole + 1 : Nat) : ℚ) = (2 * hiddenBit : Nat) :=
      congrArg Nat.cast carry
    push_cast at whole
    rw [whole, zpow_add_one₀ two_ne_zero]
    ring
  · push_cast
    rfl

theorem magnitude_mono {lower upper : Nat} (le : lower ≤ upper) :
    magnitude lower ≤ magnitude upper := by
  apply monotone_nat_of_le_succ _ le
  intro rank
  rw [magnitude_succ, magnitude, Dyadic.value]
  apply mul_le_mul_of_nonneg_right _ (zpow_pos two_pos _).le
  linarith

theorem times_value (left right : Ratio) : (left.times right).value = left.value * right.value := by
  rw [Ratio.times, Ratio.value, Ratio.value, Ratio.value, div_mul_div_comm]
  push_cast
  rfl

theorem over_value (left right : Ratio) : (left.over right).value = left.value / right.value := by
  rw [Ratio.over, Ratio.value, Ratio.value, Ratio.value, div_div_div_eq]
  push_cast
  rfl

theorem whole_value (value : Nat) : Ratio.value ⟨value, 1⟩ = value := by
  rw [Ratio.value, Nat.cast_one, div_one]

theorem magnitude_of_ratio (rank : Nat) : (dyadicOfRank rank).ratio.value = magnitude rank :=
  Dyadic.ratio_value _

theorem magnitude_nonneg (rank : Nat) : 0 ≤ magnitude rank := by
  rw [← magnitude_of_ratio]
  exact Ratio.value_nonneg _

theorem power_of_ten_mono {small large : Nat} (less : small ≤ large) :
    (powerOfTen small).value ≤ (powerOfTen large).value := by
  rw [powerOfTen, powerOfTen, magnitude_of_ratio, magnitude_of_ratio]
  apply magnitude_mono
  apply rank_of_ratio_mono Nat.one_pos Nat.one_pos
  rw [whole_value, whole_value]
  exact Nat.cast_le.2 (Nat.pow_le_pow_right (by decide) less)

theorem one_le_power_of_ten (exponent : Nat) : 1 ≤ (powerOfTen exponent).value := by
  have one : (powerOfTen 0).value = 1 := by
    have exact : dyadicOfRank (rankOfRatio ⟨Nat.pow 10 0, 1⟩) = ⟨2 ^ 52, -52⟩ := by decide
    rw [powerOfTen, Dyadic.ratio_value, exact]
    norm_num [Dyadic.value]
  rw [← one]
  exact power_of_ten_mono (Nat.zero_le exponent)

/-- The rank of the first power of two that 64 bits do not hold. -/
def wideRank : Nat := rankOfRatio ⟨2 ^ 64, 1⟩

theorem rank_le_wide {ratio : Ratio} (proper : 0 < ratio.below) (small : ratio.value ≤ 2 ^ 64) :
    rankOfRatio ratio ≤ wideRank := by
  apply rank_of_ratio_mono proper Nat.one_pos
  rw [whole_value]
  exact_mod_cast small

theorem divided_le_wide {rank : Nat} (small : rank ≤ wideRank) (down : Nat) :
    rankOfRatio ((dyadicOfRank rank).ratio.over (powerOfTen down)) ≤ wideRank := by
  have divisor := one_le_power_of_ten down
  have wide : magnitude wideRank = 2 ^ 64 := by
    have exact : dyadicOfRank wideRank = ⟨2 ^ 52, 12⟩ := by decide
    rw [magnitude, exact, Dyadic.value]
    norm_num
  apply rank_le_wide
  · apply Nat.mul_pos (Dyadic.ratio_below _)
    apply Nat.pos_of_ne_zero
    intro zero
    rw [Ratio.value, zero, Nat.cast_zero, zero_div] at divisor
    linarith
  · rw [over_value, magnitude_of_ratio, ← wide]
    apply le_trans _ (magnitude_mono small)
    exact div_le_self (magnitude_nonneg _) divisor

/-- Dividing by tens, in as many steps as it takes, goes no further up. -/
theorem scale_down_le {rank : Nat} (small : rank ≤ wideRank) (down : Nat) :
    scaleDown rank down ≤ wideRank := by
  induction down using Nat.strongRecOn generalizing rank with
  | ind down ih =>
      rw [scaleDown]
      split
      · exact divided_le_wide small down
      · split
        · exact Nat.zero_le _
        · exact ih (down - 308) (by omega) (divided_le_wide small 308)

/-- Half way between the two greatest magnitudes. -/
def lastMiddle : Nat := (2 ^ 54 - 3) * 2 ^ 970

/-- Significands of 64 bits that stay so far below the end of the magnitudes do not pass it,
although the significand and the power of ten are rounded before their product is. -/
theorem scaled_up_finite {significand exponent : Nat} (bits : significand < 2 ^ 64)
    (below : significand * 10 ^ exponent ≤ lastMiddle) (short : exponent ≤ 308) :
    rankOfRatio ((dyadicOfRank (rankOfRatio ⟨significand, 1⟩)).ratio.times (powerOfTen exponent)) <
      rankLimit := by
  -- Up to this power of ten 64 bits are the limit, and from there on the end of the magnitudes is.
  have table : ∀ raised ∈ List.range' 288 21,
      rankOfRatio ((dyadicOfRank (rankOfRatio
        ⟨min (lastMiddle / 10 ^ raised) (2 ^ 64 - 1), 1⟩)).ratio.times (powerOfTen raised)) <
        rankLimit := by
    decide +kernel
  apply lt_of_le_of_lt _ (table (max exponent 288) (List.mem_range'_1.2 (by omega)))
  have most : significand ≤ min (lastMiddle / 10 ^ max exponent 288) (2 ^ 64 - 1) := by
    apply Nat.le_min.2
    constructor
    · rcases Nat.le_total exponent 288 with low | high
      · have room : 2 ^ 64 ≤ lastMiddle / 10 ^ 288 := by decide +kernel
        rw [Nat.max_eq_right low]
        exact Nat.le_trans bits.le room
      · rw [Nat.max_eq_left high]
        exact (Nat.le_div_iff_mul_le (Nat.pow_pos (by decide))).2 below
    · omega
  apply rank_of_ratio_mono
  · exact Nat.mul_pos (Dyadic.ratio_below _) (Dyadic.ratio_below _)
  · exact Nat.mul_pos (Dyadic.ratio_below _) (Dyadic.ratio_below _)
  · rw [times_value, times_value, magnitude_of_ratio, magnitude_of_ratio]
    apply mul_le_mul _ (power_of_ten_mono (Nat.le_max_left _ _)) (Ratio.value_nonneg _)
      (magnitude_nonneg _)
    apply magnitude_mono
    apply rank_of_ratio_mono Nat.one_pos Nat.one_pos
    rw [whole_value, whole_value]
    exact Nat.cast_le.2 most

theorem of_scaled_some (negative : Bool) {significand : Nat} {exponent : Int}
    (bits : significand < 2 ^ 64) (below : (significand : ℚ) * 10 ^ exponent ≤ lastMiddle) :
    ∃ number, Binary64.ofScaled? negative significand exponent = some number := by
  have start : rankOfRatio ⟨significand, 1⟩ ≤ wideRank := by
    apply rank_le_wide Nat.one_pos
    rw [whole_value]
    exact_mod_cast bits.le
  have wide : wideRank < rankLimit := by decide
  rw [Binary64.ofScaled?]
  rw [dif_pos]
  · exact ⟨_, rfl⟩
  · rcases lt_or_ge exponent 0 with down | up
    · rw [if_pos down]
      exact lt_of_le_of_lt (scale_down_le start _) wide
    · rw [if_neg (Int.not_lt.2 up)]
      obtain ⟨tens, rfl⟩ := Int.eq_ofNat_of_zero_le up
      rw [zpow_natCast] at below
      have product : significand * 10 ^ tens ≤ lastMiddle := by exact_mod_cast below
      split
      · rename_i far
        have longer : 309 ≤ tens := by omega
        have most : lastMiddle < 10 ^ tens := by
          apply lt_of_lt_of_le _ (Nat.pow_le_pow_right (by decide) longer)
          decide +kernel
        have zero : significand = 0 := by
          by_contra positive
          have least := Nat.le_mul_of_pos_left (10 ^ tens) (Nat.pos_of_ne_zero positive)
          omega
        rw [zero]
        exact by decide +kernel
      · exact scaled_up_finite bits product (by omega)

end PageBuilder.Decimal
