import PageBuilder.Decimal.Shortest
import PageBuilder.Proofs.Decimal.Binary64

/-!
How far up printed decimals go. The decimal that is printed for a magnitude rounds to it, and so it
lies below the middle between that magnitude and the next one.
-/

namespace PageBuilder.Decimal

def Scaled.value (scaled : Scaled) : ℚ := scaled.digits * 10 ^ scaled.power

theorem zpow_eq_div {base : ℚ} (nonzero : base ≠ 0) (power : Int) :
    base ^ power = base ^ power.toNat / base ^ (-power).toNat := by
  rw [← zpow_natCast, ← zpow_natCast, ← zpow_sub₀ nonzero]
  congr 1
  omega

/-- The comparison of a decimal with quarter units is that of their magnitudes. -/
theorem compare_quarters_le {scaled : Scaled} {quarters : Nat} {power : Int}
    (below : compareQuarters scaled quarters power ≠ .gt) :
    scaled.value ≤ quarters * 2 ^ (power - 2) := by
  have halves : (2 - power).toNat = (-(power - 2)).toNat := by omega
  rw [compareQuarters, Nat.compare_ne_gt, halves] at below
  have product : ((scaled.digits * 10 ^ scaled.power.toNat * 2 ^ (-(power - 2)).toNat : Nat) : ℚ) ≤
      (quarters * 2 ^ (power - 2).toNat * 10 ^ (-scaled.power).toNat : Nat) := by
    rw [Nat.shiftLeft_eq, Nat.shiftLeft_eq] at below
    exact Nat.cast_le.2 below
  push_cast at product
  rw [Scaled.value, zpow_eq_div (by norm_num) scaled.power, zpow_eq_div two_ne_zero (power - 2),
    ← mul_div_assoc, ← mul_div_assoc, div_le_div_iff₀ (by positivity) (by positivity)]
  exact product

theorem value_le_of_reads_back {rank : Nat} {scaled : Scaled}
    (reads : readsBack rank scaled = true) :
    scaled.value ≤ ((dyadicOfRank rank).whole + 1 / 2) * 2 ^ (dyadicOfRank rank).power := by
  have high : compareQuarters scaled (4 * (dyadicOfRank rank).whole + 2) (dyadicOfRank rank).power ≠
      .gt := by
    intro above
    simp only [readsBack, above] at reads
    split at reads
    · simp at reads
    · simp at reads
  apply le_trans (compare_quarters_le high)
  rw [zpow_sub₀ two_ne_zero]
  push_cast
  linarith

/-- What reads back as a magnitude before the greatest one stays below the last middle. -/
theorem value_le_last_middle {rank : Nat} (more : rank + 1 < rankLimit) {scaled : Scaled}
    (reads : readsBack rank scaled = true) : scaled.value ≤ lastMiddle := by
  have middle : ((dyadicOfRank (rankLimit - 2)).whole + 1 / 2 : ℚ) *
      2 ^ (dyadicOfRank (rankLimit - 2)).power = lastMiddle := by
    have exact : dyadicOfRank (rankLimit - 2) = ⟨2 ^ 53 - 2, 970 + 1⟩ := by decide
    rw [exact, lastMiddle, Nat.cast_mul, Nat.cast_pow, Nat.cast_ofNat]
    dsimp only
    rw [zpow_add_one₀ two_ne_zero, zpow_ofNat]
    generalize (2 : ℚ) ^ 970 = unit
    norm_num
    ring
  apply le_trans (value_le_of_reads_back reads)
  rcases Nat.lt_or_eq_of_le (Nat.le_sub_of_add_le more : rank ≤ rankLimit - 2) with less | same
  · rw [← middle]
    have next := magnitude_mono (less : rank + 1 ≤ rankLimit - 2)
    rw [magnitude_succ, magnitude, Dyadic.value] at next
    have unit : (0 : ℚ) < 2 ^ (dyadicOfRank rank).power := zpow_pos two_pos _
    have last : (0 : ℚ) < 2 ^ (dyadicOfRank (rankLimit - 2)).power := zpow_pos two_pos _
    linarith
  · rw [same, middle]

theorem grid_point_reads_back {rank : Nat} {power : Int} {scaled : Scaled}
    (found : gridPoint? rank power = some scaled) : readsBack rank scaled = true := by
  simp only [gridPoint?] at found
  split at found
  · rename_i first second
    cases found
    rw [nearerPoint]
    split
    · exact second
    · exact first
    · split
      · exact first
      · exact second
  · rename_i first _
    cases found
    exact first
  · rename_i _ second
    cases found
    exact second
  · cases found

theorem zero_value_le : Scaled.value ⟨0, 0⟩ ≤ lastMiddle := by
  rw [Scaled.value, Nat.cast_zero, zero_mul]
  exact Nat.cast_nonneg _

theorem shortest_value_le {rank : Nat} (more : rank + 1 < rankLimit) :
    (shortestScaled rank).value ≤ lastMiddle := by
  rw [shortestScaled]
  cases found : ((List.range 17).map fun (step : Nat) =>
      leadingPower (dyadicOfRank rank).ratio - step).findSome? (gridPoint? rank) with
  | none => exact zero_value_le
  | some scaled =>
      obtain ⟨power, _, point⟩ := List.exists_of_findSome?_eq_some found
      exact value_le_last_middle more (grid_point_reads_back point)

theorem shortest_last : shortestScaled (rankLimit - 1) = ⟨17976931348623157, 292⟩ := by
  decide +kernel

theorem strip_value (scaled : Scaled) : scaled.strip.value = scaled.value := by
  obtain ⟨digits, power⟩ := scaled
  induction digits using Nat.strongRecOn generalizing power with
  | ind digits ih =>
      rw [Scaled.strip]
      dsimp only
      split
      · rename_i zero
        rw [Scaled.value, Scaled.value, zero]
        simp
      · split
        · rename_i positive zeros
          rw [ih (digits / 10) (by omega), Scaled.value, Scaled.value]
          have whole : ((digits / 10 * 10 : Nat) : ℚ) = digits := by
            rw [Nat.div_mul_cancel (Nat.dvd_of_mod_eq_zero zeros)]
          push_cast at whole
          rw [zpow_add_one₀ (by norm_num), ← whole]
          ring
        · rfl

theorem strip_zero (scaled : Scaled) (zero : scaled.strip.digits = 0) : scaled.strip = ⟨0, 0⟩ := by
  obtain ⟨digits, power⟩ := scaled
  induction digits using Nat.strongRecOn generalizing power with
  | ind digits ih =>
      rw [Scaled.strip] at zero ⊢
      dsimp only at zero ⊢
      split
      · rfl
      · rename_i positive
        rw [if_neg positive] at zero
        split
        · rename_i zeros
          rw [if_pos zeros] at zero
          exact ih (digits / 10) (by omega) _ zero
        · rename_i last
          rw [if_neg last] at zero
          exact absurd zero positive

end PageBuilder.Decimal
