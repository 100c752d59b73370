import PageBuilder.Proofs.Decimal.Binary64
import PageBuilder.Proofs.Json.Scalar

/-!
Numerals with a point or an exponent: how they are read, and that they are finite numbers as long as
their magnitude stays away from the end of those.
-/

namespace PageBuilder

open Decimal (Binary64 lastMiddle)
open Json (EndsDigits EndsNumber WholePart isDigit read_digits read_whole)

namespace Numeral

variable {digits rest : List Char}

def shift : Option (Bool × List Char) → Int
  | none => 0
  | some (down, digits) => if down then -(value digits : Int) else value digits

def magnitude (numeral : Numeral) : ℚ :=
  value (numeral.whole ++ numeral.fraction.getD []) *
    10 ^ (shift numeral.exponent - (numeral.fraction.getD []).length)

theorem value_eq (digits : List Char) : value digits = Nat.ofDigitChars 10 digits 0 := rfl

theorem value_append (left right : List Char) :
    value (left ++ right) = Nat.ofDigitChars 10 right (value left) := by
  rw [value_eq, Nat.ofDigitChars_append]
  rfl

theorem value_lt (all : ∀ digit ∈ digits, isDigit digit = true) :
    value digits < 10 ^ digits.length := by
  induction digits with
  | nil => exact Nat.one_pos
  | cons digit digits ih =>
      have first : digit.toNat - '0'.toNat < 10 := by
        have range := all digit List.mem_cons_self
        rw [isDigit, Bool.and_eq_true, decide_eq_true_eq, decide_eq_true_eq] at range
        have most : digit.toNat ≤ '9'.toNat := range.2
        exact lt_of_le_of_lt (Nat.sub_le_sub_right most _) (by decide)
      have others := ih fun other member => all other (List.mem_cons_of_mem _ member)
      rw [value_eq] at others
      rw [value_eq, Nat.ofDigitChars_cons, Nat.ofDigitChars_eq_ofDigitChars_zero, List.length_cons,
        Nat.pow_succ, Nat.mul_zero, Nat.zero_add]
      have scaled := Nat.mul_le_mul_left (10 ^ digits.length) (Nat.le_sub_one_of_lt first)
      omega

theorem whole_lt (all : ∀ digit ∈ digits, isDigit digit = true) (short : digits.length ≤ 16) :
    value digits < 0x10000000000000000 := by
  have power : 10 ^ digits.length ≤ 10 ^ 16 := Nat.pow_le_pow_right (by decide) short
  have most := value_lt all
  omega

/-- The digits that are taken say no more than all of them. -/
theorem take_digits_le {start : Nat} (bits : start < 0x10000000000000000) :
    (takeDigits start digits).1 < 0x10000000000000000 ∧
      (takeDigits start digits).1 * 10 ^ (takeDigits start digits).2 ≤
        Nat.ofDigitChars 10 digits start ∧
      (takeDigits start digits).2 ≤ digits.length := by
  induction digits generalizing start with
  | nil => exact ⟨bits, by simp [takeDigits], Nat.le_refl _⟩
  | cons digit digits ih =>
      rw [takeDigits]
      split
      · rename_i longer
        obtain ⟨small, below, left⟩ := ih longer
        exact ⟨small, by rw [Nat.ofDigitChars_cons]; exact below, Nat.le_succ_of_le left⟩
      · refine ⟨bits, ?_, Nat.le_refl _⟩
        dsimp only
        rw [Nat.ofDigitChars_eq_ofDigitChars_zero, List.length_cons, Nat.mul_comm]
        exact Nat.le_add_right _ _

theorem of_scaled_some (negative : Bool) {significand : Nat} {power : Int}
    {exponent : Option (Bool × List Char)} (bits : significand < 0x10000000000000000)
    (short : ∀ digits, exponent = some (false, digits) → value digits < 0x80000000)
    (below : (significand : ℚ) * 10 ^ (power + shift exponent) ≤ lastMiddle) :
    ∃ number, ofScaled? negative significand power exponent = some number := by
  have finite {power : Int} (below : (significand : ℚ) * 10 ^ power ≤ lastMiddle) :
      ∃ number, (Binary64.ofScaled? negative significand power).map JsonNumber.float =
        some number := by
    obtain ⟨number, made⟩ := Decimal.of_scaled_some negative bits below
    exact ⟨.float number, by rw [made]; rfl⟩
  cases exponent with
  | none =>
      rw [shift, add_zero] at below
      exact finite below
  | some exponent =>
      obtain ⟨down, digits⟩ := exponent
      simp only [ofScaled?]
      cases down with
      | true =>
          split
          · exact finite below
          · exact ⟨_, if_pos (Bool.or_true _)⟩
      | false =>
          rw [if_pos (short digits rfl)]
          exact finite below

/-- A numeral with a point or an exponent is a number if its magnitude is far enough from the end of
the finite ones. -/
theorem number_some {numeral : Numeral} (fits : value numeral.whole < 0x10000000000000000)
    (marked : numeral.fraction ≠ none ∨ numeral.exponent ≠ none)
    (short : ∀ digits, numeral.exponent = some (false, digits) → value digits < 0x80000000)
    (below : numeral.magnitude ≤ lastMiddle) : ∃ number, numeral.number? = some number := by
  obtain ⟨negative, whole, fraction, exponent⟩ := numeral
  have taken : takeDigits 0 whole = (value whole, 0) := Json.take_digits_all fits
  rw [magnitude] at below
  rw [number?, taken]
  dsimp only at below marked short fits ⊢
  cases fraction with
  | none =>
      cases exponent with
      | none => simp at marked
      | some exponent =>
          dsimp only [Option.getD_none] at below ⊢
          rw [List.append_nil, List.length_nil, Nat.cast_zero, sub_zero] at below
          apply of_scaled_some negative fits short
          rwa [Nat.cast_zero, zero_add]
  | some digits =>
      obtain ⟨bits, most, left⟩ := @take_digits_le digits (value whole) fits
      dsimp only [Option.getD_some] at below ⊢
      apply of_scaled_some negative bits short
      apply le_trans _ below
      rw [value_append]
      generalize takeDigits (value whole) digits = taken at bits most left
      have product : ((taken.1 * 10 ^ taken.2 : Nat) : ℚ) ≤
          Nat.ofDigitChars 10 digits (value whole) := Nat.cast_le.2 most
      push_cast at product
      have power : ((0 : Nat) : Int) - ((digits.length - taken.2 : Nat) : Int) + shift exponent =
          taken.2 + (shift exponent - digits.length) := by
        omega
      rw [power, zpow_add₀ (by norm_num), ← mul_assoc, zpow_natCast]
      exact mul_le_mul_of_nonneg_right product (by positivity)

theorem read_fraction (all : ∀ digit ∈ digits, isDigit digit = true) (nonempty : digits ≠ [])
    (ends : EndsDigits rest) :
    Json.readFraction ('.' :: (digits ++ rest)) = some (some digits, rest) := by
  rw [Json.readFraction, read_digits all nonempty ends]
  rfl

def sign (down : Bool) : Char := if down then '-' else '+'

theorem read_exponent (down : Bool) (all : ∀ digit ∈ digits, isDigit digit = true)
    (nonempty : digits ≠ []) (ends : EndsDigits rest) :
    Json.readExponent ('e' :: sign down :: (digits ++ rest)) =
      some (some (down, digits), rest) := by
  cases down with
  | true =>
      have minus : sign true = '-' := rfl
      rw [minus]
      simp only [Json.readExponent, decide_true, Bool.true_or, if_true]
      rw [Json.readExponentDigits, read_digits all nonempty ends]
      rfl
  | false =>
      have plus : sign false = '+' := rfl
      rw [plus]
      simp only [Json.readExponent, decide_true, Bool.true_or, if_true]
      rw [Json.readExponentDigits, read_digits all nonempty ends]
      rfl

theorem read_unsigned_point (negative : Bool) {whole fraction : List Char} (part : WholePart whole)
    (all : ∀ digit ∈ fraction, isDigit digit = true) (nonempty : fraction ≠ [])
    (ends : EndsNumber rest) :
    Json.readUnsigned negative (whole ++ ('.' :: (fraction ++ rest))) =
      some (⟨negative, whole, some fraction, none⟩, rest) := by
  have stop : EndsDigits ('.' :: (fraction ++ rest)) := (rfl : isDigit '.' = false)
  rw [Json.readUnsigned, read_whole part stop]
  dsimp only [bind, Option.bind]
  rw [read_fraction all nonempty ends.digits]
  dsimp only
  rw [Json.read_exponent_none ends]

theorem read_unsigned_exponent (negative down : Bool) {whole exponent : List Char}
    {fraction : Option (List Char)} {point : List Char} (part : WholePart whole)
    (all : ∀ digit ∈ exponent, isDigit digit = true) (nonempty : exponent ≠ [])
    (stop : EndsDigits (point ++ 'e' :: sign down :: (exponent ++ rest)))
    (read : Json.readFraction (point ++ 'e' :: sign down :: (exponent ++ rest)) =
      some (fraction, 'e' :: sign down :: (exponent ++ rest))) (ends : EndsNumber rest) :
    Json.readUnsigned negative (whole ++ (point ++ 'e' :: sign down :: (exponent ++ rest))) =
      some (⟨negative, whole, fraction, some (down, exponent)⟩, rest) := by
  rw [Json.readUnsigned, read_whole part stop]
  dsimp only [bind, Option.bind]
  rw [read]
  dsimp only
  rw [read_exponent down all nonempty ends.digits]

end Numeral

end PageBuilder
