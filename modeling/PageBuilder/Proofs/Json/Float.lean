import PageBuilder.Json.Printer
import PageBuilder.Proofs.Decimal.Shortest
import PageBuilder.Proofs.Json.Numeral

/-!
Printed floats are read as numbers. The numeral that is read has the magnitude of the decimal that
was printed, and a numeral of that magnitude is a finite number again.
-/

namespace PageBuilder

open Decimal (Binary64 Scaled Spelling decimalDigits exponentText lastMiddle magnitudeText
  positionalText rankLimit shortestScaled)
open Json (EndsNumber WholePart isDigit)

namespace Numeral

variable {digits rest : List Char}

theorem decimal_digits_all (value : Nat) : ∀ digit ∈ decimalDigits value, isDigit digit = true :=
  Json.digits_of_nat value

theorem decimal_digits_ne_nil (value : Nat) : decimalDigits value ≠ [] := Nat.toDigits_ne_nil

theorem zeros_all (count : Nat) : ∀ digit ∈ List.replicate count '0', isDigit digit = true := by
  intro digit member
  rw [List.eq_of_mem_replicate member]
  rfl

/-- What is read where digits with a point in them or zeros around them were printed. -/
def positional (negative : Bool) (digits : List Char) (lead : Int) : Numeral :=
  if lead < 0 then ⟨negative, ['0'], some (List.replicate (-lead - 1).toNat '0' ++ digits), none⟩
  else
    let whole := lead.toNat + 1
    if digits.length ≤ whole then
      ⟨negative, digits ++ List.replicate (whole - digits.length) '0', some ['0'], none⟩
    else ⟨negative, digits.take whole, some (digits.drop whole), none⟩

def exponential (negative : Bool) (digits : List Char) (lead : Int) : Numeral :=
  ⟨negative, digits.take 1, if digits.length ≤ 1 then none else some (digits.drop 1),
    some (decide (lead < 0), decimalDigits lead.natAbs)⟩

/-- Digits that start with a zero are that zero alone, and then no zeros follow. -/
structure Leads (digits : List Char) (lead : Int) : Prop where
  all : ∀ digit ∈ digits, isDigit digit = true
  nonempty : digits ≠ []
  plain : digits.head? = some '0' → digits.length = 1 ∧ lead = 0

/-- No zeros are put after digits that start with a zero. -/
theorem whole_part_padded {lead : Int} (leads : Leads digits lead) :
    WholePart (digits ++ List.replicate (lead.toNat + 1 - digits.length) '0') := by
  refine ⟨?_, by simp [leads.nonempty], ?_⟩
  · intro digit member
    rcases List.mem_append.1 member with other | zero
    · exact leads.all digit other
    · exact zeros_all _ digit zero
  · by_cases zero : digits.head? = some '0'
    · obtain ⟨single, noZeros⟩ := leads.plain zero
      left
      simp [single, noZeros]
    · right
      rw [List.head?_append]
      cases first : digits.head? with
      | none => exact absurd (List.head?_eq_none_iff.1 first) leads.nonempty
      | some digit =>
          rw [first] at zero
          exact zero

theorem whole_part_taken {lead : Int} (leads : Leads digits lead)
    (long : lead.toNat + 1 < digits.length) : WholePart (digits.take (lead.toNat + 1)) := by
  refine ⟨fun digit member => leads.all digit (List.mem_of_mem_take member), ?_, ?_⟩
  · simp [leads.nonempty]
  · right
    rw [List.head?_take, if_neg (Nat.succ_ne_zero _)]
    intro zero
    have single := (leads.plain zero).1
    omega

theorem read_positional (negative : Bool) {lead : Int} (leads : Leads digits lead)
    (ends : EndsNumber rest) :
    Json.readUnsigned negative ((positionalText digits lead).toList ++ rest) =
      some (positional negative digits lead, rest) := by
  rw [positionalText, positional]
  split
  · have chars : ("0." ++ Decimal.zeros (-lead - 1).toNat ++ String.ofList digits).toList ++ rest =
        ['0'] ++ ('.' :: ((List.replicate (-lead - 1).toNat '0' ++ digits) ++ rest)) := by
      simp [Decimal.zeros]
    rw [chars]
    apply read_unsigned_point negative ⟨by simp [isDigit], by simp, .inl rfl⟩ _ _ ends
    · intro digit member
      rcases List.mem_append.1 member with zero | other
      · exact zeros_all _ digit zero
      · exact leads.all digit other
    · simp [leads.nonempty]
  dsimp only
  split
  · have chars : (String.ofList digits ++ Decimal.zeros (lead.toNat + 1 - digits.length) ++
        ".0").toList ++ rest =
        (digits ++ List.replicate (lead.toNat + 1 - digits.length) '0') ++
          ('.' :: (['0'] ++ rest)) := by
      simp [Decimal.zeros]
    rw [chars]
    apply read_unsigned_point negative (whole_part_padded leads) _ (by simp) ends
    exact zeros_all 1
  · rename_i long
    have chars : (String.ofList (digits.take (lead.toNat + 1)) ++ "." ++
        String.ofList (digits.drop (lead.toNat + 1))).toList ++ rest =
        digits.take (lead.toNat + 1) ++ ('.' :: (digits.drop (lead.toNat + 1) ++ rest)) := by
      simp
    rw [chars]
    apply read_unsigned_point negative (whole_part_taken leads (Nat.lt_of_not_le long)) _ _ ends
    · exact fun digit member => leads.all digit (List.mem_of_mem_drop member)
    · exact fun empty => long (List.drop_eq_nil_iff.1 empty)

theorem read_exponential (negative : Bool) {spelling : Spelling} (plus : spelling.plus = "+")
    {lead : Int} (leads : Leads digits lead) (ends : EndsNumber rest) :
    Json.readUnsigned negative ((exponentText spelling digits lead).toList ++ rest) =
      some (exponential negative digits lead, rest) := by
  obtain ⟨all, nonempty, plain⟩ := leads
  cases digits with
  | nil => exact absurd rfl nonempty
  | cons first more =>
      -- The first digit stands alone, and the others are behind a point if there are any.
      have part : WholePart [first] := by
        refine ⟨?_, List.cons_ne_nil _ _, .inl rfl⟩
        intro digit member
        exact all digit (List.mem_singleton.1 member ▸ List.mem_cons_self)
      have signed : (if lead < 0 then "-" else spelling.plus).toList =
          [sign (decide (lead < 0))] := by
        rw [plus, sign]
        split
        · rename_i down
          simp [down]
        · rename_i up
          simp [up]
      have chars : (exponentText spelling (first :: more) lead).toList ++ rest =
          [first] ++ ((if more = [] then [] else '.' :: more) ++
            'e' :: sign (decide (lead < 0)) :: (decimalDigits lead.natAbs ++ rest)) := by
        rw [exponentText, String.toList_append, String.toList_append, String.toList_append,
          String.toList_append, String.toList_append, signed]
        cases more with
        | nil => simp
        | cons next more => simp
      have digits := decimal_digits_all lead.natAbs
      have printed := decimal_digits_ne_nil lead.natAbs
      rw [chars, exponential]
      cases more with
      | nil =>
          apply read_unsigned_exponent negative _ part digits printed _ _ ends
          · exact (rfl : isDigit 'e' = false)
          · rfl
      | cons next more =>
          apply read_unsigned_exponent negative _ part digits printed _ _ ends
          · exact (rfl : isDigit '.' = false)
          · exact read_fraction (fun digit member => all digit (List.mem_cons_of_mem _ member))
              (List.cons_ne_nil _ _) (rfl : isDigit 'e' = false)

theorem value_of_decimal (digits : Nat) : value (decimalDigits digits) = digits :=
  Nat.ofDigitChars_ten_toDigits

def leadOf (scaled : Scaled) : Int :=
  scaled.power + ((decimalDigits scaled.digits).length : Int) - 1

theorem positional_magnitude (negative : Bool) (scaled : Scaled) :
    (positional negative (decimalDigits scaled.digits) (leadOf scaled)).magnitude =
      scaled.value := by
  have size : 0 < (decimalDigits scaled.digits).length :=
    List.length_pos_iff.2 (decimal_digits_ne_nil _)
  have lead : leadOf scaled = scaled.power + ((decimalDigits scaled.digits).length : Int) - 1 := rfl
  rw [positional]
  split
  · have digits : value (['0'] ++ (List.replicate (-leadOf scaled - 1).toNat '0' ++
        decimalDigits scaled.digits)) = scaled.digits := by
      rw [value_append, Nat.ofDigitChars_append, Nat.ofDigitChars_replicate_zero]
      exact value_of_decimal _
    rw [magnitude, Scaled.value]
    dsimp only [Option.getD_some, shift]
    rw [digits, List.length_append, List.length_replicate]
    congr 2
    omega
  · dsimp only
    split
    · rename_i up short
      obtain ⟨zeros, count⟩ := Int.eq_ofNat_of_zero_le (by omega : 0 ≤ scaled.power)
      have padding : (leadOf scaled).toNat + 1 - (decimalDigits scaled.digits).length = zeros := by
        omega
      have digits : value (decimalDigits scaled.digits ++ List.replicate zeros '0' ++ ['0']) =
          10 * (10 ^ zeros * scaled.digits) := by
        rw [value_append, value_append, Nat.ofDigitChars_replicate_zero, value_of_decimal]
        rfl
      rw [padding, magnitude, Scaled.value, count]
      dsimp only [Option.getD_some, shift]
      rw [digits, zero_sub, List.length_singleton, Nat.cast_one, zpow_neg_one, zpow_natCast]
      push_cast
      ring
    · rename_i up long
      rw [magnitude, Scaled.value]
      dsimp only [Option.getD_some, shift]
      rw [List.take_append_drop, value_of_decimal, List.length_drop]
      congr 2
      omega

theorem exponential_magnitude (negative : Bool) (scaled : Scaled) :
    (exponential negative (decimalDigits scaled.digits) (leadOf scaled)).magnitude =
      scaled.value := by
  have size : 0 < (decimalDigits scaled.digits).length :=
    List.length_pos_iff.2 (decimal_digits_ne_nil _)
  have lead : leadOf scaled = scaled.power + ((decimalDigits scaled.digits).length : Int) - 1 := rfl
  have power : shift (some (decide (leadOf scaled < 0), decimalDigits (leadOf scaled).natAbs)) =
      leadOf scaled := by
    rw [shift, value_of_decimal]
    split
    · rename_i down
      have below := of_decide_eq_true down
      omega
    · rename_i up
      have above : ¬leadOf scaled < 0 := fun down => up (decide_eq_true down)
      omega
  rw [exponential, magnitude, Scaled.value]
  dsimp only
  rw [power]
  split
  · rename_i single
    dsimp only [Option.getD_none]
    rw [List.append_nil, List.take_of_length_le single, value_of_decimal, List.length_nil]
    congr 2
    omega
  · rename_i more
    dsimp only [Option.getD_some]
    rw [List.take_append_drop, value_of_decimal, List.length_drop]
    congr 2
    omega

theorem leads_of_decimal {scaled : Scaled} (plain : scaled.digits = 0 → scaled = ⟨0, 0⟩) :
    Leads (decimalDigits scaled.digits) (leadOf scaled) := by
  refine ⟨decimal_digits_all _, decimal_digits_ne_nil _, ?_⟩
  intro zero
  have single : (decimalDigits scaled.digits).length = 1 := by
    by_contra longer
    exact Json.head_of_digits scaled.digits longer zero
  have noDigits : scaled.digits = 0 := by
    rw [← value_of_decimal scaled.digits]
    obtain ⟨digit, only⟩ := List.length_eq_one_iff.1 single
    rw [only, List.head?_cons, Option.some.injEq] at zero
    rw [only, zero]
    rfl
  refine ⟨single, ?_⟩
  rw [plain noDigits]
  rfl

theorem ten_pow_lead_le {scaled : Scaled} (positive : 0 < scaled.digits) :
    (10 : ℚ) ^ leadOf scaled ≤ scaled.value := by
  have least : 10 ^ ((decimalDigits scaled.digits).length - 1) ≤ scaled.digits := by
    by_contra less
    by_cases single : (decimalDigits scaled.digits).length - 1 = 0
    · rw [single] at less
      exact less positive
    · have shorter := (Nat.length_toDigits_le_iff (by decide) (Nat.pos_of_ne_zero single)).2
        (Nat.not_le.1 less)
      have size : 0 < (decimalDigits scaled.digits).length :=
        List.length_pos_iff.2 (decimal_digits_ne_nil _)
      rw [decimalDigits] at shorter size
      omega
  have size : 0 < (decimalDigits scaled.digits).length :=
    List.length_pos_iff.2 (decimal_digits_ne_nil _)
  have power : leadOf scaled = ((decimalDigits scaled.digits).length - 1 : Nat) + scaled.power := by
    rw [leadOf]
    omega
  rw [power, zpow_add₀ (by norm_num), zpow_natCast, Scaled.value]
  apply mul_le_mul_of_nonneg_right _ (by positivity)
  exact_mod_cast least

theorem lead_lt {scaled : Scaled} (plain : scaled.digits = 0 → scaled = ⟨0, 0⟩)
    (below : scaled.value ≤ lastMiddle) : leadOf scaled < 309 := by
  by_cases zero : scaled.digits = 0
  · rw [plain zero]
    decide
  · have least := le_trans (ten_pow_lead_le (Nat.pos_of_ne_zero zero)) below
    have most : (lastMiddle : ℚ) < 10 ^ (309 : Int) := by
      have whole : lastMiddle < 10 ^ 309 := by decide +kernel
      exact_mod_cast whole
    exact (zpow_lt_zpow_iff_right₀ (by norm_num)).1 (lt_of_le_of_lt least most)

/-- What the printer writes for a decimal. -/
def decimalText (scaled : Scaled) : String :=
  if -5 ≤ leadOf scaled && leadOf scaled < 16 then
    positionalText (decimalDigits scaled.digits) (leadOf scaled)
  else exponentText JsonNumber.spelling (decimalDigits scaled.digits) (leadOf scaled)

def ofDecimal (negative : Bool) (scaled : Scaled) : Numeral :=
  if -5 ≤ leadOf scaled && leadOf scaled < 16 then
    positional negative (decimalDigits scaled.digits) (leadOf scaled)
  else exponential negative (decimalDigits scaled.digits) (leadOf scaled)

theorem read_decimal (negative : Bool) {scaled : Scaled}
    (plain : scaled.digits = 0 → scaled = ⟨0, 0⟩) (ends : EndsNumber rest) :
    Json.readUnsigned negative ((decimalText scaled).toList ++ rest) =
      some (ofDecimal negative scaled, rest) := by
  have leads := leads_of_decimal plain
  rw [decimalText, ofDecimal]
  split
  · exact read_positional negative leads ends
  · exact read_exponential negative rfl leads ends

theorem positional_plain (negative : Bool) {lead : Int}
    (all : ∀ digit ∈ digits, isDigit digit = true) (low : lead < 16) :
    value (positional negative digits lead).whole < 0x10000000000000000 ∧
      (positional negative digits lead).fraction ≠ none ∧
      (positional negative digits lead).exponent = none := by
  rw [positional]
  split
  · exact ⟨(by decide : value ['0'] < 0x10000000000000000), Option.some_ne_none _, rfl⟩
  · dsimp only
    split
    · refine ⟨?_, Option.some_ne_none _, rfl⟩
      apply whole_lt
      · intro digit member
        rcases List.mem_append.1 member with other | zero
        · exact all digit other
        · exact zeros_all _ digit zero
      · rw [List.length_append, List.length_replicate]
        omega
    · refine ⟨?_, Option.some_ne_none _, rfl⟩
      apply whole_lt
      · exact fun digit member => all digit (List.mem_of_mem_take member)
      · rw [List.length_take]
        omega

theorem of_decimal_number (negative : Bool) {scaled : Scaled}
    (plain : scaled.digits = 0 → scaled = ⟨0, 0⟩) (below : scaled.value ≤ lastMiddle) :
    ∃ number, (ofDecimal negative scaled).number? = some number := by
  have all := decimal_digits_all scaled.digits
  rw [ofDecimal]
  split
  · rename_i near
    rw [Bool.and_eq_true, decide_eq_true_eq, decide_eq_true_eq] at near
    obtain ⟨fits, point, noExponent⟩ := positional_plain negative all near.2
    apply number_some fits (.inl point) _
      (le_of_eq_of_le (positional_magnitude negative scaled) below)
    intro digits given
    rw [noExponent] at given
    cases given
  · apply number_some _ (.inr (Option.some_ne_none _)) _
      (le_of_eq_of_le (exponential_magnitude negative scaled) below)
    · apply whole_lt
      · exact fun digit member => all digit (List.mem_of_mem_take member)
      · rw [exponential, List.length_take]
        omega
    · intro digits given
      rw [exponential, Option.some.injEq, Prod.mk.injEq, decide_eq_false_iff_not] at given
      have most := lead_lt plain below
      rw [← given.2, value_of_decimal]
      omega

def decimalOfRank (rank : Nat) : Scaled :=
  if rank = 0 then ⟨0, 0⟩ else (shortestScaled rank).strip

theorem magnitude_text_eq (rank : Nat) :
    magnitudeText JsonNumber.spelling rank = decimalText (decimalOfRank rank) := by
  rw [magnitudeText, decimalOfRank]
  split
  · decide +kernel
  · rfl

theorem of_rank_number (negative : Bool) {rank : Nat} (finite : rank < rankLimit) :
    ∃ number, (ofDecimal negative (decimalOfRank rank)).number? = some number := by
  by_cases last : rank = rankLimit - 1
  · have isNumber : ∀ negative : Bool,
        ((ofDecimal negative ⟨17976931348623157, 292⟩).number?).isSome = true := by
      decide +kernel
    have whole : Scaled.strip ⟨17976931348623157, 292⟩ = ⟨17976931348623157, 292⟩ := by
      rw [Scaled.strip]
      rfl
    have nonzero : rankLimit - 1 ≠ 0 := by decide +kernel
    rw [decimalOfRank, last, if_neg nonzero, Decimal.shortest_last, whole]
    exact Option.isSome_iff_exists.1 (isNumber negative)
  · rw [decimalOfRank]
    split
    · exact of_decimal_number negative (fun _ => rfl) Decimal.zero_value_le
    · apply of_decimal_number negative (Decimal.strip_zero _)
      rw [Decimal.strip_value]
      exact Decimal.shortest_value_le (by omega)

theorem decimal_of_rank_plain (rank : Nat) (zero : (decimalOfRank rank).digits = 0) :
    decimalOfRank rank = ⟨0, 0⟩ := by
  rw [decimalOfRank] at zero ⊢
  split
  · rfl
  · rename_i positive
    rw [if_neg positive] at zero
    exact Decimal.strip_zero _ zero

end Numeral

namespace Json

/-- A number starts with a digit. -/
theorem starts_of_read_unsigned {negative : Bool} {chars : List Char} {read : Numeral × List Char}
    (found : readUnsigned negative chars = some read) :
    ∃ first rest, chars = first :: rest ∧ isDigit first = true := by
  cases chars with
  | nil => cases found
  | cons first rest =>
      refine ⟨first, rest, rfl, ?_⟩
      by_contra other
      rw [readUnsigned, readWhole, readDigits, List.takeWhile_cons_of_neg other] at found
      cases found

def numeralOfFloat (number : Binary64) : Numeral :=
  .ofDecimal number.negative (Numeral.decimalOfRank number.rank)

/-- The number that is read where a float was printed, which need not be the same. -/
def rereadFloat (number : Binary64) : JsonNumber :=
  (numeralOfFloat number).number?.getD (.float number)

theorem float_chars (number : Binary64) :
    (JsonNumber.float number).text.toList =
      (if number.negative then ['-'] else []) ++
        (Numeral.decimalText (Numeral.decimalOfRank number.rank)).toList := by
  rw [JsonNumber.text, Binary64.text, String.toList_append, Numeral.magnitude_text_eq]
  cases number.negative <;> rfl

theorem read_float_unsigned (number : Binary64) {rest : List Char} (ends : EndsNumber rest) :
    readUnsigned number.negative
        ((Numeral.decimalText (Numeral.decimalOfRank number.rank)).toList ++ rest) =
      some (numeralOfFloat number, rest) :=
  Numeral.read_decimal number.negative (Numeral.decimal_of_rank_plain number.rank) ends

theorem float_opens (number : Binary64) :
    ∃ first rest, (JsonNumber.float number).text.toList = first :: rest ∧
      (isDigit first = true ∨ first = '-') := by
  have read := @read_float_unsigned number [] trivial
  rw [List.append_nil] at read
  obtain ⟨first, rest, chars, digit⟩ := starts_of_read_unsigned read
  rw [float_chars, chars]
  cases number.negative with
  | true => exact ⟨'-', _, rfl, .inr rfl⟩
  | false => exact ⟨first, rest, rfl, .inl digit⟩

/-- A printed float is read as a number, whatever follows that does not go on with it. -/
theorem read_float (number : Binary64) {rest : List Char} (ends : EndsNumber rest) :
    readNumeral ((JsonNumber.float number).text.toList ++ rest) =
        some (numeralOfFloat number, rest) ∧
      (numeralOfFloat number).number? = some (rereadFloat number) := by
  constructor
  · have read := read_float_unsigned number ends
    rw [float_chars]
    cases sign : number.negative with
    | true =>
        rw [sign] at read
        exact read
    | false =>
        rw [sign] at read
        obtain ⟨first, others, chars, digit⟩ := starts_of_read_unsigned read
        rw [if_neg Bool.false_ne_true, List.nil_append, readNumeral]
        · exact read
        · intro more same
          rw [chars, List.cons.injEq] at same
          rw [same.1] at digit
          cases digit
  · obtain ⟨value, made⟩ := Numeral.of_rank_number number.negative number.finite
    rw [rereadFloat, numeralOfFloat, made]
    rfl

end Json

end PageBuilder
