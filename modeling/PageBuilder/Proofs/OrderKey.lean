import PageBuilder.OrderKey
import Mathlib.Data.List.Basic
import Mathlib.Data.String.Basic

/-!
Keys are the texts of proper digit sequences, and texts of digits sort as the digits do. So what a
new key has to satisfy can be shown on its digits.
-/

namespace PageBuilder.OrderKey

/-- The digits of a key: there are some, all below the base, and the last one is not zero. -/
structure Proper (digits : List Nat) : Prop where
  filled : digits ≠ []
  small : ∀ digit ∈ digits, digit < base
  ending : digits.getLast? ≠ some 0

theorem digit_char_lt {left right : Nat} (less : left < right) (small : right < base) :
    digitChar left < digitChar right := by
  have closed : ∀ first second : Fin 62, first < second →
      digitChar first < digitChar second := by decide +kernel
  exact closed ⟨left, less.trans small⟩ ⟨right, small⟩ less

theorem digit_char_of_digit {char : Char} {digit : Nat} (read : digit? char = some digit) :
    digit < base ∧ digitChar digit = char := by
  have back : ∀ code, char.toNat = code → Char.ofNat code = char := by
    intro code same
    rw [← same, Char.ofNat_toNat]
  simp only [digit?] at read
  split at read
  · rename_i range
    simp only [Bool.and_eq_true, decide_eq_true_eq] at range
    cases read
    refine ⟨by unfold base; omega, ?_⟩
    rw [digitChar, if_pos (by omega)]
    exact back _ (by omega)
  · split at read
    · rename_i range
      simp only [Bool.and_eq_true, decide_eq_true_eq] at range
      cases read
      refine ⟨by unfold base; omega, ?_⟩
      rw [digitChar, if_neg (by omega), if_pos (by omega)]
      exact back _ (by omega)
    · split at read
      · rename_i range
        simp only [Bool.and_eq_true, decide_eq_true_eq] at range
        cases read
        refine ⟨by unfold base; omega, ?_⟩
        rw [digitChar, if_neg (by omega), if_neg (by omega)]
        exact back _ (by omega)
      · cases read

theorem digits_of_digits {digits : List Nat} (small : ∀ digit ∈ digits, digit < base) :
    OrderKey.digits (ofDigits digits) = digits := by
  rw [OrderKey.digits, ofDigits, String.toList_ofList]
  induction digits with
  | nil => rfl
  | cons first rest ih =>
      have head := digit_char first (small first List.mem_cons_self)
      rw [List.map_cons, List.filterMap_cons, head]
      simp only
      rw [ih fun digit member => small digit (List.mem_cons_of_mem _ member)]

theorem of_digits_digits {chars : List Char} (known : ∀ char ∈ chars, (digit? char).isSome) :
    (chars.filterMap digit?).map digitChar = chars := by
  induction chars with
  | nil => rfl
  | cons first rest ih =>
      obtain ⟨digit, read⟩ := Option.isSome_iff_exists.1 (known first List.mem_cons_self)
      rw [List.filterMap_cons, read]
      simp only [List.map_cons]
      rw [(digit_char_of_digit read).2,
        ih fun char member => known char (List.mem_cons_of_mem _ member)]

theorem check_ok_iff {key : String} :
    check key = .ok () ↔ key.toList ≠ [] ∧ (∀ char ∈ key.toList, (digit? char).isSome) ∧
      key.toList.getLast? ≠ some '0' := by
  have empty : key.isEmpty = true ↔ key.toList = [] := by
    rw [String.isEmpty_iff, ← String.toList_eq_nil_iff]
  have foreign : (key.toList.any fun char => (digit? char).isNone) = true ↔
      ¬∀ char ∈ key.toList, (digit? char).isSome := by
    simp [List.any_eq_true, Option.isSome_iff_ne_none]
  rw [check]
  constructor
  · intro passed
    split at passed
    · cases passed
    · rename_i filled
      split at passed
      · cases passed
      · rename_i known
        split at passed
        · cases passed
        · rename_i ending
          exact ⟨fun nothing => filled (empty.2 nothing),
            Decidable.byContradiction fun other => known (foreign.2 other), ending⟩
  · intro held
    obtain ⟨filled, known, ending⟩ := held
    rw [if_neg (fun nothing => filled (empty.1 nothing)),
      if_neg (fun other => foreign.1 other known), if_neg ending]

/-- Keys that pass the check are the texts of proper digit sequences. -/
theorem check_ok_iff_proper {key : String} :
    check key = .ok () ↔ ∃ digits, Proper digits ∧ ofDigits digits = key := by
  have zero : digit? '0' = some 0 := by decide
  rw [check_ok_iff]
  constructor
  · intro held
    obtain ⟨filled, known, ending⟩ := held
    have text := of_digits_digits known
    refine ⟨OrderKey.digits key, ⟨?_, ?_, ?_⟩, ?_⟩
    · intro nothing
      rw [OrderKey.digits] at nothing
      rw [nothing] at text
      exact filled text.symm
    · intro digit member
      obtain ⟨char, _, read⟩ := List.mem_filterMap.1 member
      exact (digit_char_of_digit read).1
    · intro last
      rw [← text, List.getLast?_map, ← OrderKey.digits, last] at ending
      exact ending rfl
    · rw [ofDigits, OrderKey.digits, text, String.ofList_toList]
  · intro held
    obtain ⟨digits, proper, rfl⟩ := held
    rw [ofDigits, String.toList_ofList]
    refine ⟨?_, ?_, ?_⟩
    · simpa using proper.filled
    · intro char member
      obtain ⟨digit, inside, rfl⟩ := List.mem_map.1 member
      rw [digit_char digit (proper.small digit inside)]
      rfl
    · intro last
      rw [List.getLast?_map, Option.map_eq_some_iff] at last
      obtain ⟨digit, found, written⟩ := last
      have small := proper.small digit (List.mem_of_getLast? found)
      have value := digit_char digit small
      rw [written, zero] at value
      exact proper.ending (by rw [found, value])

theorem of_digits_lt {left right : List Nat} (small : ∀ digit ∈ right, digit < base)
    (less : left < right) : ofDigits left < ofDigits right := by
  rw [ofDigits, ofDigits, String.lt_iff_toList_lt, String.toList_ofList, String.toList_ofList]
  induction right generalizing left with
  | nil => exact absurd less (List.not_lt_nil left)
  | cons high highs ih =>
      cases left with
      | nil => exact List.nil_lt_cons _ _
      | cons low lows =>
          rw [List.map_cons, List.map_cons, List.cons_lt_cons_iff]
          rcases List.cons_lt_cons_iff.1 less with below | ⟨same, rest⟩
          · exact Or.inl (digit_char_lt below (small high List.mem_cons_self))
          · exact Or.inr ⟨congrArg digitChar same,
              ih (fun digit member => small digit (List.mem_cons_of_mem _ member)) rest⟩

/-- There is always room after a sequence of digits. -/
theorem digits_after_proper {digits : List Nat} (small : ∀ digit ∈ digits, digit < base) :
    Proper (digitsAfter digits) ∧ digits < digitsAfter digits := by
  induction digits with
  | nil => exact ⟨⟨by decide, by decide, by decide⟩, by decide⟩
  | cons first rest ih =>
      have bound : first < 62 := small first List.mem_cons_self
      rw [digitsAfter]
      split
      · rename_i gap
        have next : (first + base + 1) / 2 < base ∧ first < (first + base + 1) / 2 := by
          unfold base at *
          omega
        refine ⟨⟨by simp, ?_, ?_⟩, List.cons_lt_cons_iff.2 (Or.inl next.2)⟩
        · intro digit member
          rw [List.mem_singleton.1 member]
          exact next.1
        · intro last
          have zero : (first + base + 1) / 2 = 0 := by simpa using last
          omega
      · obtain ⟨proper, after⟩ :=
          ih fun digit member => small digit (List.mem_cons_of_mem _ member)
        refine ⟨⟨by simp, ?_, ?_⟩, List.cons_lt_cons_iff.2 (Or.inr ⟨rfl, after⟩)⟩
        · intro digit member
          rcases List.mem_cons.1 member with rfl | inside
          · exact small _ List.mem_cons_self
          · exact proper.small digit inside
        · rw [List.getLast?_cons_of_ne_nil proper.filled]
          exact proper.ending

end PageBuilder.OrderKey
