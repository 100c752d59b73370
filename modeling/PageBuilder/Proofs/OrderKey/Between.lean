import PageBuilder.Proofs.OrderKey
import PageBuilder.Proofs.Outcome

/-!
Between two keys in order there is always another one, and it is found without a digit past the
alphabet and without a difference below zero. So keys that come out of keys never run out.
-/

namespace PageBuilder.OrderKey

def alphabet : List Char := "0123456789ABCDEFGHIJKLMNOPQRSTUVWXYZabcdefghijklmnopqrstuvwxyz".toList

/-- What a key looks like. -/
structure IsKey (text : String) : Prop where
  filled : text ≠ ""
  digits : ∀ char ∈ text.toList, char ∈ alphabet
  ending : text.toList.getLast? ≠ some '0'

theorem alphabet_digit {digit : Nat} (small : digit < base) :
    alphabet[digit]? = some (digitChar digit) := by
  have closed : ∀ d : Fin 62, alphabet[d.val]? = some (digitChar d) := by decide +kernel
  exact closed ⟨digit, small⟩

theorem mem_alphabet_iff {char : Char} : char ∈ alphabet ↔ (digit? char).isSome := by
  constructor
  · intro member
    obtain ⟨digit, found⟩ := List.mem_iff_getElem?.1 member
    have length : alphabet.length = base := by decide
    have small : digit < base := length ▸ (List.getElem?_eq_some_iff.1 found).1
    rw [alphabet_digit small] at found
    rw [← Option.some.inj found, digit_char digit small]
    rfl
  · intro known
    obtain ⟨digit, read⟩ := Option.isSome_iff_exists.1 known
    obtain ⟨small, same⟩ := digit_char_of_digit read
    rw [← same]
    exact List.mem_of_getElem? (alphabet_digit small)

theorem check_ok_iff_is_key {text : String} : check text = .ok () ↔ IsKey text := by
  rw [check_ok_iff]
  simp only [← mem_alphabet_iff]
  constructor
  · intro held
    obtain ⟨filled, known, ending⟩ := held
    exact ⟨fun nothing => filled (String.toList_eq_nil_iff.2 nothing), known, ending⟩
  · intro key
    exact ⟨fun nothing => key.filled (String.toList_eq_nil_iff.1 nothing), key.digits, key.ending⟩

theorem is_key_iff_proper {text : String} :
    IsKey text ↔ ∃ digits, Proper digits ∧ ofDigits digits = text := by
  rw [← check_ok_iff_is_key, check_ok_iff_proper]

section Digits

variable {low high rest : List Nat} {first : Nat}

theorem head_lt_base (small : ∀ digit ∈ low, digit < base) : low.headD 0 < base := by
  cases low with
  | nil => decide
  | cons digit _ => exact small digit List.mem_cons_self

theorem tail_lt_base (small : ∀ digit ∈ low, digit < base) : ∀ digit ∈ low.tail, digit < base :=
  fun digit member => small digit (List.mem_of_mem_tail member)

/-- Missing digits count as zeros, so what is exhausted is before everything. -/
theorem lt_cons (order : low.headD 0 < first ∨ low.headD 0 = first ∧ low.tail < rest) :
    low < first :: rest := by
  cases low with
  | nil => exact List.nil_lt_cons _ _
  | cons digit lows => exact List.cons_lt_cons_iff.2 order

/-- Below digits that do not end in zero lies what differs from them at a smaller digit, also where
that digit is missing. -/
theorem cases_of_lt (less : low < first :: rest) (ending : (first :: rest).getLast? ≠ some 0) :
    low.headD 0 = first ∧ low.tail < rest ∧ rest.getLast? ≠ some 0 ∨ low.headD 0 < first := by
  have tailEnding : rest.getLast? ≠ some 0 := by
    cases rest with
    | nil => simp
    | cons second others => exact ending
  cases low with
  | nil =>
      by_cases zero : first = 0
      · cases rest with
        | nil => exact absurd (by rw [zero]; rfl) ending
        | cons second others => exact Or.inl ⟨zero.symm, List.nil_lt_cons _ _, tailEnding⟩
      · exact Or.inr (Nat.pos_of_ne_zero zero)
  | cons digit lows =>
      rcases List.cons_lt_cons_iff.1 less with smaller | ⟨same, below⟩
      · exact Or.inr smaller
      · exact Or.inl ⟨same, below, tailEnding⟩

theorem proper_singleton {digit : Nat} (small : digit < base) (positive : 0 < digit) :
    Proper [digit] := by
  refine ⟨List.cons_ne_nil _ _, ?_, ?_⟩
  · intro other member
    rw [List.mem_singleton.1 member]
    exact small
  · intro last
    have zero : digit = 0 := by simpa using last
    omega

theorem Proper.cons {digits : List Nat} {digit : Nat} (proper : Proper digits)
    (small : digit < base) : Proper (digit :: digits) := by
  refine ⟨List.cons_ne_nil _ _, ?_, ?_⟩
  · intro other member
    rcases List.mem_cons.1 member with rfl | inside
    · exact small
    · exact proper.small other inside
  · rw [List.getLast?_cons_of_ne_nil proper.filled]
    exact proper.ending

/-- By induction on the upper digits: those that both share are kept, and the first that differ
leave room between them or after the lower ones. -/
theorem digits_between_proper (smallLow : ∀ digit ∈ low, digit < base)
    (smallHigh : ∀ digit ∈ high, digit < base) (ending : high.getLast? ≠ some 0)
    (less : low < high) :
    Proper (digitsBetween low high) ∧ low < digitsBetween low high ∧
      digitsBetween low high < high := by
  induction high generalizing low with
  | nil => exact absurd less (List.not_lt_nil low)
  | cons first rest ih =>
      have firstSmall : first < base := smallHigh first List.mem_cons_self
      rw [digitsBetween]
      rcases cases_of_lt less ending with ⟨same, below, tailEnding⟩ | smaller
      · obtain ⟨proper, after, before⟩ := ih (tail_lt_base smallLow)
          (fun digit member => smallHigh digit (List.mem_cons_of_mem _ member)) tailEnding below
        rw [if_pos same]
        exact ⟨proper.cons firstSmall, lt_cons (Or.inr ⟨same, after⟩),
          List.cons_lt_cons_iff.2 (Or.inr ⟨rfl, before⟩)⟩
      · rw [if_neg (Nat.ne_of_lt smaller)]
        split
        · rename_i gap
          have middle : low.headD 0 < (low.headD 0 + first + 1) / 2 ∧
              (low.headD 0 + first + 1) / 2 < first := by omega
          exact ⟨proper_singleton (by omega) (by omega), lt_cons (Or.inl middle.1),
            List.cons_lt_cons_iff.2 (Or.inl middle.2)⟩
        · split
          · obtain ⟨proper, after⟩ := digits_after_proper (tail_lt_base smallLow)
            exact ⟨proper.cons (head_lt_base smallLow), lt_cons (Or.inr ⟨rfl, after⟩),
              List.cons_lt_cons_iff.2 (Or.inl smaller)⟩
          · rename_i more
            have longer : [] < rest := by
              cases rest with
              | nil => exact absurd rfl more
              | cons second others => exact List.nil_lt_cons _ _
            exact ⟨proper_singleton firstSmall (by omega), lt_cons (Or.inl smaller),
              List.cons_lt_cons_iff.2 (Or.inr ⟨rfl, longer⟩)⟩

end Digits

/-- No difference falls below zero. -/
def minus? (left right : Nat) : Option Nat := if right ≤ left then some (left - right) else none

def value (char : Char) : Nat := (digit? char).getD 0

def charsAfter? : List Char → Option (List Char)
  | [] => (alphabet[(base + 1) / 2]?).map fun middle => [middle]
  | first :: rest => do
      let gap ← minus? base (value first)
      if 1 < gap then
        let middle ← alphabet[(value first + base + 1) / 2]?
        some [middle]
      else
        let kept ← alphabet[value first]?
        let after ← charsAfter? rest
        some (kept :: after)

def charsBetween? (low : List Char) : List Char → Option (List Char)
  | [] => charsAfter? low
  | first :: rest =>
      if low.headD '0' = first then (charsBetween? low.tail rest).map fun after => first :: after
      else do
        let gap ← minus? (value first) (value (low.headD '0'))
        if 1 < gap then
          let middle ← alphabet[(value (low.headD '0') + value first + 1) / 2]?
          some [middle]
        else if rest.isEmpty then
          let kept ← alphabet[value (low.headD '0')]?
          let after ← charsAfter? low.tail
          some (kept :: after)
        else some [first]

def checkedBetween? (low high : Option String) : Option String :=
  let start := (low.getD "").toList
  match high with
  | none => (charsAfter? start).map String.ofList
  | some key => (charsBetween? start key.toList).map String.ofList

section Checked

variable {low high : List Nat}

theorem minus_of_le {left right : Nat} (le : right ≤ left) :
    minus? left right = some (left - right) := if_pos le

theorem value_digit_char {digit : Nat} (small : digit < base) :
    value (digitChar digit) = digit := by
  rw [value, digit_char digit small, Option.getD_some]

theorem digit_char_injective {left right : Nat} (smallLeft : left < base)
    (smallRight : right < base) (same : digitChar left = digitChar right) : left = right := by
  rw [← value_digit_char smallLeft, same, value_digit_char smallRight]

theorem head_digit_char (digits : List Nat) :
    (digits.map digitChar).headD '0' = digitChar (digits.headD 0) := by
  cases digits with
  | nil => decide
  | cons digit rest => rfl

theorem chars_after {digits : List Nat} (small : ∀ digit ∈ digits, digit < base) :
    charsAfter? (digits.map digitChar) = some ((digitsAfter digits).map digitChar) := by
  induction digits with
  | nil => decide
  | cons first rest ih =>
      have firstSmall : first < base := small first List.mem_cons_self
      rw [List.map_cons, charsAfter?, digitsAfter, value_digit_char firstSmall,
        minus_of_le (Nat.le_of_lt firstSmall)]
      simp only [bind, Option.bind]
      split
      · rename_i gap
        have middle : (first + base + 1) / 2 < base := by omega
        rw [alphabet_digit middle]
        rfl
      · rw [alphabet_digit firstSmall,
          ih fun digit member => small digit (List.mem_cons_of_mem _ member)]
        rfl

theorem chars_between (smallLow : ∀ digit ∈ low, digit < base)
    (smallHigh : ∀ digit ∈ high, digit < base) (ending : high.getLast? ≠ some 0)
    (less : low < high) :
    charsBetween? (low.map digitChar) (high.map digitChar) =
      some ((digitsBetween low high).map digitChar) := by
  induction high generalizing low with
  | nil => exact absurd less (List.not_lt_nil low)
  | cons first rest ih =>
      have firstSmall : first < base := smallHigh first List.mem_cons_self
      have headSmall := head_lt_base smallLow
      rw [List.map_cons, charsBetween?, digitsBetween, head_digit_char, ← List.map_tail]
      rcases cases_of_lt less ending with ⟨same, below, tailEnding⟩ | smaller
      · rw [if_pos (congrArg digitChar same), if_pos same,
          ih (tail_lt_base smallLow)
            (fun digit member => smallHigh digit (List.mem_cons_of_mem _ member)) tailEnding below]
        rfl
      · have other : digitChar (low.headD 0) ≠ digitChar first := fun same =>
          Nat.ne_of_lt smaller (digit_char_injective headSmall firstSmall same)
        rw [if_neg other, if_neg (Nat.ne_of_lt smaller), value_digit_char firstSmall,
          value_digit_char headSmall, minus_of_le (Nat.le_of_lt smaller)]
        simp only [bind, Option.bind]
        split
        · rename_i gap
          have middle : (low.headD 0 + first + 1) / 2 < base := by omega
          rw [alphabet_digit middle]
          rfl
        · rw [List.isEmpty_map]
          split
          · rw [alphabet_digit headSmall, chars_after (tail_lt_base smallLow)]
            rfl
          · rfl

end Checked

section Keys

variable {low high : Option String} {key : String}

/-- What the ends of a new key have to be. -/
structure Fits (low high : Option String) : Prop where
  lowKey : ∀ left, low = some left → IsKey left
  highKey : ∀ right, high = some right → IsKey right
  ordered : ∀ left right, low = some left → high = some right → left < right

theorem check_end_ok_iff {text : Option String} {done : Unit} :
    checkEnd text = .ok done ↔ ∀ key, text = some key → IsKey key := by
  cases done
  cases text with
  | none => simp [checkEnd]
  | some key => simp [checkEnd, check_ok_iff_is_key]

theorem check_order_ok_iff {done : Unit} : checkOrder low high = .ok done ↔
    ∀ left right, low = some left → high = some right → left < right := by
  cases low with
  | none => simp [checkOrder]
  | some left =>
      cases high with
      | none => simp [checkOrder]
      | some right => simp [checkOrder]

/-- The digits of the new key. -/
def newDigits (low high : Option String) : List Nat :=
  match high with
  | none => digitsAfter (digits (low.getD ""))
  | some key => digitsBetween (digits (low.getD "")) (digits key)

theorem between_eq : between low high = (do
    checkEnd low
    checkEnd high
    checkOrder low high
    .ok (ofDigits (newDigits low high))) := by
  cases high with
  | none => rfl
  | some key => rfl

theorem between_ok_iff :
    between low high = .ok key ↔ Fits low high ∧ ofDigits (newDigits low high) = key := by
  simp only [between_eq, Outcome.bind_eq_ok, check_end_ok_iff, check_order_ok_iff]
  constructor
  · intro made
    obtain ⟨_, lowKey, _, highKey, _, ordered, same⟩ := made
    exact ⟨⟨lowKey, highKey, ordered⟩, Except.ok.inj same⟩
  · intro made
    obtain ⟨fits, rfl⟩ := made
    exact ⟨(), fits.lowKey, (), fits.highKey, (), fits.ordered, rfl⟩

theorem of_digits_lt_iff {left right : List Nat} (smallLeft : ∀ digit ∈ left, digit < base)
    (smallRight : ∀ digit ∈ right, digit < base) :
    ofDigits left < ofDigits right ↔ left < right := by
  constructor
  · intro less
    rcases lt_trichotomy left right with smaller | same | larger
    · exact smaller
    · rw [same] at less
      exact absurd less (String.lt_irrefl _)
    · exact absurd (of_digits_lt smallLeft larger) (String.lt_asymm less)
  · intro less
    exact of_digits_lt smallRight less

theorem low_digits (lowKey : ∀ left, low = some left → IsKey left) :
    ∃ lows, (∀ digit ∈ lows, digit < base) ∧ ofDigits lows = low.getD "" := by
  cases low with
  | none => exact ⟨[], by simp, rfl⟩
  | some left =>
      obtain ⟨lows, proper, same⟩ := is_key_iff_proper.1 (lowKey left rfl)
      exact ⟨lows, proper.small, same⟩

theorem empty_lt_of_is_key (isKey : IsKey key) : "" < key := by
  obtain ⟨digits, proper, rfl⟩ := is_key_iff_proper.1 isKey
  have filled : [] < digits := by
    cases digits with
    | nil => exact absurd rfl proper.filled
    | cons first rest => exact List.nil_lt_cons _ _
  exact of_digits_lt proper.small filled

/-- The new digits make a key between the ends, and checking each step finds the same ones. -/
theorem new_digits_fit (fits : Fits low high) :
    Proper (newDigits low high) ∧ low.getD "" < ofDigits (newDigits low high) ∧
      (∀ right, high = some right → ofDigits (newDigits low high) < right) ∧
      checkedBetween? low high = some (ofDigits (newDigits low high)) := by
  obtain ⟨lows, small, start⟩ := low_digits fits.lowKey
  simp only [checkedBetween?, newDigits, ← start, digits_of_digits small]
  cases high with
  | none =>
      obtain ⟨proper, after⟩ := digits_after_proper small
      refine ⟨proper, of_digits_lt proper.small after, ?_, ?_⟩
      · intro right absurd
        cases absurd
      · simp only [ofDigits, String.toList_ofList, chars_after small, Option.map_some]
  | some right =>
      obtain ⟨highs, highProper, rfl⟩ := is_key_iff_proper.1 (fits.highKey right rfl)
      have less : lows < highs := by
        rw [← of_digits_lt_iff small highProper.small, start]
        cases low with
        | none => exact empty_lt_of_is_key (fits.highKey _ rfl)
        | some left => exact fits.ordered left _ rfl rfl
      obtain ⟨proper, after, before⟩ :=
        digits_between_proper small highProper.small highProper.ending less
      simp only [digits_of_digits highProper.small]
      refine ⟨proper, of_digits_lt proper.small after, ?_, ?_⟩
      · intro right same
        cases same
        exact of_digits_lt highProper.small before
      · simp only [ofDigits, String.toList_ofList,
          chars_between small highProper.small highProper.ending less, Option.map_some]

theorem between_is_key (made : between low high = .ok key) :
    IsKey key ∧ (∀ left, low = some left → left < key) ∧
      ∀ right, high = some right → key < right := by
  obtain ⟨fits, rfl⟩ := between_ok_iff.1 made
  obtain ⟨proper, after, before, _⟩ := new_digits_fit fits
  refine ⟨is_key_iff_proper.2 ⟨_, proper, rfl⟩, ?_, before⟩
  intro left same
  rw [same] at after ⊢
  exact after

theorem exists_between_iff : (∃ key, between low high = .ok key) ↔ Fits low high := by
  constructor
  · intro made
    obtain ⟨key, made⟩ := made
    exact (between_ok_iff.1 made).1
  · intro fits
    exact ⟨_, between_ok_iff.2 ⟨fits, rfl⟩⟩

/-- Keys that come out of one another: each was made from earlier ones, or from open ends. -/
inductive Made : String → Prop
  | step {low high : Option String} {key : String}
      (lowMade : ∀ left, low = some left → Made left)
      (highMade : ∀ right, high = some right → Made right)
      (made : between low high = .ok key) : Made key

theorem Made.is_key (made : Made key) : IsKey key := by
  cases made with
  | step _ _ made => exact (between_is_key made).1

theorem Made.continues (lowMade : ∀ left, low = some left → Made left)
    (highMade : ∀ right, high = some right → Made right)
    (ordered : ∀ left right, low = some left → high = some right → left < right) :
    ∃ key, between low high = .ok key ∧ Made key := by
  have fits : Fits low high := ⟨fun left same => (lowMade left same).is_key,
    fun right same => (highMade right same).is_key, ordered⟩
  obtain ⟨key, made⟩ := exists_between_iff.2 fits
  exact ⟨key, made, .step lowMade highMade made⟩

/-- There is a key between two ends exactly if they are keys in order; it is one as well, and no
step towards it leaves the digits. So keys that come out of keys always give further keys. -/
theorem between_exact (low high : Option String) :
    ((∃ key, between low high = .ok key) ↔ Fits low high) ∧
      (∀ key, between low high = .ok key →
        IsKey key ∧ (∀ left, low = some left → left < key) ∧
          (∀ right, high = some right → key < right) ∧ checkedBetween? low high = some key) ∧
      ((∀ left, low = some left → Made left) → (∀ right, high = some right → Made right) →
        (∃ key, after low = .ok key ∧ Made key) ∧ (∃ key, before high = .ok key ∧ Made key) ∧
          ((∀ left right, low = some left → high = some right → left < right) →
            ∃ key, between low high = .ok key ∧ Made key)) := by
  refine ⟨exists_between_iff, ?_, ?_⟩
  · intro key made
    obtain ⟨fits, same⟩ := between_ok_iff.1 made
    obtain ⟨isKey, later, earlier⟩ := between_is_key made
    exact ⟨isKey, later, earlier, same ▸ (new_digits_fit fits).2.2.2⟩
  · intro lowMade highMade
    have noEnd {Any : Prop} {text : String} (same : none = some text) : Any := by cases same
    refine ⟨?_, ?_, ?_⟩
    · exact Made.continues lowMade (fun _ => noEnd) (fun _ _ _ => noEnd)
    · exact Made.continues (fun _ => noEnd) highMade (fun _ _ same _ => noEnd same)
    · exact Made.continues lowMade highMade

theorem between_exact_sample :
    Fits (some "A") (some "A01") ∧ ∃ key, between (some "A") (some "A01") = .ok key ∧
      "A" < key ∧ key < "A01" := by
  have passed (text : String) (checked : check text = .ok ()) : IsKey text :=
    check_ok_iff_is_key.1 checked
  have fits : Fits (some "A") (some "A01") := by
    refine ⟨?_, ?_, ?_⟩
    · rintro _ ⟨⟩
      exact passed "A" (by decide)
    · rintro _ ⟨⟩
      exact passed "A01" (by decide)
    · rintro _ _ ⟨⟩ ⟨⟩
      decide
  obtain ⟨possible, fitting, _⟩ := between_exact (some "A") (some "A01")
  obtain ⟨key, made⟩ := possible.2 fits
  obtain ⟨_, later, earlier, _⟩ := fitting key made
  exact ⟨fits, key, made, later "A" rfl, earlier "A01" rfl⟩

end Keys

end PageBuilder.OrderKey
