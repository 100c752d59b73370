import PageBuilder.Json.Printer
import PageBuilder.Json.Reader

/-!
Strings and whole numbers of JSON texts are read as they were written. Every character of a string
gives one piece, and the digits of a number fit into its significand.
-/

namespace PageBuilder.Json

open JsonTree (escapedChar stringChars)

def pieceOf (char : Char) : Piece :=
  if char.toNat < 0x20 ∧ char.toNat ∉ [8, 9, 10, 12, 13] then .unit char.toNat else .char char

theorem unit_hex_digits : ∀ code < 0x20,
    unit? '0' '0' (Text.hexDigit (code / 16)) (Text.hexDigit (code % 16)) = some code := by
  decide

theorem char_of_code {char : Char} {code : Nat} (same : char.toNat = code) :
    char = Char.ofNat code := by
  rw [← same, Char.ofNat_toNat]

theorem read_plain {char : Char} (quote : char ≠ '"') (slash : char ≠ '\\')
    (plain : ¬char.toNat < 0x20) (rest : List Char) :
    readPieces (char :: rest) =
      (readPieces rest).map fun read => (.char char :: read.1, read.2) := by
  rw [readPieces.eq_def]
  split
  · rename_i same
    cases same
  · rename_i same
    exact absurd (List.cons.inj same).1 quote
  · rename_i same
    exact absurd (List.cons.inj same).1 slash
  · rename_i same
    exact absurd (List.cons.inj same).1 slash
  · rename_i same
    obtain ⟨rfl, rfl⟩ := List.cons.inj same
    rw [if_neg (by simp [slash, plain])]
    cases readPieces rest <;> rfl

theorem read_named {letter char : Char} (named : escape? letter = some char) (rest : List Char) :
    readPieces ('\\' :: letter :: rest) =
      (readPieces rest).map fun read => (.char char :: read.1, read.2) := by
  rw [readPieces.eq_def]
  split
  · rename_i same
    cases same
  · rename_i same
    cases same
  · rename_i same
    cases same
    cases named
  · rename_i same
    cases same
    rw [named]
    cases readPieces rest <;> rfl
  · rename_i last same
    obtain ⟨rfl, rfl⟩ := List.cons.inj same
    exact absurd rfl (last letter rest rfl)

theorem read_unit {code : Nat} (control : code < 0x20) (rest : List Char) :
    readPieces ('\\' :: 'u' :: '0' :: '0' :: Text.hexDigit (code / 16)
        :: Text.hexDigit (code % 16) :: rest) =
      (readPieces rest).map fun read => (.unit code :: read.1, read.2) := by
  rw [readPieces, unit_hex_digits code control]
  cases readPieces rest <;> rfl

theorem read_escaped (char : Char) (rest : List Char) :
    readPieces (escapedChar char ++ rest) =
      (readPieces rest).map fun read => (pieceOf char :: read.1, read.2) := by
  have known {letter other : Char} (same : char = other) (named : escape? letter = some other)
      (kept : pieceOf other = .char other) :
      readPieces (['\\', letter] ++ rest) =
        (readPieces rest).map fun read => (pieceOf char :: read.1, read.2) := by
    rw [same, kept]
    exact read_named named rest
  -- The characters with a letter of their own come first. What is left is a control character,
  -- which is written as its number, or stands for itself.
  unfold escapedChar
  split
  · rename_i quote
    exact known quote rfl rfl
  split
  · rename_i slash
    exact known slash rfl rfl
  split
  · rename_i code
    exact known (char_of_code code) rfl rfl
  split
  · rename_i code
    exact known (char_of_code code) rfl rfl
  split
  · rename_i line
    exact known line rfl rfl
  split
  · rename_i feed
    exact known feed rfl rfl
  split
  · rename_i tab
    exact known tab rfl rfl
  have unnamed : char.toNat ∉ [8, 9, 10, 12, 13] := by
    intro listed
    simp only [List.mem_cons, List.not_mem_nil, or_false] at listed
    rcases listed with code | code | code | code | code <;>
      have := char_of_code code <;> contradiction
  split
  · rename_i control
    rw [pieceOf, if_pos ⟨control, unnamed⟩]
    exact read_unit control rest
  · rename_i plain
    rw [pieceOf, if_neg fun other => plain other.1]
    exact read_plain (by assumption) (by assumption) plain rest

theorem read_pieces_escaped (chars rest : List Char) :
    readPieces (chars.flatMap escapedChar ++ '"' :: rest) = some (chars.map pieceOf, rest) := by
  induction chars with
  | nil => rfl
  | cons char chars ih =>
      rw [List.flatMap_cons, List.append_assoc, read_escaped, ih]
      rfl

theorem join_control {code : Nat} (control : code < 0x20) (pieces : List Piece) :
    joinPieces (.unit code :: pieces) = (joinPieces pieces).map (Char.ofNat code :: ·) := by
  have notHigh : isHighHalf code = false := by
    rw [isHighHalf, Bool.and_eq_false_iff]
    exact .inl (decide_eq_false (by omega))
  have notLow : isLowHalf code = false := by
    rw [isLowHalf, Bool.and_eq_false_iff]
    exact .inl (decide_eq_false (by omega))
  cases pieces with
  | nil => simp [joinPieces, notHigh, notLow]
  | cons piece pieces => cases piece <;> simp [joinPieces, notHigh, notLow]

theorem join_piece_of (char : Char) (pieces : List Piece) :
    joinPieces (pieceOf char :: pieces) = (joinPieces pieces).map (char :: ·) := by
  rw [pieceOf]
  split
  · rename_i control
    rw [join_control control.1, Char.ofNat_toNat]
  · rw [joinPieces]

theorem join_pieces_of (chars : List Char) : joinPieces (chars.map pieceOf) = some chars := by
  induction chars with
  | nil => rfl
  | cons char chars ih =>
      rw [List.map_cons, join_piece_of, ih]
      rfl

theorem read_string_chars (text : String) (rest : List Char) :
    ∃ chars, stringChars text ++ rest = '"' :: chars ∧
      readString chars = some (some text, rest) := by
  refine ⟨text.toList.flatMap escapedChar ++ '"' :: rest, ?_, ?_⟩
  · simp [stringChars]
  · rw [readString, read_pieces_escaped]
    simp [join_pieces_of]

/-- What follows does not go on with a number. -/
def EndsNumber : List Char → Prop
  | [] => True
  | char :: _ => isDigit char = false ∧ char ≠ '.' ∧ char ≠ 'e' ∧ char ≠ 'E'

theorem is_digit_eq (char : Char) : isDigit char = char.isDigit := by
  rw [isDigit, Char.isDigit]
  rfl

theorem digits_of_nat (value : Nat) :
    ∀ digit ∈ Nat.toDigits 10 value, isDigit digit = true := by
  intro digit member
  rw [is_digit_eq]
  exact Nat.isDigit_of_mem_toDigits (by decide) (by decide) member

/-- What follows does not go on with the digits. -/
def EndsDigits : List Char → Prop
  | [] => True
  | char :: _ => isDigit char = false

theorem EndsNumber.digits {rest : List Char} (ends : EndsNumber rest) : EndsDigits rest := by
  cases rest with
  | nil => trivial
  | cons char rest => exact ends.1

theorem read_digits {digits rest : List Char} (all : ∀ digit ∈ digits, isDigit digit = true)
    (nonempty : digits ≠ []) (ends : EndsDigits rest) :
    readDigits (digits ++ rest) = some (digits, rest) := by
  have stop : rest.takeWhile isDigit = [] ∧ rest.dropWhile isDigit = rest := by
    cases rest with
    | nil => exact ⟨rfl, rfl⟩
    | cons char rest =>
        have last : isDigit char = false := ends
        simp [last]
  rw [readDigits, List.takeWhile_append_of_pos all, List.dropWhile_append_of_pos all, stop.1,
    stop.2, List.append_nil, if_neg (by simpa using nonempty)]

structure WholePart (digits : List Char) : Prop where
  all : ∀ digit ∈ digits, isDigit digit = true
  nonempty : digits ≠ []
  plain : digits.length = 1 ∨ digits.head? ≠ some '0'

theorem read_whole {digits rest : List Char} (part : WholePart digits) (ends : EndsDigits rest) :
    readWhole (digits ++ rest) = some (digits, rest) := by
  rw [readWhole, read_digits part.all part.nonempty ends]
  dsimp only [bind, Option.bind]
  rw [if_neg]
  intro led
  obtain ⟨zero, longer⟩ := Bool.and_eq_true_iff.1 led
  rcases part.plain with single | other
  · exact of_decide_eq_true longer single
  · exact other (of_decide_eq_true zero)

/-- Only zero starts with a zero. -/
theorem head_of_digits (value : Nat) (longer : (Nat.toDigits 10 value).length ≠ 1) :
    (Nat.toDigits 10 value).head? ≠ some '0' := by
  induction value using Nat.strongRecOn with
  | ind value ih =>
      by_cases small : value < 10
      · rw [Nat.toDigits_of_lt_base small] at longer
        exact absurd rfl longer
      · rw [Nat.toDigits_of_base_le (by decide) (by omega), List.head?_append]
        by_cases short : value / 10 < 10
        · have first : 0 < value / 10 := by omega
          rw [Nat.toDigits_of_lt_base short]
          have nonzero : ∀ digit < 10, 0 < digit → Nat.digitChar digit ≠ '0' := by decide
          simpa using nonzero _ short first
        · have more := ih (value / 10) (by omega) (by
            rw [Nat.toDigits_of_base_le (by decide) (by omega), List.length_append]
            have := Nat.length_toDigits_pos (b := 10) (n := value / 10 / 10)
            simp only [List.length_singleton]
            omega)
          cases first : (Nat.toDigits 10 (value / 10)).head? with
          | none => exact absurd (List.head?_eq_none_iff.1 first) Nat.toDigits_ne_nil
          | some digit =>
              rw [first] at more
              simpa using more

theorem whole_part_of_nat (value : Nat) : WholePart (Nat.toDigits 10 value) := by
  refine ⟨digits_of_nat value, Nat.toDigits_ne_nil, ?_⟩
  by_cases single : (Nat.toDigits 10 value).length = 1
  · exact .inl single
  · exact .inr (head_of_digits value single)

theorem read_fraction_none {rest : List Char} (ends : EndsNumber rest) :
    readFraction rest = some (none, rest) := by
  cases rest with
  | nil => rfl
  | cons char rest =>
      rw [readFraction]
      intro digits same
      exact ends.2.1 (List.cons.inj same).1

theorem read_exponent_none {rest : List Char} (ends : EndsNumber rest) :
    readExponent rest = some (none, rest) := by
  cases rest with
  | nil => rfl
  | cons char rest =>
      rw [readExponent.eq_def]
      dsimp only
      rw [if_neg]
      simp [ends.2.2.1, ends.2.2.2]

theorem read_unsigned_of_nat (negative : Bool) (value : Nat) {rest : List Char}
    (ends : EndsNumber rest) :
    readUnsigned negative (Nat.toDigits 10 value ++ rest) =
      some (⟨negative, Nat.toDigits 10 value, none, none⟩, rest) := by
  rw [readUnsigned, read_whole (whole_part_of_nat value) ends.digits]
  dsimp only [bind, Option.bind]
  rw [read_fraction_none ends]
  dsimp only
  rw [read_exponent_none ends]

theorem take_digits_all {digits : List Char} {start : Nat}
    (fits : Nat.ofDigitChars 10 digits start < 0x10000000000000000) :
    Numeral.takeDigits start digits = (Nat.ofDigitChars 10 digits start, 0) := by
  induction digits generalizing start with
  | nil => rfl
  | cons digit digits ih =>
      rw [Nat.ofDigitChars_cons] at fits ⊢
      have grows := @Nat.ofDigitChars_eq_ofDigitChars_zero digits
        (10 * start + (digit.toNat - '0'.toNat))
      have least : 1 ≤ 10 ^ digits.length := Nat.one_le_pow _ _ (by decide)
      have smaller := Nat.le_mul_of_pos_left (10 * start + (digit.toNat - '0'.toNat)) least
      rw [Numeral.takeDigits]
      have same : Numeral.digitValue digit = digit.toNat - '0'.toNat := rfl
      rw [same, if_pos (by omega), ih fits]

theorem number_of_nat (negative : Bool) {value : Nat} (fits : value < 0x10000000000000000) :
    (⟨negative, Nat.toDigits 10 value, none, none⟩ : Numeral).number? =
      Numeral.ofWhole? negative value := by
  have taken : Numeral.takeDigits 0 (Nat.toDigits 10 value) = (value, 0) := by
    rw [take_digits_all (by rwa [Nat.ofDigitChars_ten_toDigits]), Nat.ofDigitChars_ten_toDigits]
  rw [Numeral.number?, taken]
  dsimp only
  rw [if_pos rfl]

theorem of_int_some {value : Int}
    (inRange : -0x8000000000000000 ≤ value ∧ value < 0x10000000000000000) :
    JsonNumber.ofInt? value = some (.int value inRange) := by
  rw [JsonNumber.ofInt?, dif_pos inRange]

theorem read_numeral_of_nat (value : Nat) {rest : List Char} (ends : EndsNumber rest) :
    readNumeral (Nat.toDigits 10 value ++ rest) =
      some (⟨false, Nat.toDigits 10 value, none, none⟩, rest) := by
  rw [readNumeral]
  · exact read_unsigned_of_nat false value ends
  · intro others same
    have digits := digits_of_nat value
    cases first : Nat.toDigits 10 value with
    | nil => exact Nat.toDigits_ne_nil first
    | cons digit digits' =>
        rw [first] at same digits
        have sign : digit = '-' := (List.cons.inj same).1
        have bad := digits digit List.mem_cons_self
        rw [sign] at bad
        cases bad

theorem read_int {value : Int}
    (inRange : -0x8000000000000000 ≤ value ∧ value < 0x10000000000000000) {rest : List Char}
    (ends : EndsNumber rest) :
    ∃ numeral, readNumeral ((toString value).toList ++ rest) = some (numeral, rest) ∧
      numeral.number? = some (.int value inRange) := by
  rw [Int.toString_eq_repr, Int.repr_eq_if]
  by_cases natural : 0 ≤ value
  · rw [if_pos natural, Nat.repr_eq_ofList_toDigits, String.toList_ofList]
    refine ⟨_, read_numeral_of_nat value.toNat ends, ?_⟩
    rw [number_of_nat false (by omega), Numeral.ofWhole?, if_neg (by decide),
      Int.toNat_of_nonneg natural, of_int_some inRange]
  · have size : ((-value).toNat : Int) = -value := Int.toNat_of_nonneg (by omega)
    have written : ("-" ++ (-value).toNat.repr).toList =
        '-' :: Nat.toDigits 10 (-value).toNat := by
      simp [Nat.repr_eq_ofList_toDigits]
    rw [if_neg natural, written, List.cons_append, readNumeral,
      read_unsigned_of_nat true _ ends]
    refine ⟨_, rfl, ?_⟩
    rw [number_of_nat true (by omega), Numeral.ofWhole?, if_pos rfl, if_neg (by omega),
      if_pos (by omega), size, Int.neg_neg, of_int_some inRange]

end PageBuilder.Json
