import PageBuilder.Proofs.Reference
import Mathlib.Data.List.Chain
import Mathlib.Tactic.SplitIfs

/-!
The grammar of references: a name and segments, told by their tokens, each token spelled as its kind
is, with blanks anywhere between them. The grammar does not say how far a token reaches. Reading
agrees with it since a name or a number never stands next to another one, so that a token which is
as long as it can be ends where the grammar has its end.
-/

namespace PageBuilder
namespace PathToken

/-- The characters between two quotes, and the text that they stand for. -/
inductive Quoted (quote : Char) : List Char → List Char → Prop
  | nil : Quoted quote [] []
  | plain {char : Char} {written value : List Char} (other : char ≠ quote) (bare : char ≠ '\\')
      (rest : Quoted quote written value) : Quoted quote (char :: written) (char :: value)
  | feed {written value : List Char} (rest : Quoted quote written value) :
      Quoted quote ('\\' :: 'n' :: written) ('\n' :: value)
  | tab {written value : List Char} (rest : Quoted quote written value) :
      Quoted quote ('\\' :: 't' :: written) ('\t' :: value)
  | itself {char : Char} {written value : List Char} (line : char ≠ '\n') (notFeed : char ≠ 'n')
      (notTab : char ≠ 't') (rest : Quoted quote written value) :
      Quoted quote ('\\' :: char :: written) (char :: value)

/-- How a token is written. Numbers are decimal and have 64 bits. -/
inductive Spelled : PathToken → List Char → Prop
  | name {word : String} (valid : Identifier.isValid word = true) :
      Spelled (.name word) word.toList
  | number {digits : List Char} (nonempty : digits ≠ [])
      (decimal : ∀ digit ∈ digits, Identifier.isDigit digit = true)
      (fits : Nat.ofDigitChars 10 digits 0 < UInt64.size) :
      Spelled (.number (Nat.ofDigitChars 10 digits 0)) digits
  | text {quote : Char} {written value : List Char} (mark : quote = '"' ∨ quote = '\'')
      (inside : Quoted quote written value) :
      Spelled (.text (String.ofList value)) (quote :: (written ++ [quote]))
  | dot : Spelled .dot ['.']
  | opening : Spelled .opening ['[']
  | closing : Spelled .closing [']']

/-- Tokens one behind the other, with blanks before, between and behind them. -/
inductive Spaced : List PathToken → List Char → Prop
  | nil : Spaced [] []
  | blank {char : Char} {tokens : List PathToken} {chars : List Char}
      (space : isSpace char = true) (rest : Spaced tokens chars) : Spaced tokens (char :: chars)
  | token {token : PathToken} {tokens : List PathToken} {written chars : List Char}
      (spelled : Spelled token written) (rest : Spaced tokens chars) :
      Spaced (token :: tokens) (written ++ chars)

theorem Spaced.spelled {tokens : List PathToken} {chars : List Char} (spaced : Spaced tokens chars)
    {token : PathToken} (member : token ∈ tokens) : ∃ written, Spelled token written := by
  induction spaced with
  | nil => cases member
  | blank _ _ ih => exact ih member
  | token spelled _ ih =>
      cases member with
      | head => exact ⟨_, spelled⟩
      | tail _ later => exact ih later

section Quoted

variable {quote : Char}

theorem Quoted.escape {char : Char} {written value : List Char} (line : char ≠ '\n')
    (rest : Quoted quote written value) :
    Quoted quote ('\\' :: char :: written) (unescape char :: value) := by
  unfold unescape
  split_ifs with feed tab
  · subst feed
    exact .feed rest
  · subst tab
    exact .tab rest
  · exact .itself line feed tab rest

theorem quoted_of_body {chars : List Char} {body : QuotedBody}
    (read : quotedBody? quote chars = some body) :
    ∃ written, body.written = written ++ [quote] ∧ Quoted quote written body.value := by
  fun_induction quotedBody? quote chars generalizing body with
  | case1 => cases read
  | case2 => cases read
  | case3 char rest line ih =>
      obtain ⟨inner, found, rfl⟩ := Option.map_eq_some_iff.1 read
      obtain ⟨written, whole, quoted⟩ := ih found
      refine ⟨'\\' :: char :: written, ?_, quoted.escape line⟩
      rw [whole]
      rfl
  | case4 rest =>
      cases read
      exact ⟨[], rfl, .nil⟩
  | case5 => cases read
  | case6 char rest literal other slash ih =>
      obtain ⟨inner, found, rfl⟩ := Option.map_eq_some_iff.1 read
      obtain ⟨written, whole, quoted⟩ := ih found
      refine ⟨char :: written, ?_, .plain other slash quoted⟩
      rw [whole]
      rfl

theorem body_of_quoted (proper : quote ≠ '\\') {written value : List Char}
    (quoted : Quoted quote written value) (rest : List Char) :
    quotedBody? quote (written ++ quote :: rest) = some ⟨value, written ++ [quote], rest⟩ := by
  induction quoted with
  | nil => simp [quotedBody?, proper]
  | plain other bare _ ih => simp [quotedBody?, other, bare, ih]
  | feed _ ih => simp [quotedBody?, unescape, ih]
  | tab _ ih => simp [quotedBody?, unescape, ih]
  | itself line notFeed notTab _ ih =>
      simp [quotedBody?, unescape, line, notFeed, notTab, ih]

end Quoted

theorem spelled_of_lexed {first : Char} {rest : List Char} {lexeme : Lexeme}
    (lexed : Lexed first rest lexeme) : Spelled lexeme.token lexeme.written := by
  cases lexed with
  | name start rest =>
      have valid : Identifier.isValid
          (String.ofList (first :: rest.takeWhile Identifier.isPart)) = true := by
        rw [Identifier.isValid, String.toList_ofList, Bool.and_eq_true]
        exact ⟨start, List.all_takeWhile⟩
      have spelled := Spelled.name valid
      rw [String.toList_ofList] at spelled
      exact spelled
  | number digit fits =>
      refine .number (List.cons_ne_nil _ _) ?_ fits
      intro char member
      cases member with
      | head => exact digit
      | tail _ inside => exact List.all_eq_true.1 List.all_takeWhile char inside
  | text mark read =>
      obtain ⟨written, whole, quoted⟩ := quoted_of_body read
      have quotes : first = '"' ∨ first = '\'' := by simpa [isQuote] using mark
      have spelled := Spelled.text quotes quoted
      rw [← whole] at spelled
      exact spelled
  | dot => exact .dot
  | opening => exact .opening
  | closing => exact .closing

theorem not_of_space {kind : Char → Bool}
    (outside : [' ', '\t', '\r', '\n'].any kind = false) {char : Char}
    (space : isSpace char = true) : kind char = false := by
  have blank : char ∈ [' ', '\t', '\r', '\n'] := by simpa [isSpace, or_assoc] using space
  exact Bool.eq_false_iff.2 (List.any_eq_false.1 outside char blank)

theorem lexed_solid {first : Char} {rest : List Char} {lexeme : Lexeme}
    (lexed : Lexed first rest lexeme) : isSpace first = false := by
  have solid {kind : Char → Bool} (holds : kind first = true)
      (outside : [' ', '\t', '\r', '\n'].any kind = false) :
      isSpace first = false := by
    cases space : isSpace first with
    | false => rfl
    | true =>
        rw [not_of_space outside space] at holds
        cases holds
  cases lexed with
  | name start => exact solid start (by decide)
  | number digit => exact solid digit (by decide)
  | text mark => exact solid mark (by decide)
  | dot => decide
  | opening => decide
  | closing => decide

/-- Names and numbers are runs of characters: they go on as long as they can. -/
def isRun : PathToken → Bool
  | .name _ => true
  | .number _ => true
  | _ => false

def Stops (chars : List Char) : Prop := ∀ char ∈ chars.head?, Identifier.isPart char = false

theorem lexed_of_spelled {token : PathToken} {written chars : List Char}
    (spelled : Spelled token written) (stops : token.isRun = true → Stops chars) :
    ∃ first rest, written = first :: rest ∧
      Lexed first (rest ++ chars) ⟨token, written, chars⟩ := by
  -- A name or a number ends where it is spelled to end, as nothing behind it goes on with it.
  cases spelled with
  | @name word valid =>
      unfold Identifier.isValid at valid
      cases shape : word.toList with
      | nil =>
          rw [shape] at valid
          cases valid
      | cons first rest =>
          rw [shape, Bool.and_eq_true] at valid
          obtain ⟨taken, dropped⟩ := run_stops (List.all_eq_true.1 valid.2) (stops rfl)
          have lexed := Lexed.name valid.1 (rest ++ chars)
          rw [nameLexeme, taken, dropped, ← shape, String.ofList_toList] at lexed
          rw [shape] at lexed
          exact ⟨first, rest, rfl, lexed⟩
  | number nonempty decimal fits =>
      cases written with
      | nil => exact absurd rfl nonempty
      | cons first rest =>
          have outside : ∀ char ∈ chars.head?, Identifier.isDigit char = false := by
            intro char starts
            have part := stops rfl char starts
            rw [Identifier.isPart, Bool.or_eq_false_iff] at part
            exact part.2
          obtain ⟨taken, dropped⟩ := run_stops
            (fun char member => decimal char (List.mem_cons_of_mem _ member)) outside
          have lexed : Lexed first (rest ++ chars) _ :=
            .number (decimal first List.mem_cons_self) (by rw [taken]; exact fits)
          rw [taken, dropped] at lexed
          exact ⟨first, rest, rfl, lexed⟩
  | @text quote written value mark inside =>
      have proper : isQuote quote = true := by simpa [isQuote] using mark
      have read := body_of_quoted (quote_ne_slash proper) inside chars
      refine ⟨quote, written ++ [quote], rfl, ?_⟩
      rw [List.append_assoc]
      exact .text proper read
  | dot => exact ⟨'.', [], rfl, .dot chars⟩
  | opening => exact ⟨'[', [], rfl, .opening chars⟩
  | closing => exact ⟨']', [], rfl, .closing chars⟩

def Apart (tokens : List PathToken) : Prop :=
  tokens.IsChain fun left right => left.isRun = true → right.isRun = false

theorem Spaced.stops {tokens : List PathToken} {chars : List Char} (spaced : Spaced tokens chars)
    (solid : ∀ token ∈ tokens.head?, token.isRun = false) : Stops chars := by
  cases spaced with
  | nil =>
      intro char starts
      cases starts
  | blank space _ =>
      intro char starts
      cases starts
      exact not_of_space (by decide) space
  | @token token _ _ _ spelled _ =>
      have mark : token.isRun = false := solid token rfl
      intro char starts
      cases spelled with
      | name => cases mark
      | number => cases mark
      | text quotes =>
          cases starts
          cases quotes with
          | inl double =>
              rw [double]
              decide
          | inr single =>
              rw [single]
              decide
      | dot =>
          cases starts
          decide
      | opening =>
          cases starts
          decide
      | closing =>
          cases starts
          decide

theorem spaced_of_scan {place : Nat} {chars : List Char} {placed : List Placed}
    (read : scan place chars = .ok placed) : Spaced (placed.map Placed.token) chars := by
  fun_induction scan place chars generalizing placed with
  | case1 =>
      cases read
      exact .nil
  | case2 place char rest space ih => exact .blank space (ih read)
  | case3 => cases read
  | case4 place char rest solid lexeme found tokens later ih =>
      cases read
      have spelled := spelled_of_lexed (lexeme_some_iff.1 found)
      have spaced := Spaced.token spelled (ih later)
      rw [lexeme_written found] at spaced
      exact spaced
  | case5 => cases read

theorem scan_of_spaced {tokens : List PathToken} {chars : List Char} (spaced : Spaced tokens chars)
    (apart : Apart tokens) (place : Nat) :
    ∃ placed, scan place chars = .ok placed ∧ placed.map Placed.token = tokens := by
  induction spaced generalizing place with
  | nil => exact ⟨[], by rw [scan], rfl⟩
  | blank space _ ih =>
      rw [scan_space space]
      exact ih apart _
  | @token token tokens written chars spelled rest ih =>
      have later := List.isChain_cons.1 apart
      have stops : token.isRun = true → Stops chars := fun run =>
        rest.stops fun next starts => later.1 next starts run
      obtain ⟨first, inner, rfl, lexed⟩ := lexed_of_spelled spelled stops
      obtain ⟨placed, scanned, same⟩ := ih later.2 (place + byteSize (first :: inner))
      refine ⟨⟨token, place⟩ :: placed, ?_, ?_⟩
      · rw [List.cons_append, scan_some (lexed_solid lexed) (lexeme_some_iff.2 lexed), scanned]
        rfl
      · rw [List.map_cons, same]

end PathToken

def PathSegment.tokens : PathSegment → List PathToken
  | .field word => [.dot, .name word]
  | .index number => [.opening, .number number, .closing]
  | .key word => [.opening, .text word, .closing]

namespace Reference

open PathToken (Placed Spaced Apart)

def tokens (reference : Reference) : List PathToken :=
  .name reference.root :: reference.segments.flatMap PathSegment.tokens

theorem apart_segment (segment : PathSegment) :
    Apart segment.tokens ∧ ∀ token ∈ segment.tokens.head?, token.isRun = false := by
  cases segment with
  | field word => simp [Apart, PathSegment.tokens, PathToken.isRun]
  | index number => simp [Apart, PathSegment.tokens, PathToken.isRun]
  | key word => simp [Apart, PathSegment.tokens, PathToken.isRun]

theorem apart_segments (segments : List PathSegment) :
    Apart (segments.flatMap PathSegment.tokens) ∧
      ∀ token ∈ (segments.flatMap PathSegment.tokens).head?, token.isRun = false := by
  induction segments with
  | nil => simp [Apart]
  | cons segment rest ih =>
      obtain ⟨inside, starts⟩ := apart_segment segment
      rw [List.flatMap_cons]
      constructor
      · apply List.isChain_append.2
        exact ⟨inside, ih.1, fun _ _ next first _ => ih.2 next first⟩
      · intro token first
        rw [List.head?_append] at first
        cases segment with
        | field => exact starts token first
        | index => exact starts token first
        | key => exact starts token first

theorem apart_tokens (reference : Reference) : Apart reference.tokens := by
  obtain ⟨apart, starts⟩ := apart_segments reference.segments
  apply List.isChain_cons.2
  exact ⟨fun next first _ => starts next first, apart⟩

theorem segments_ok_iff {finish : Nat} {placed : List Placed} {segments : List PathSegment} :
    segmentsOf finish placed = .ok segments ↔
      placed.map Placed.token = segments.flatMap PathSegment.tokens := by
  constructor
  · intro read
    fun_induction segmentsOf finish placed generalizing segments with
    | case1 =>
        cases read
        rfl
    | case2 | case3 | case4 =>
        rename_i ih
        obtain ⟨later, found, rfl⟩ := Outcome.map_eq_ok.1 read
        rw [List.flatMap_cons, ← ih found]
        rfl
    | case5 => cases read
  · intro same
    induction segments generalizing placed with
    | nil =>
        rw [List.flatMap_nil, List.map_eq_nil_iff] at same
        rw [same, segmentsOf]
    | cons segment rest ih =>
        rw [List.flatMap_cons] at same
        cases segment with
        | field word =>
            simp only [PathSegment.tokens, List.cons_append, List.nil_append,
              List.map_eq_cons_iff] at same
            obtain ⟨⟨_, dot⟩, _, rfl, rfl, ⟨_, name⟩, more, rfl, rfl, same⟩ := same
            rw [segmentsOf, ih same]
            rfl
        | index number =>
            simp only [PathSegment.tokens, List.cons_append, List.nil_append,
              List.map_eq_cons_iff] at same
            obtain ⟨⟨_, _⟩, _, rfl, rfl, ⟨_, _⟩, _, rfl, rfl, ⟨_, _⟩, more, rfl, rfl, same⟩ := same
            rw [segmentsOf, ih same]
            rfl
        | key word =>
            simp only [PathSegment.tokens, List.cons_append, List.nil_append,
              List.map_eq_cons_iff] at same
            obtain ⟨⟨_, _⟩, _, rfl, rfl, ⟨_, _⟩, _, rfl, rfl, ⟨_, _⟩, more, rfl, rfl, same⟩ := same
            rw [segmentsOf, ih same]
            rfl

theorem of_tokens_ok_iff {start finish : Nat} {placed : List Placed} {reference : Reference} :
    ofTokens start finish placed = .ok reference ↔ placed.map Placed.token = reference.tokens := by
  constructor
  · intro read
    rw [ofTokens.eq_def] at read
    split at read
    · cases read
    · obtain ⟨segments, found, rfl⟩ := Outcome.map_eq_ok.1 read
      rw [List.map_cons, segments_ok_iff.1 found, tokens]
    · cases read
  · intro same
    rw [tokens, List.map_eq_cons_iff] at same
    obtain ⟨⟨_, _⟩, rest, rfl, rfl, path⟩ := same
    rw [ofTokens, segments_ok_iff.2 path]
    rfl

/-- Reading is telling the tokens of the grammar, wherever the text starts. -/
theorem read_at_ok_iff {start : Nat} {chars : List Char} {reference : Reference} :
    readAt start chars = .ok reference ↔ Spaced reference.tokens chars := by
  rw [readAt]
  constructor
  · intro read
    split at read
    · cases read
    · rename_i placed scanned
      have spaced := PathToken.spaced_of_scan scanned
      rw [of_tokens_ok_iff.1 read] at spaced
      exact spaced
  · intro spaced
    obtain ⟨placed, scanned, same⟩ :=
      PathToken.scan_of_spaced spaced (apart_tokens reference) start
    rw [scanned]
    exact of_tokens_ok_iff.2 same

/-- A text is read as a reference if and only if it spells the tokens of that reference. -/
theorem read_ok_iff_spaced {text : String} {reference : Reference} :
    read text = .ok reference ↔ Spaced reference.tokens text.toList := by
  rw [read]
  exact read_at_ok_iff

example : read "a .b[ 07 ]\n['it\\'s\\n']" =
    .ok ⟨"a", [.field "b", .index 7, .key "it's\n"]⟩ := by decide +kernel

end Reference
end PageBuilder
