import PageBuilder.Proofs.Outcome
import PageBuilder.Reference.Basic

/-!
References where they are moved and where they are cut off. What a path says does not depend on the
place where it starts. A token that stands whole before a cut is read as it was; only a quoted text
can hold a brace, so a cut before a brace leaves a text without its end.
-/

namespace PageBuilder
namespace PathToken

section Quoted

variable {quote : Char} (proper : quote ≠ '\\') {chars : List Char} {body : QuotedBody}

include proper

theorem quoted_body_behind (read : quotedBody? quote chars = some body) (behind : List Char) :
    quotedBody? quote (body.written ++ behind) = some { body with rest := behind } := by
  fun_induction quotedBody? quote chars generalizing body with
  | case1 => cases read
  | case2 => cases read
  | case3 char rest feed ih =>
      obtain ⟨inner, found, rfl⟩ := Option.map_eq_some_iff.1 read
      simp [quotedBody?, feed, ih found]
  | case4 rest =>
      cases read
      simp [quotedBody?, proper]
  | case5 => cases read
  | case6 char rest literal other slash ih =>
      obtain ⟨inner, found, rfl⟩ := Option.map_eq_some_iff.1 read
      simp [quotedBody?, other, slash, ih found]

theorem quoted_body_cut (read : quotedBody? quote chars = some body) {kept more : List Char}
    (cut : body.written = kept ++ more) (nonempty : more ≠ []) : quotedBody? quote kept = none := by
  fun_induction quotedBody? quote chars generalizing body kept with
  | case1 => cases read
  | case2 => cases read
  | case3 char rest feed ih =>
      obtain ⟨inner, found, rfl⟩ := Option.map_eq_some_iff.1 read
      rcases kept with _ | ⟨first, _ | ⟨second, kept⟩⟩
      · rfl
      · obtain ⟨rfl, _⟩ := List.cons.inj cut
        simp [quotedBody?, proper.symm]
      · simp only [List.cons_append, List.cons.injEq] at cut
        obtain ⟨rfl, rfl, later⟩ := cut
        simp [quotedBody?, feed, ih found later]
  | case4 rest =>
      cases read
      rcases kept with _ | ⟨first, kept⟩
      · rfl
      · obtain ⟨_, later⟩ := List.cons.inj cut
        exact absurd (List.append_eq_nil_iff.1 later.symm).2 nonempty
  | case5 => cases read
  | case6 char rest literal other slash ih =>
      obtain ⟨inner, found, rfl⟩ := Option.map_eq_some_iff.1 read
      rcases kept with _ | ⟨first, kept⟩
      · rfl
      · obtain ⟨rfl, later⟩ := List.cons.inj cut
        simp [quotedBody?, other, slash, ih found later]

omit proper in
theorem quoted_body_closed (read : quotedBody? quote chars = some body) :
    body.written.getLast? = some quote := by
  fun_induction quotedBody? quote chars generalizing body with
  | case1 => cases read
  | case2 => cases read
  | case3 char rest feed ih =>
      obtain ⟨inner, found, rfl⟩ := Option.map_eq_some_iff.1 read
      have closed := ih found
      simp [List.getLast?_cons, closed]
  | case4 rest => cases read; rfl
  | case5 => cases read
  | case6 char rest literal other slash ih =>
      obtain ⟨inner, found, rfl⟩ := Option.map_eq_some_iff.1 read
      have closed := ih found
      simp [List.getLast?_cons, closed]

end Quoted

theorem quote_ne_slash {char : Char} (quote : isQuote char = true) : char ≠ '\\' := by
  rintro rfl
  exact absurd quote (by decide)

inductive Lexed : Char → List Char → Lexeme → Prop
  | name {first : Char} (start : Identifier.isStart first = true) (rest : List Char) :
      Lexed first rest (nameLexeme first rest)
  | number {first : Char} {rest : List Char} (digit : Identifier.isDigit first = true)
      (fits : numberValue (first :: rest.takeWhile Identifier.isDigit) < 0x10000000000000000) :
      Lexed first rest
        ⟨.number (numberValue (first :: rest.takeWhile Identifier.isDigit)),
          first :: rest.takeWhile Identifier.isDigit, rest.dropWhile Identifier.isDigit⟩
  | text {quote : Char} {rest : List Char} {body : QuotedBody} (mark : isQuote quote = true)
      (read : quotedBody? quote rest = some body) :
      Lexed quote rest ⟨.text (String.ofList body.value), quote :: body.written, body.rest⟩
  | dot (rest : List Char) : Lexed '.' rest ⟨.dot, ['.'], rest⟩
  | opening (rest : List Char) : Lexed '[' rest ⟨.opening, ['['], rest⟩
  | closing (rest : List Char) : Lexed ']' rest ⟨.closing, [']'], rest⟩

theorem digit_not_start {char : Char} (digit : Identifier.isDigit char = true) :
    Identifier.isStart char = false := by
  simp only [Identifier.isDigit, Identifier.isStart, Identifier.isLetter, Bool.and_eq_true,
    Bool.or_eq_false_iff, Bool.and_eq_false_iff, decide_eq_true_eq, decide_eq_false_iff_not,
    Char.le_def, UInt32.le_iff_toNat_le, Char.ext_iff, ← UInt32.toNat_inj] at digit ⊢
  simp at digit ⊢
  omega

theorem lexeme_of_quote {quote : Char} (mark : isQuote quote = true) (rest : List Char) :
    lexeme? quote rest = textLexeme? quote rest := by
  have quotes : quote = '"' ∨ quote = '\'' := by simpa [isQuote] using mark
  have other : Identifier.isStart quote = false ∧ Identifier.isDigit quote = false := by
    rcases quotes with rfl | rfl <;> exact ⟨by decide, by decide⟩
  rw [lexeme?, if_neg (by simp [other.1]), if_neg (by simp [other.2]), if_pos mark]

theorem lexeme_some_iff {first : Char} {rest : List Char} {lexeme : Lexeme} :
    lexeme? first rest = some lexeme ↔ Lexed first rest lexeme := by
  constructor
  · intro read
    simp only [lexeme?] at read
    split at read
    · rename_i start
      cases read
      exact .name start rest
    · split at read
      · rename_i digit
        simp only [numberLexeme?] at read
        split at read
        · rename_i fits
          cases read
          exact .number digit fits
        · cases read
      · split at read
        · rename_i quote
          obtain ⟨body, found, rfl⟩ := Option.map_eq_some_iff.1 read
          exact .text quote found
        · split at read
          · rename_i same
            cases read
            exact same ▸ .dot rest
          · split at read
            · rename_i same
              cases read
              exact same ▸ .opening rest
            · split at read
              · rename_i same
                cases read
                exact same ▸ .closing rest
              · cases read
  · intro lexed
    cases lexed with
    | name start => rw [lexeme?, if_pos start]
    | number digit fits =>
        rw [lexeme?, if_neg (by simp [digit_not_start digit]), if_pos digit, numberLexeme?]
        simp only [if_pos fits]
    | text mark read =>
        rw [lexeme_of_quote mark, textLexeme?, read, Option.map_some]
    | dot | opening | closing => rfl

section Lexeme

variable {first : Char} {rest : List Char} {lexeme : Lexeme}

theorem run_stops {inRun : Char → Bool} {front behind : List Char}
    (inside : ∀ char ∈ front, inRun char = true)
    (outside : ∀ char ∈ behind.head?, inRun char = false) :
    (front ++ behind).takeWhile inRun = front ∧ (front ++ behind).dropWhile inRun = behind := by
  have ends : behind.takeWhile inRun = [] ∧ behind.dropWhile inRun = behind := by
    cases behind with
    | nil => exact ⟨rfl, rfl⟩
    | cons char behind => simp [outside char rfl]
  rw [List.takeWhile_append_of_pos inside, List.dropWhile_append_of_pos inside, ends.1, ends.2]
  exact ⟨List.append_nil _, rfl⟩

theorem run_behind {inRun : Char → Bool} {rest behind : List Char}
    (goesOn : ∀ char, behind.head? = some char → (rest.dropWhile inRun).head? = some char) :
    (rest.takeWhile inRun ++ behind).takeWhile inRun = rest.takeWhile inRun ∧
      (rest.takeWhile inRun ++ behind).dropWhile inRun = behind := by
  apply run_stops
  · exact List.all_eq_true.1 List.all_takeWhile
  · intro char starts
    have outside := List.head?_dropWhile_not inRun rest
    rw [goesOn char starts] at outside
    simpa using outside

theorem lexeme_behind (read : lexeme? first rest = some lexeme) {kept behind : List Char}
    (whole : first :: kept = lexeme.written ++ behind)
    (goesOn : ∀ char, behind.head? = some char → lexeme.rest.head? = some char) :
    lexeme? first kept = some { lexeme with rest := behind } := by
  rw [lexeme_some_iff] at read ⊢
  cases read with
  | name start =>
      obtain ⟨taken, dropped⟩ := run_behind goesOn
      obtain rfl := (List.cons.inj whole).2
      have lexed := Lexed.name start (rest.takeWhile Identifier.isPart ++ behind)
      rw [nameLexeme, taken, dropped] at lexed
      exact lexed
  | number digit fits =>
      obtain ⟨taken, dropped⟩ := run_behind goesOn
      obtain rfl := (List.cons.inj whole).2
      have lexed : Lexed first (rest.takeWhile Identifier.isDigit ++ behind) _ :=
        .number digit (by rw [taken]; exact fits)
      rw [taken, dropped] at lexed
      exact lexed
  | text mark read =>
      obtain rfl := (List.cons.inj whole).2
      exact .text mark (quoted_body_behind (quote_ne_slash mark) read behind)
  | dot | opening | closing =>
      obtain rfl := (List.cons.inj whole).2
      constructor

/-- Only a quoted text holds a brace, which does not end it: cut off there it is no token. -/
theorem lexeme_cut (read : lexeme? first rest = some lexeme) {kept more : List Char}
    (cut : lexeme.written = first :: kept ++ '\x7d' :: more) :
    lexeme? first kept = none ∧ more ≠ [] := by
  have outside {inRun : Char → Bool} (brace : inRun '\x7d' = false)
      (held : rest.takeWhile inRun = kept ++ '\x7d' :: more) : False := by
    have all : (rest.takeWhile inRun).all inRun = true := List.all_takeWhile
    rw [held] at all
    simp [brace] at all
  rw [lexeme_some_iff] at read
  cases read with
  | name start => exact (outside (by decide) (List.cons.inj cut).2).elim
  | number digit fits => exact (outside (by decide) (List.cons.inj cut).2).elim
  | text mark read =>
      have held : _ = kept ++ '\x7d' :: more := (List.cons.inj cut).2
      have unclosed := quoted_body_cut (quote_ne_slash mark) read held (by simp)
      refine ⟨by rw [lexeme_of_quote mark, textLexeme?, unclosed, Option.map_none], ?_⟩
      rintro rfl
      have closed := quoted_body_closed read
      rw [held, List.getLast?_concat] at closed
      rw [← Option.some.inj closed] at mark
      exact absurd mark (by decide)
  | dot | opening | closing => simp at cut

end Lexeme

section Scan

variable {place : Nat} {first : Char} {rest : List Char}

theorem scan_space (space : isSpace first = true) :
    scan place (first :: rest) = scan (place + first.utf8Size) rest := by
  rw [scan, if_pos space]

theorem scan_none (solid : isSpace first = false) (unread : lexeme? first rest = none) :
    scan place (first :: rest) = .error place := by
  rw [scan, if_neg (by simp [solid])]
  split
  · rfl
  · rename_i read
    rw [unread] at read
    cases read

theorem scan_some (solid : isSpace first = false) {lexeme : Lexeme}
    (read : lexeme? first rest = some lexeme) :
    scan place (first :: rest) =
      (scan (place + byteSize lexeme.written) lexeme.rest).map (⟨lexeme.token, place⟩ :: ·) := by
  rw [scan, if_neg (by simp [solid])]
  split
  · rename_i unread
    rw [unread] at read
    cases read
  · rename_i other again
    rw [read] at again
    cases again
    cases scan (place + byteSize lexeme.written) lexeme.rest <;> rfl

/-- A brace in a path that can be read is inside a quoted text, so before it there is no path. -/
theorem scan_cut {chars : List Char} {tokens : List Placed} (read : scan place chars = .ok tokens)
    {before after : List Char} (cut : chars = before ++ '\x7d' :: after) :
    (∃ fault, scan place before = .error fault) ∧ after ≠ [] := by
  fun_induction scan place chars generalizing tokens before with
  | case1 => simp at cut
  | case2 place char rest space ih =>
      cases before with
      | nil =>
          obtain rfl := (List.cons.inj cut).1
          exact absurd space (by decide)
      | cons first before =>
          obtain ⟨rfl, later⟩ := List.cons.inj cut
          rw [scan_space space]
          exact ih read later
  | case3 => cases read
  | case4 place char rest solid lexeme found tokens later ih =>
      have blank : isSpace char = false := by simpa using solid
      have apart := lexeme_written found
      rw [cut] at apart
      cases before with
      | nil =>
          obtain rfl := (List.cons.inj cut).1
          cases found
      | cons first kept =>
          obtain rfl := (List.cons.inj cut).1
          -- The token ends before the brace, or else it is a quoted text with the brace in it.
          have whole {inner : List Char} (held : char :: kept = lexeme.written ++ inner)
              (goesOn : lexeme.rest = inner ++ '\x7d' :: after) :
              (∃ fault, scan place (char :: kept) = .error fault) ∧ after ≠ [] := by
            obtain ⟨⟨fault, fails⟩, nonempty⟩ := ih later goesOn
            have again := lexeme_behind found held fun head starts => by
              rw [goesOn, List.head?_append, starts, Option.some_or]
            refine ⟨⟨fault, ?_⟩, nonempty⟩
            rw [scan_some blank again, fails]
            rfl
          rcases List.append_eq_append_iff.1 apart with ⟨inner, held, goesOn⟩ |
            ⟨inner, held, goesOn⟩
          · exact whole held goesOn
          · cases inner with
            | nil =>
                have ends : char :: kept = lexeme.written ++ [] := by simpa using held.symm
                exact whole ends goesOn.symm
            | cons brace inner =>
                obtain ⟨rfl, rfl⟩ := List.cons.inj goesOn
                obtain ⟨unread, nonempty⟩ := lexeme_cut found held
                exact ⟨⟨place, scan_none blank unread⟩, by simp [nonempty]⟩
  | case5 => cases read

theorem names_valid {chars : List Char} {tokens : List Placed}
    (read : scan place chars = .ok tokens) :
    ∀ token ∈ tokens, ∀ word, token.token = .name word → Identifier.isValid word = true := by
  fun_induction scan place chars generalizing tokens with
  | case1 =>
      cases read
      exact fun _ member => absurd member List.not_mem_nil
  | case2 place char rest space ih => exact ih read
  | case3 => cases read
  | case4 place char rest solid lexeme found tokens later ih =>
      cases read
      intro token member word same
      rcases List.mem_cons.1 member with rfl | inside
      · rw [lexeme_some_iff] at found
        cases found with
        | name start =>
            cases same
            rw [Identifier.isValid, String.toList_ofList, Bool.and_eq_true]
            exact ⟨start, List.all_takeWhile⟩
        | number | text | dot | opening | closing => cases same
      · exact ih later token inside word same
  | case5 => cases read

theorem scan_moved {chars : List Char} {tokens : List Placed} (read : scan place chars = .ok tokens)
    (other : Nat) : ∃ moved, scan other chars = .ok moved ∧
      moved.map Placed.token = tokens.map Placed.token := by
  fun_induction scan place chars generalizing tokens other with
  | case1 =>
      cases read
      exact ⟨[], by rw [scan], rfl⟩
  | case2 place char rest space ih =>
      rw [scan_space space]
      exact ih read _
  | case3 => cases read
  | case4 place char rest solid lexeme found tokens later ih =>
      cases read
      obtain ⟨moved, again, same⟩ := ih later (other + byteSize lexeme.written)
      refine ⟨⟨lexeme.token, other⟩ :: moved, ?_, by rw [List.map_cons, List.map_cons, same]⟩
      rw [scan_some (by simpa using solid) found, again]
      rfl
  | case5 => cases read

end Scan

end PathToken

namespace Reference

open PathToken (Placed)

theorem segments_moved {finish other : Nat} {tokens moved : List Placed}
    (same : moved.map Placed.token = tokens.map Placed.token) {segments : List PathSegment}
    (read : segmentsOf finish tokens = .ok segments) : segmentsOf other moved = .ok segments := by
  fun_induction segmentsOf finish tokens generalizing moved segments with
  | case1 =>
      rw [List.map_nil, List.map_eq_nil_iff] at same
      rw [same, ← read, segmentsOf]
  | case2 _ field _ rest ih =>
      obtain ⟨later, found, read⟩ := Outcome.map_eq_ok.1 read
      simp only [List.map_cons, List.map_eq_cons_iff] at same
      obtain ⟨⟨_, dot⟩, _, rfl, rfl, ⟨_, name⟩, more, rfl, rfl, same⟩ := same
      rw [segmentsOf, ih same found, ← read]
      rfl
  | case3 | case4 =>
      rename_i rest ih
      obtain ⟨later, found, read⟩ := Outcome.map_eq_ok.1 read
      simp only [List.map_cons, List.map_eq_cons_iff] at same
      obtain ⟨⟨_, _⟩, _, rfl, rfl, ⟨_, _⟩, _, rfl, rfl, ⟨_, _⟩, more, rfl, rfl, same⟩ := same
      rw [segmentsOf, ih same found, ← read]
      rfl
  | case5 => cases read

theorem scanned_of_read {text : String} {reference : Reference}
    (said : read text = .ok reference) : ∃ tokens, PathToken.scan 0 text.toList = .ok tokens := by
  rw [read, readAt] at said
  split at said
  · cases said
  · rename_i tokens scanned
    exact ⟨tokens, scanned⟩

theorem read_moved {start : Nat} {chars : List Char} {reference : Reference}
    (read : readAt start chars = .ok reference) (other : Nat) :
    readAt other chars = .ok reference := by
  rw [readAt] at read ⊢
  split at read
  · cases read
  · rename_i tokens scanned
    obtain ⟨moved, again, same⟩ := PathToken.scan_moved scanned other
    rw [again]
    dsimp only
    rw [ofTokens.eq_def] at read
    split at read
    · cases read
    · obtain ⟨segments, found, read⟩ := Outcome.map_eq_ok.1 read
      simp only [List.map_cons, List.map_eq_cons_iff] at same
      obtain ⟨⟨_, _⟩, more, rfl, rfl, same⟩ := same
      rw [ofTokens, segments_moved same found, ← read]
      rfl
    · cases read

theorem fields_of_segments {finish : Nat} {tokens : List Placed}
    (named : ∀ token ∈ tokens, ∀ word, token.token = .name word → Identifier.isValid word = true)
    {segments : List PathSegment} (read : segmentsOf finish tokens = .ok segments) {word : String}
    (member : .field word ∈ segments) : Identifier.isValid word = true := by
  fun_induction segmentsOf finish tokens generalizing segments with
  | case1 =>
      cases read
      cases member
  | case2 _ field place rest ih =>
      obtain ⟨later, found, rfl⟩ := Outcome.map_eq_ok.1 read
      rcases List.mem_cons.1 member with same | inside
      · cases same
        exact named ⟨.name word, place⟩ (by simp) word rfl
      · exact ih (fun token listed => named token (by simp [listed])) found inside
  | case3 | case4 =>
      rename_i ih
      obtain ⟨later, found, rfl⟩ := Outcome.map_eq_ok.1 read
      rcases List.mem_cons.1 member with same | inside
      · cases same
      · exact ih (fun token listed => named token (by simp [listed])) found inside
  | case5 => cases read

theorem fields_valid {start : Nat} {chars : List Char} {reference : Reference}
    (read : readAt start chars = .ok reference) {word : String}
    (member : .field word ∈ reference.segments) : Identifier.isValid word = true := by
  rw [readAt] at read
  split at read
  · cases read
  · rename_i tokens scanned
    have named := PathToken.names_valid scanned
    rw [ofTokens.eq_def] at read
    split at read
    · cases read
    · obtain ⟨segments, found, rfl⟩ := Outcome.map_eq_ok.1 read
      exact fields_of_segments (fun token listed => named token (List.mem_cons_of_mem _ listed))
        found member
    · cases read

end Reference

end PageBuilder
