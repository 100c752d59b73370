import PageBuilder.Proofs.Code.Literals

/-!
When the layout tells apart what the language does. It does so as long as no substitution holds a
backtick, no comment goes on over several lines outside of the texts between backticks, and no
comment of one line ends before its line does.
-/

namespace PageBuilder.Code

namespace Lexing

/-- A character that means the same to the layout and to the language. -/
structure Unmixed (lexing : Lexing) (char : Char) : Prop where
  substitution : lexing.braces ≠ [] → char ≠ '`'
  slash : lexing.braces = [] → lexing.lexeme = .slash → char ≠ '*'
  comment : lexing.braces = [] → lexing.lexeme = .lineComment → endsLine char = true → char = '\n'

instance (lexing : Lexing) (char : Char) : Decidable (lexing.Unmixed char) :=
  decidable_of_iff
    ((lexing.braces ≠ [] → char ≠ '`') ∧
      (lexing.braces = [] → lexing.lexeme = .slash → char ≠ '*') ∧
      (lexing.braces = [] → lexing.lexeme = .lineComment → endsLine char = true → char = '\n'))
    ⟨fun held => ⟨held.1, held.2.1, held.2.2⟩,
      fun unmixed => ⟨unmixed.substitution, unmixed.slash, unmixed.comment⟩⟩

def UnmixedChars : Lexing → List Char → Prop
  | _, [] => True
  | lexing, char :: rest => lexing.Unmixed char ∧ UnmixedChars (lexing.step char) rest

def unmixed_chars_decidable : ∀ (lexing : Lexing) (chars : List Char),
    Decidable (UnmixedChars lexing chars)
  | _, [] => inferInstanceAs (Decidable True)
  | lexing, char :: rest =>
      have := unmixed_chars_decidable (lexing.step char) rest
      inferInstanceAs (Decidable (_ ∧ _))

instance (lexing : Lexing) (chars : List Char) : Decidable (UnmixedChars lexing chars) :=
  unmixed_chars_decidable lexing chars

/-- Lines of unmixed characters. One that ends between backticks ends in no blank, unless it starts
there as well, and never in a carriage return. -/
def UnmixedLines : Lexing → List (List Char) → Prop
  | _, [] => True
  | lexing, line :: rest =>
      UnmixedChars lexing line ∧
        (rest ≠ [] → (lexing.run line).inLiteral = true →
          ∀ char ∈ line.getLast?, char ≠ '\r' ∧
            (Text.isBlank char = true → lexing.inLiteral = true)) ∧
        UnmixedLines (lexing.run (line ++ ['\n'])) rest

def unmixed_lines_decidable : ∀ (lexing : Lexing) (lines : List (List Char)),
    Decidable (UnmixedLines lexing lines)
  | _, [] => inferInstanceAs (Decidable True)
  | lexing, line :: rest =>
      have := unmixed_lines_decidable (lexing.run (line ++ ['\n'])) rest
      have : Decidable (∀ char ∈ line.getLast?,
          char ≠ '\r' ∧ (Text.isBlank char = true → lexing.inLiteral = true)) :=
        Option.decidableForallMem line.getLast?
      inferInstanceAs (Decidable (_ ∧ _ ∧ _))

instance (lexing : Lexing) (lines : List (List Char)) : Decidable (UnmixedLines lexing lines) :=
  unmixed_lines_decidable lexing lines

end Lexing

/-- The lines of a text are unmixed, from its start on. -/
structure Unmixed (text : String) : Prop where
  lines : Lexing.UnmixedLines .start (text.toList.splitOn '\n')

namespace Layout

/-- What the layout makes of a place in an unmixed text. A substitution is text to it, and so are
the strings and comments in it. -/
inductive Follows : Lexing → Place → Prop
  | code : Follows ⟨.code, []⟩ .code
  | slash : Follows ⟨.slash, []⟩ .slash
  | comment : Follows ⟨.lineComment, []⟩ .comment
  | string (double escaped : Bool) :
      Follows ⟨.string double escaped, []⟩ (.quoted (if double then '"' else '\'') escaped)
  | template (escaped dollar : Bool) : Follows ⟨.template escaped dollar, []⟩ (.template escaped)
  | substitution {lexeme : Lexeme} (code : lexeme.isTemplate = false) (count : Nat)
      (escaped : Bool) : Follows ⟨lexeme, [count]⟩ (.template escaped)

theorem Follows.in_literal {lexing : Lexing} {place : Place} (follows : Follows lexing place) :
    lexing.inLiteral = true ↔ place.mode = .template := by
  cases follows with
  | code | slash | comment | string | template =>
      simp [Lexing.inLiteral, Lexeme.isTemplate, Place.mode]
  | substitution => simp [Lexing.inLiteral, Place.mode]

theorem follows_of_code (movement : Movement) (char : Char) :
    Follows (Lexing.ofCode [] char) (Reading.ofCode movement char).place := by
  unfold Lexing.ofCode Reading.ofCode
  by_cases quote : isQuote char = true
  · rw [if_pos quote, if_pos quote]
    have same : (if decide (char = '"') = true then '"' else '\'') = char := by
      rcases (by simpa [isQuote] using quote : char = '"' ∨ char = '\'') with rfl | rfl <;> rfl
    have follows := Follows.string (decide (char = '"')) false
    rwa [same] at follows
  · rw [if_neg quote, if_neg quote]
    by_cases tick : char = '`'
    · rw [if_pos tick, if_pos tick]
      exact .template false false
    · rw [if_neg tick, if_neg tick]
      by_cases slash : char = '/'
      · subst slash
        exact .slash
      · have place : (if isOpening char = true then (⟨.code, movement.open⟩ : Reading)
            else if isClosing char = true then ⟨.code, movement.close⟩
            else ⟨.code, movement⟩).place = .code := by
          split
          · rfl
          · split <;> rfl
        rw [if_neg slash, if_neg slash, place]
        split
        · exact .code
        · split <;> exact .code

/-- What comes behind a character of a substitution. -/
inductive Behind (char : Char) : Lexing → Prop
  | goesOn {lexeme : Lexeme} (code : lexeme.isTemplate = false) (count : Nat) :
      Behind char ⟨lexeme, [count]⟩
  | ends (closes : char = '\x7d') : Behind char ⟨.template false false, []⟩

theorem behind_code {char : Char} (inside : char ≠ '`') (count : Nat) :
    Behind char (Lexing.ofCode [count] char) := by
  unfold Lexing.ofCode
  rw [if_neg inside]
  split
  · exact .goesOn rfl count
  · split
    · exact .goesOn rfl count
    · split
      · exact .goesOn rfl (count + 1)
      · split
        · rename_i closes
          -- Only the brace that no brace in the substitution opens ends it.
          cases count with
          | zero => exact .ends closes
          | succ count => exact .goesOn rfl count
        · exact .goesOn rfl count

theorem substitution_step {lexeme : Lexeme} (code : lexeme.isTemplate = false) (count : Nat)
    {char : Char} (inside : char ≠ '`') : Behind char (Lexing.step ⟨lexeme, [count]⟩ char) := by
  cases lexeme with
  | code => exact behind_code inside count
  | slash =>
      simp only [Lexing.step]
      split
      · exact .goesOn rfl count
      · split
        · exact .goesOn rfl count
        · exact behind_code inside count
  | lineComment | blockComment =>
      simp only [Lexing.step]
      split
      · exact .goesOn rfl count
      · exact .goesOn rfl count
  | string double escaped =>
      simp only [Lexing.step]
      repeat' split
      all_goals exact .goesOn rfl count
  | template escaped dollar => cases code

/-- A backslash hides the next character from both. -/
theorem follows_string {double escaped : Bool} {char : Char} (notFeed : char ≠ '\n')
    {movement : Movement} {next : Reading}
    (stepped : Reading.step ⟨.quoted (if double then '"' else '\'') escaped, movement⟩ char =
      some next) : Follows (Lexing.step ⟨.string double escaped, []⟩ char) next.place := by
  cases escaped with
  | true =>
      rw [Reading.step_quoted_escaped notFeed] at stepped
      cases stepped
      exact .string double false
  | false =>
      by_cases escape : char = '\\'
      · subst escape
        cases stepped
        exact .string double true
      · rw [Reading.step_quoted notFeed movement escape] at stepped
        cases stepped
        simp only [Lexing.step, Bool.false_eq_true, if_false, if_neg escape]
        by_cases closes : char = if double then '"' else '\''
        · rw [if_pos closes, if_pos closes]
          exact .code
        · rw [if_neg closes, if_neg closes]
          exact .string double false

theorem follows_template {escaped dollar : Bool} {char : Char} (notFeed : char ≠ '\n')
    {movement : Movement} {next : Reading}
    (stepped : Reading.step ⟨.template escaped, movement⟩ char = some next) :
    Follows (Lexing.step ⟨.template escaped dollar, []⟩ char) next.place := by
  cases escaped with
  | true =>
      rw [Reading.step_template_escaped] at stepped
      cases stepped
      exact .template false false
  | false =>
      by_cases escape : char = '\\'
      · subst escape
        cases stepped
        exact .template true false
      · rw [Reading.step_template notFeed movement escape] at stepped
        cases stepped
        simp only [Lexing.step, Bool.false_eq_true, if_false, if_neg escape]
        split
        · exact .code
        · split
          · exact .substitution rfl 0 false
          · exact .template false _

theorem follows_substitution {lexeme : Lexeme} (code : lexeme.isTemplate = false) (count : Nat)
    {escaped : Bool} {char : Char} (inside : char ≠ '`') (notFeed : char ≠ '\n')
    {movement : Movement} {next : Reading}
    (stepped : Reading.step ⟨.template escaped, movement⟩ char = some next) :
    Follows (Lexing.step ⟨lexeme, [count]⟩ char) next.place := by
  have place : ∃ skips, next.place = .template skips ∧ (char = '\x7d' → skips = false) := by
    cases escaped with
    | true =>
        rw [Reading.step_template_escaped] at stepped
        cases stepped
        exact ⟨false, rfl, fun _ => rfl⟩
    | false =>
        by_cases escape : char = '\\'
        · subst escape
          cases stepped
          exact ⟨true, rfl, fun absurd => by cases absurd⟩
        · rw [Reading.step_template notFeed movement escape, if_neg inside] at stepped
          cases stepped
          exact ⟨false, rfl, fun _ => rfl⟩
  obtain ⟨skips, same, ends⟩ := place
  rw [same]
  have behind := substitution_step code count inside
  generalize Lexing.step ⟨lexeme, [count]⟩ char = next at behind
  cases behind with
  | goesOn code count => exact .substitution code count skips
  | ends closes =>
      rw [ends closes]
      exact .template false false

theorem Follows.step {lexing : Lexing} {place : Place} (follows : Follows lexing place)
    {char : Char} (unmixed : lexing.Unmixed char) (notFeed : char ≠ '\n') {movement : Movement}
    {next : Reading}
    (stepped : Reading.step ⟨place, movement⟩ char = some next) :
    Follows (lexing.step char) next.place := by
  cases follows with
  | code =>
      cases stepped
      exact follows_of_code movement char
  | slash =>
      have star : char ≠ '*' := unmixed.slash rfl rfl
      cases stepped
      simp only [Lexing.step, if_neg star]
      by_cases comment : char = '/'
      · rw [if_pos comment, if_pos comment]
        exact .comment
      · rw [if_neg comment, if_neg comment]
        exact follows_of_code movement char
  | comment =>
      have goesOn : ¬Lexing.endsLine char = true := fun ends =>
        notFeed (unmixed.comment rfl rfl ends)
      rw [Reading.step, if_neg notFeed] at stepped
      cases stepped
      simp only [Lexing.step, if_neg goesOn]
      exact .comment
  | string double escaped => exact follows_string notFeed stepped
  | template escaped dollar => exact follows_template notFeed stepped
  | substitution code count escaped =>
      exact follows_substitution code count (unmixed.substitution (by simp)) notFeed stepped

theorem Follows.run {lexing : Lexing} {place : Place} (follows : Follows lexing place)
    {line : List Char} (unmixed : lexing.UnmixedChars line) (unbroken : '\n' ∉ line)
    {movement : Movement} {last : Reading}
    (read : Reading.run ⟨place, movement⟩ line = some last) :
    Follows (lexing.run line) last.place := by
  induction line generalizing lexing place movement with
  | nil =>
      cases read
      exact follows
  | cons char rest ih =>
      obtain ⟨next, stepped, later⟩ := Option.bind_eq_some_iff.1 (Reading.run_cons .. ▸ read)
      have notFeed : char ≠ '\n' := fun same => unbroken (same ▸ List.mem_cons_self)
      exact ih (follows.step unmixed.1 notFeed stepped) unmixed.2
        (fun member => unbroken (List.mem_cons_of_mem _ member)) later

theorem Follows.feed {lexing : Lexing} {place : Place} (follows : Follows lexing place)
    (closed : ∀ quote, place.mode ≠ .quoted quote) :
    Follows (lexing.step '\n') place.mode.place := by
  cases follows with
  | code | slash | comment => exact .code
  | string double escaped => exact absurd rfl (closed _)
  | template escaped dollar =>
      have step :
          Lexing.step ⟨.template escaped dollar, []⟩ '\n' = ⟨.template false false, []⟩ := by
        cases escaped <;> cases dollar <;> rfl
      rw [step]
      exact .template false false
  | @substitution lexeme code count escaped =>
      have behind := substitution_step code count (by decide : '\n' ≠ '`')
      generalize Lexing.step ⟨lexeme, [count]⟩ '\n' = next at behind
      cases behind with
      | goesOn code count => exact .substitution code count false
      | ends closes => exact absurd closes (by decide)

theorem place_mode (mode : Mode) : mode.place.mode = mode := by cases mode <;> rfl

theorem state_mode_open (state : State) (quote : Char) : state.mode ≠ .quoted quote := by
  rw [State.mode]
  split <;> simp

theorem tracks_lines {lines : List (List Char)} (unbroken : ∀ line ∈ lines, '\n' ∉ line)
    {state : State} {number : Nat} {lexing : Lexing} {outs : List (List Char)}
    (follows : Follows lexing state.mode.place) (unmixed : lexing.UnmixedLines lines)
    (done : layoutLines state number (Text.lines (['\n'].intercalate lines)) = .ok outs) :
    TracksLines lexing state.mode lines := by
  induction lines generalizing state number lexing outs with
  | nil => trivial
  | cons line rest ih =>
      obtain ⟨chars, ends, further⟩ := unmixed
      have clean := unbroken line List.mem_cons_self
      have inside := follows.in_literal
      rw [place_mode] at inside
      refine ⟨inside.1, fun goesOn last char final => ?_, ?_⟩
      · obtain ⟨notReturn, kept⟩ := ends goesOn last char final
        exact ⟨notReturn, fun blank => inside.1 (kept blank)⟩
      cases rest with
      | nil => trivial
      | cons second rest =>
          obtain ⟨out, next, more, first, later, rfl⟩ := layout_first_line clean done
          have mode := next_mode clean first
          have proper : state.mode.Proper := by
            rw [State.mode]
            split <;> trivial
          obtain ⟨last, read, _, scanned⟩ := read_line clean (proper_place _ proper) .still
          rw [scan_place] at scanned
          have same : last.place.mode = next.mode := by rw [← mode, scanned]
          have after := (follows.run chars clean read).feed
            (by rw [same]; exact state_mode_open next)
          rw [same] at after
          have step : lexing.run (line ++ ['\n']) = (lexing.run line).step '\n' := by
            rw [Lexing.run, List.foldl_append]
            rfl
          rw [mode, step]
          rw [step] at further
          exact ih (fun other member => unbroken other (List.mem_cons_of_mem _ member)) after
            further later

theorem tracks_of_unmixed {text result : String} (done : layout text = .ok result)
    (unmixed : Unmixed text) : Tracks text := by
  rw [layout] at done
  cases laid : layoutLines .start 0 (Text.lines text.toList) with
  | error fault => rw [laid] at done; cases done
  | ok outs =>
      have whole : ['\n'].intercalate (text.toList.splitOn '\n') = text.toList :=
        List.intercalate_splitOn '\n'
      rw [← whole] at laid
      exact ⟨tracks_lines (split_unbroken _) Follows.code unmixed.lines laid⟩

theorem kept_of_tracks {text result : String} (done : layout text = .ok result)
    (tracks : Tracks text) : literals result = literals text := by
  rw [layout] at done
  cases laid : layoutLines .start 0 (Text.lines text.toList) with
  | error fault => rw [laid] at done; cases done
  | ok outs =>
      rw [laid] at done
      cases done
      have settled : Collecting.start.Settled :=
        ⟨fun char blank => Lexing.step_blank blank .start, rfl, rfl⟩
      have whole : ['\n'].intercalate (text.toList.splitOn '\n') = text.toList :=
        List.intercalate_splitOn '\n'
      have tracked := tracks.lines
      rw [show Mode.code = State.start.mode from rfl] at tracked
      have kept := lines_kept (List.splitOn_ne_nil '\n' text.toList) (split_unbroken _)
        (fun _ => settled) tracked (by rwa [whole])
      rw [whole] at kept
      rw [literals, literals, String.toList_ofList]
      exact kept

end Layout

/-- Laying out a text keeps what stands between backticks, as long as the layout takes each line
that starts there for such a line and leaves the end of each that ends there. It does where no
substitution holds a backtick, comments keep to their lines, and no line ends in a blank inside of a
text between backticks that started on it. -/
theorem literals_kept {text result : String} (done : layout text = .ok result) :
    (Layout.Tracks text → literals result = literals text) ∧ (Unmixed text → Layout.Tracks text) :=
  ⟨Layout.kept_of_tracks done, Layout.tracks_of_unmixed done⟩

theorem literals_kept_sample :
    layout "  a = `$\x7b\"\x7d\"\x7d\n  b `;\n" = .ok "a = `$\x7b\"\x7d\"\x7d\n  b `;\n" ∧
      Unmixed "  a = `$\x7b\"\x7d\"\x7d\n  b `;\n" ∧
      literals "a = `$\x7b\"\x7d\"\x7d\n  b `;\n" =
        literals "  a = `$\x7b\"\x7d\"\x7d\n  b `;\n" := by
  have done : layout "  a = `$\x7b\"\x7d\"\x7d\n  b `;\n" =
      .ok "a = `$\x7b\"\x7d\"\x7d\n  b `;\n" := by decide +kernel
  have unmixed : Unmixed "  a = `$\x7b\"\x7d\"\x7d\n  b `;\n" := ⟨by decide +kernel⟩
  obtain ⟨kept, tracks⟩ := literals_kept done
  exact ⟨done, unmixed, kept (tracks unmixed)⟩

/-- Where a text between backticks holds another one, the second line of the inner text is taken for
code and loses the blanks at its start. -/
theorem nested_literal_changed :
    ∃ text result, layout text = .ok result ∧ literals result ≠ literals text := by
  refine ⟨"const a = `x$\x7b`\n  y`\x7d`;\n", "const a = `x$\x7b`\ny`\x7d`;\n", ?_, ?_⟩
  · decide +kernel
  · decide +kernel

end PageBuilder.Code
