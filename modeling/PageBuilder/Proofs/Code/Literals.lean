import PageBuilder.Proofs.Code.Balanced

/-!
Texts between backticks. By the rules of the language a substitution inside of one is code again,
with strings, comments and such texts of its own; the layout only tells apart whether a line starts
between backticks. Where it tells so rightly, and where no line that ends between backticks loses
its last blanks, the lines hold the same texts before and after.
-/

namespace PageBuilder.Code

/-- What a character belongs to. Markup and regular expressions are code like any other. -/
inductive Lexeme where
  | code
  /-- Behind a slash in code. -/
  | slash
  | lineComment
  | blockComment (starred : Bool)
  | string (double escaped : Bool)
  | template (escaped dollar : Bool)
  deriving DecidableEq

def Lexeme.isTemplate : Lexeme → Bool
  | .template _ _ => true
  | _ => false

@[ext]
structure Lexing where
  lexeme : Lexeme
  /-- For each substitution around the place the braces that are open in it, the inner one first. -/
  braces : List Nat
  deriving DecidableEq

namespace Lexing

def start : Lexing := ⟨.code, []⟩

/-- Between the backticks of a text, be it in a substitution. -/
def inLiteral (lexing : Lexing) : Bool := lexing.lexeme.isTemplate || !lexing.braces.isEmpty

def ofCode (braces : List Nat) (char : Char) : Lexing :=
  if Layout.isQuote char then ⟨.string (char = '"') false, braces⟩
  else if char = '`' then ⟨.template false false, braces⟩
  else if char = '/' then ⟨.slash, braces⟩
  else if char = '\x7b' then ⟨.code, braces.modifyHead (· + 1)⟩
  else if char = '\x7d' then
    match braces with
    | [] => ⟨.code, []⟩
    | 0 :: outer => ⟨.template false false, outer⟩
    | (count + 1) :: outer => ⟨.code, count :: outer⟩
  else ⟨.code, braces⟩

def endsLine (char : Char) : Bool :=
  char = '\n' || char = '\r' || char = '\u2028' || char = '\u2029'

def step (lexing : Lexing) (char : Char) : Lexing :=
  match lexing.lexeme with
  | .code => ofCode lexing.braces char
  | .slash =>
      if char = '/' then ⟨.lineComment, lexing.braces⟩
      else if char = '*' then ⟨.blockComment false, lexing.braces⟩
      else ofCode lexing.braces char
  | .lineComment => if endsLine char then ⟨.code, lexing.braces⟩ else lexing
  | .blockComment starred =>
      if starred && char = '/' then ⟨.code, lexing.braces⟩
      else ⟨.blockComment (char = '*'), lexing.braces⟩
  | .string double escaped =>
      if escaped then ⟨.string double false, lexing.braces⟩
      else if char = '\\' then ⟨.string double true, lexing.braces⟩
      else if char = (if double then '"' else '\'') then ⟨.code, lexing.braces⟩
      else lexing
  | .template escaped dollar =>
      if escaped then ⟨.template false false, lexing.braces⟩
      else if char = '\\' then ⟨.template true false, lexing.braces⟩
      else if char = '`' then ⟨.code, lexing.braces⟩
      else if dollar && char = '\x7b' then ⟨.code, 0 :: lexing.braces⟩
      else ⟨.template false (char = '$'), lexing.braces⟩

def run (lexing : Lexing) (chars : List Char) : Lexing := chars.foldl step lexing

end Lexing

/-- The texts between backticks up to a place, those inside of others left out. -/
structure Collecting where
  lexing : Lexing
  held : List Char
  done : List (List Char)
  deriving DecidableEq

namespace Collecting

def start : Collecting := ⟨.start, [], []⟩

def step (collecting : Collecting) (char : Char) : Collecting :=
  let next := collecting.lexing.step char
  if collecting.lexing.inLiteral then
    if next.inLiteral then ⟨next, collecting.held ++ [char], collecting.done⟩
    else ⟨next, [], collecting.done ++ [collecting.held]⟩
  else ⟨next, [], collecting.done⟩

def run (collecting : Collecting) (chars : List Char) : Collecting := chars.foldl step collecting

end Collecting

/-- What stands between the backticks of each text that is not inside of another. -/
def literals (text : String) : List (List Char) := (Collecting.start.run text.toList).done

namespace Layout

/-- The layout takes nothing off the end of the line. -/
def EndKept (mode : Mode) (line : List Char) : Prop :=
  ∀ char ∈ line.getLast?, char ≠ '\r' ∧ (Text.isBlank char = true → mode = .template)

instance (mode : Mode) (line : List Char) : Decidable (EndKept mode line) :=
  Option.decidableForallMem line.getLast?

/-- The layout takes each of the lines that starts between backticks for such a line, and leaves the
end of each that ends there. -/
def TracksLines : Lexing → Mode → List (List Char) → Prop
  | _, _, [] => True
  | lexing, mode, line :: rest =>
      (lexing.inLiteral = true → mode = .template) ∧
        (rest ≠ [] → (lexing.run line).inLiteral = true → EndKept mode line) ∧
        TracksLines (lexing.run (line ++ ['\n'])) (scan mode .still line).1 rest

def tracks_lines_decidable : ∀ (lexing : Lexing) (mode : Mode) (lines : List (List Char)),
    Decidable (TracksLines lexing mode lines)
  | _, _, [] => inferInstanceAs (Decidable True)
  | lexing, mode, line :: rest =>
      have := tracks_lines_decidable (lexing.run (line ++ ['\n'])) (scan mode .still line).1 rest
      inferInstanceAs (Decidable (_ ∧ _ ∧ _))

instance (lexing : Lexing) (mode : Mode) (lines : List (List Char)) :
    Decidable (TracksLines lexing mode lines) := tracks_lines_decidable lexing mode lines

/-- The lines of a text are tracked, from its start on. -/
structure Tracks (text : String) : Prop where
  lines : TracksLines .start .code (text.toList.splitOn '\n')

end Layout

theorem ne_of_blank {char mark : Char} (blank : Text.isBlank char = true)
    (dark : Text.isBlank mark = false) : char ≠ mark := by
  rintro rfl
  rw [blank] at dark
  cases dark

theorem blank_apart {isMark : Char → Bool} {char : Char} (blank : Text.isBlank char = true)
    (dark : ∀ mark, isMark mark = true → Text.isBlank mark = false) : isMark char = false := by
  cases held : isMark char with
  | false => rfl
  | true => exact absurd rfl (ne_of_blank blank (dark char held))

theorem quote_dark (quote : Char) (proper : Layout.isQuote quote = true) :
    Text.isBlank quote = false := by
  rcases (by simpa [Layout.isQuote] using proper : quote = '"' ∨ quote = '\'') with rfl | rfl
  · decide
  · decide

theorem blank_facts {char : Char} (blank : Text.isBlank char = true) :
    Layout.isQuote char = false ∧ char ≠ '`' ∧ char ≠ '/' ∧ char ≠ '*' ∧ char ≠ '\x7b' ∧
      char ≠ '\x7d' ∧ char ≠ '\\' ∧ char ≠ '$' := by
  refine ⟨blank_apart blank quote_dark, ?_, ?_, ?_, ?_, ?_, ?_, ?_⟩
  all_goals exact ne_of_blank blank (by decide)

def Lexeme.afterBlank (char : Char) : Lexeme → Lexeme
  | .code | .slash => .code
  | .lineComment => if Lexing.endsLine char then .code else .lineComment
  | .blockComment _ => .blockComment false
  | .string double _ => .string double false
  | .template _ _ => .template false false

namespace Lexing

/-- Where blanks change nothing. -/
def Settled (lexing : Lexing) : Prop :=
  ∀ char, Text.isBlank char = true → lexing.step char = lexing

section Blank

variable {char : Char} (blank : Text.isBlank char = true)

include blank

theorem of_code_blank (braces : List Nat) : ofCode braces char = ⟨.code, braces⟩ := by
  obtain ⟨quote, tick, slash, _, opens, closes, _⟩ := blank_facts blank
  simp [ofCode, quote, tick, slash, opens, closes]

/-- A blank leaves only the comment of a line, where it ends the line. -/
theorem step_blank (lexing : Lexing) :
    lexing.step char = ⟨lexing.lexeme.afterBlank char, lexing.braces⟩ := by
  obtain ⟨quote, tick, slash, star, opens, closes, escape, dollar⟩ := blank_facts blank
  obtain ⟨lexeme, braces⟩ := lexing
  cases lexeme with
  | code => exact of_code_blank blank braces
  | slash => simp [step, Lexeme.afterBlank, of_code_blank blank, slash, star]
  | lineComment =>
      simp only [step, Lexeme.afterBlank]
      split
      · rfl
      · rfl
  | blockComment starred => simp [step, Lexeme.afterBlank, slash, star]
  | string double escaped =>
      have open' : char ≠ if double then '"' else '\'' := by
        have both : char ≠ '"' ∧ char ≠ '\'' := by simpa [Layout.isQuote] using quote
        cases double
        · exact both.2
        · exact both.1
      cases escaped with
      | true => simp [step, Lexeme.afterBlank]
      | false => simp [step, Lexeme.afterBlank, escape, open']
  | template escaped dollared =>
      cases escaped with
      | true => simp [step, Lexeme.afterBlank]
      | false => simp [step, Lexeme.afterBlank, escape, tick, opens, dollar]

theorem in_literal_blank (lexing : Lexing) : (lexing.step char).inLiteral = lexing.inLiteral := by
  rw [step_blank blank]
  obtain ⟨lexeme, braces⟩ := lexing
  cases lexeme with
  | code | slash | blockComment | string | template => rfl
  | lineComment =>
      rw [Lexeme.afterBlank]
      split
      · rfl
      · rfl

theorem feed_blank (lexing : Lexing) (outside : lexing.inLiteral = false) :
    (lexing.step char).step '\n' = lexing.step '\n' := by
  have line : Text.isBlank '\n' = true := by decide
  rw [step_blank line, step_blank blank, step_blank line]
  obtain ⟨lexeme, braces⟩ := lexing
  cases lexeme with
  | code | slash | blockComment | string => rfl
  | lineComment =>
      rw [Lexeme.afterBlank]
      by_cases ends : endsLine char = true
      · rw [if_pos ends]
        rfl
      · rw [if_neg ends]
  | template => cases outside

end Blank

theorem settled_feed (lexing : Lexing) (outside : lexing.inLiteral = false) :
    (lexing.step '\n').Settled := by
  intro char blank
  rw [step_blank (by decide : Text.isBlank '\n' = true), step_blank blank]
  obtain ⟨lexeme, braces⟩ := lexing
  cases lexeme with
  | code | slash | lineComment | blockComment | string => rfl
  | template => cases outside

end Lexing

namespace Collecting

theorem run_append (collecting : Collecting) (front back : List Char) :
    collecting.run (front ++ back) = (collecting.run front).run back := List.foldl_append

theorem step_lexing (collecting : Collecting) (char : Char) :
    (collecting.step char).lexing = collecting.lexing.step char := by
  simp only [step]
  split
  · split
    · rfl
    · rfl
  · rfl

theorem run_lexing (collecting : Collecting) (chars : List Char) :
    (collecting.run chars).lexing = collecting.lexing.run chars := by
  induction chars generalizing collecting with
  | nil => rfl
  | cons char rest ih =>
      have later := ih (collecting.step char)
      rw [step_lexing] at later
      exact later

theorem step_outside (collecting : Collecting) {char : Char}
    (outside : (collecting.step char).lexing.inLiteral = false) :
    (collecting.step char).held = [] := by
  rw [step_lexing] at outside
  simp only [step, outside]
  split
  · rfl
  · rfl

/-- Before the first line and after each that ends outside, blanks change nothing. -/
structure Settled (collecting : Collecting) : Prop where
  lexing : collecting.lexing.Settled
  outside : collecting.lexing.inLiteral = false
  held : collecting.held = []

theorem Settled.run_blanks {collecting : Collecting} (settled : collecting.Settled)
    {blanks : List Char} (blank : ∀ char ∈ blanks, Text.isBlank char = true) :
    collecting.run blanks = collecting := by
  induction blanks with
  | nil => rfl
  | cons char rest ih =>
      have stay : collecting.step char = collecting := by
        obtain ⟨still, outside, held⟩ := settled
        have same := still char (blank char List.mem_cons_self)
        obtain ⟨lexing, _, done⟩ := collecting
        cases held
        simp only [step, outside, same, Bool.false_eq_true, if_false]
      have later := ih fun other member => blank other (List.mem_cons_of_mem _ member)
      rw [run, List.foldl_cons, stay]
      exact later

theorem settled_feed (collecting : Collecting)
    (outside : collecting.lexing.inLiteral = false) : (collecting.step '\n').Settled := by
  have still : (collecting.step '\n').lexing.inLiteral = false := by
    rw [step_lexing, Lexing.in_literal_blank (by decide), outside]
  refine ⟨?_, still, step_outside collecting still⟩
  rw [step_lexing]
  exact Lexing.settled_feed _ outside

section Blank

variable {blanks : List Char} (blank : ∀ char ∈ blanks, Text.isBlank char = true)

include blank

theorem in_literal_blanks (collecting : Collecting) :
    (collecting.run blanks).lexing.inLiteral = collecting.lexing.inLiteral := by
  induction blanks generalizing collecting with
  | nil => rfl
  | cons char rest ih =>
      have later := ih (fun other member => blank other (List.mem_cons_of_mem _ member))
        (collecting.step char)
      rw [step_lexing, Lexing.in_literal_blank (blank char List.mem_cons_self)] at later
      exact later

/-- No text ends with a blank. -/
theorem done_blanks (collecting : Collecting) :
    (collecting.run blanks).done = collecting.done := by
  induction blanks generalizing collecting with
  | nil => rfl
  | cons char rest ih =>
      have later := ih (fun other member => blank other (List.mem_cons_of_mem _ member))
        (collecting.step char)
      refine later.trans ?_
      have kept := Lexing.in_literal_blank (blank char List.mem_cons_self) collecting.lexing
      simp only [step, kept]
      split
      · rfl
      · rfl

theorem feed_blanks {collecting : Collecting} (outside : collecting.lexing.inLiteral = false) :
    (collecting.run blanks).step '\n' = collecting.step '\n' := by
  induction blanks generalizing collecting with
  | nil => rfl
  | cons char rest ih =>
      have first := blank char List.mem_cons_self
      have still : (collecting.step char).lexing.inLiteral = false := by
        rw [step_lexing, Lexing.in_literal_blank first, outside]
      have later := ih (fun other member => blank other (List.mem_cons_of_mem _ member)) still
      refine later.trans ?_
      have same := Lexing.feed_blank first collecting.lexing outside
      have next : (collecting.step char).lexing = collecting.lexing.step char := step_lexing _ _
      simp only [step] at still next ⊢
      simp only [outside, Bool.false_eq_true, if_false] at still ⊢
      simp only [still, same, Bool.false_eq_true, if_false]

end Blank

end Collecting

theorem trim_split (line : List Char) : ∃ front back,
    (∀ char ∈ front, Text.isBlank char = true) ∧ (∀ char ∈ back, Text.isBlank char = true) ∧
      line = front ++ (Text.trim line ++ back) := by
  have blank (chars : List Char) : ∀ char ∈ chars.takeWhile Text.isBlank,
      Text.isBlank char = true := List.all_eq_true.1 List.all_takeWhile
  refine ⟨line.takeWhile Text.isBlank,
    ((Text.trimStart line).reverse.takeWhile Text.isBlank).reverse, blank line,
    fun char member => blank _ char (List.mem_reverse.1 member), ?_⟩
  have rest : Text.trim line ++ ((Text.trimStart line).reverse.takeWhile Text.isBlank).reverse =
      Text.trimStart line := by
    rw [Text.trim, Text.trimEnd, Text.trimStart, ← List.reverse_append,
      List.takeWhile_append_dropWhile, List.reverse_reverse]
  rw [rest]
  exact List.takeWhile_append_dropWhile.symm

theorem split_unbroken (chars : List Char) : ∀ line ∈ chars.splitOn '\n', '\n' ∉ line := by
  induction chars with
  | nil => simp
  | cons char rest ih =>
      intro line member
      rw [List.splitOn_cons_eq_if_modifyHead] at member
      split at member
      · rcases List.mem_cons.1 member with rfl | later
        · exact List.not_mem_nil
        · exact ih line later
      · rename_i other
        obtain ⟨first, more, split⟩ := List.exists_cons_of_ne_nil (List.splitOn_ne_nil '\n' rest)
        rw [split, List.modifyHead_cons] at member
        rcases List.mem_cons.1 member with rfl | later
        · have clean := ih first (split ▸ List.mem_cons_self)
          have apart : '\n' ≠ char := fun same => other (beq_iff_eq.2 same.symm)
          simp [clean, apart]
        · exact ih line (split ▸ List.mem_cons_of_mem _ later)

theorem return_split (raw : List Char) :
    ∃ returned, raw = Text.dropReturn raw ++ returned ∧ (returned = [] ∨ returned = ['\r']) := by
  unfold Text.dropReturn
  split
  · rename_i last
    exact ⟨['\r'], (List.dropLast_append_getLast? _ last).symm, Or.inr rfl⟩
  · exact ⟨[], (List.append_nil raw).symm, Or.inl rfl⟩

theorem return_blank {returned : List Char} (held : returned = [] ∨ returned = ['\r']) :
    ∀ char ∈ returned, Text.isBlank char = true := by
  rcases held with rfl | rfl
  · exact fun char member => absurd member List.not_mem_nil
  · exact List.forall_mem_singleton.2 (by decide)

namespace Layout

def State.mode (state : State) : Mode := if state.inTemplate then .template else .code

theorem scan_line_mode {inTemplate : Bool} {number : Nat} {line : List Char} {scanned : LineScan}
    (done : scanLine inTemplate number line = .ok scanned) :
    (scan (if inTemplate then .template else .code) .still line).1 =
      if scanned.inTemplate then .template else .code := by
  rw [scanLine] at done
  split at done
  · cases done
  · rename_i mode movement text same
    cases done
    rw [same]
    cases mode with
    | code | template => rfl
    | quoted quote => exact absurd rfl (text quote)

/-- A line between backticks stays as it is, of another one all but the blanks at its ends. -/
theorem layout_line_cases {state next : State} {number : Nat} {line out : List Char}
    (done : layoutLine state number line = .ok (out, next)) :
    (state.mode = .template ∧ out = line ∧ (scan .template .still line).1 = next.mode) ∨
      (state.mode = .code ∧
        (∃ level, out = indentation level ++ Text.trim line) ∧
        (scan .code .still (Text.trim line)).1 = next.mode) := by
  rw [layoutLine] at done
  cases inside : state.inTemplate with
  | true =>
      rw [if_pos inside] at done
      cases scanned : scanLine true number line with
      | error fault => rw [scanned] at done; cases done
      | ok result =>
          cases closed : close number result.movement.closed state.groups with
          | error fault => simp [scanned, closed, bind, Except.bind] at done
          | ok groups =>
              simp only [scanned, closed, bind, Except.bind, Except.ok.injEq,
                Prod.mk.injEq] at done
              obtain ⟨rfl, rfl⟩ := done
              exact Or.inl ⟨by rw [State.mode, if_pos inside], rfl, scan_line_mode scanned⟩
  | false =>
      have code : state.mode = .code := by rw [State.mode, inside]; rfl
      rw [if_neg (by simp [inside])] at done
      refine Or.inr ⟨code, ?_⟩
      dsimp only at done
      split at done
      · rename_i empty
        cases done
        rw [List.isEmpty_iff.1 empty, code]
        exact ⟨⟨0, rfl⟩, rfl⟩
      · cases scanned : scanLine false number (Text.trim line) with
        | error fault => rw [scanned] at done; cases done
        | ok result =>
            cases closed : close number (withTags (Text.trim line) result.movement).closed
                state.groups with
            | error fault => simp [scanned, closed, bind, Except.bind] at done
            | ok groups =>
                simp only [scanned, closed, bind, Except.bind, Except.ok.injEq,
                  Prod.mk.injEq] at done
                obtain ⟨rfl, rfl⟩ := done
                exact ⟨⟨groups.length, rfl⟩, scan_line_mode scanned⟩

theorem neutral_of_blank {char : Char} (blank : Text.isBlank char = true)
    (notFeed : char ≠ '\n') : isNeutral char = true := by
  have brackets (mark : Char) (held : isOpening mark = true ∨ isClosing mark = true) :
      Text.isBlank mark = false := by
    simp only [isOpening, isClosing, Bool.or_eq_true, decide_eq_true_eq] at held
    rcases held with (((rfl | rfl) | rfl) | ((rfl | rfl) | rfl)) <;> decide
  have opening := blank_apart blank fun mark opens => brackets mark (Or.inl opens)
  have closing := blank_apart blank fun mark closes => brackets mark (Or.inr closes)
  obtain ⟨quote, tick, slash, _⟩ := blank_facts blank
  simp [isNeutral, opening, closing, quote, tick, slash, notFeed]

theorem step_blank_mode {reading next : Reading} {char : Char}
    (blank : Text.isBlank char = true) (notFeed : char ≠ '\n') (proper : reading.place.Proper)
    (stepped : reading.step char = some next) : next.place.mode = reading.place.mode := by
  obtain ⟨_, tick, slash, _, _, _, escape, _⟩ := blank_facts blank
  obtain ⟨place, movement⟩ := reading
  have code := of_code_neutral (neutral_of_blank blank notFeed) movement
  cases place with
  | code =>
      rw [Reading.step, code] at stepped
      cases stepped
      rfl
  | slash =>
      rw [Reading.step, if_neg slash, code] at stepped
      cases stepped
      rfl
  | comment =>
      rw [Reading.step, if_neg notFeed] at stepped
      cases stepped
      rfl
  | quoted quote escaped =>
      cases escaped with
      | true =>
          rw [Reading.step_quoted_escaped notFeed] at stepped
          cases stepped
          rfl
      | false =>
          have other : char ≠ quote := ne_of_blank blank (quote_dark quote proper)
          rw [Reading.step_quoted notFeed movement escape, if_neg other] at stepped
          cases stepped
          rfl
  | template escaped =>
      cases escaped with
      | true =>
          rw [Reading.step_template_escaped] at stepped
          cases stepped
          rfl
      | false =>
          rw [Reading.step_template notFeed movement escape, if_neg tick] at stepped
          cases stepped
          rfl

theorem scan_of_run {line : List Char} (unbroken : '\n' ∉ line) {mode : Mode}
    (proper : mode.Proper) {movement : Movement} {last : Reading}
    (read : Reading.run ⟨mode.place, movement⟩ line = some last) :
    scan mode movement line = (last.place.mode, last.movement) := by
  obtain ⟨end', ran, _, ends⟩ := read_line unbroken (proper_place mode proper) movement
  rw [scan_place] at ends
  rw [read] at ran
  cases ran
  exact ends

/-- Blanks at the start of a line of code are passed over. -/
theorem scan_behind_blanks {blanks line : List Char} (unbroken : '\n' ∉ blanks ++ line)
    (blank : ∀ char ∈ blanks, Text.isBlank char = true) (movement : Movement) :
    scan .code movement (blanks ++ line) = scan .code movement line := by
  have clean : '\n' ∉ line := fun member => unbroken (List.mem_append_right _ member)
  have neutral : ∀ char ∈ blanks, isNeutral char = true := fun char member =>
    neutral_of_blank (blank char member) fun feed =>
      unbroken (List.mem_append_left _ (feed ▸ member))
  have code : Mode.code.Proper := trivial
  obtain ⟨last, read, _, _⟩ := read_line clean (proper_place .code code) movement
  have whole : Reading.run ⟨Mode.code.place, movement⟩ (blanks ++ line) = some last := by
    rw [Reading.run_append, show Mode.code.place = .code from rfl, leads_of_neutral neutral]
    exact read
  rw [scan_of_run unbroken code whole, scan_of_run clean code read]

theorem run_blanks_mode {blanks : List Char} (unbroken : '\n' ∉ blanks)
    (blank : ∀ char ∈ blanks, Text.isBlank char = true) {reading last : Reading}
    (proper : reading.place.Proper) (read : reading.run blanks = some last) :
    last.place.mode = reading.place.mode := by
  induction blanks generalizing reading with
  | nil =>
      cases read
      rfl
  | cons char rest ih =>
      obtain ⟨next, stepped, later⟩ := Option.bind_eq_some_iff.1 (Reading.run_cons .. ▸ read)
      have notFeed : char ≠ '\n' := fun same => unbroken (same ▸ List.mem_cons_self)
      have first := step_blank_mode (blank char List.mem_cons_self) notFeed proper stepped
      exact (ih (fun member => unbroken (List.mem_cons_of_mem _ member))
        (fun other member => blank other (List.mem_cons_of_mem _ member))
        (proper_step stepped proper) later).trans first

/-- Blanks at the end of a line do not change how the next line starts. -/
theorem scan_before_blanks {line blanks : List Char} (unbroken : '\n' ∉ line ++ blanks)
    (blank : ∀ char ∈ blanks, Text.isBlank char = true) {mode : Mode} (proper : mode.Proper) :
    (scan mode .still (line ++ blanks)).1 = (scan mode .still line).1 := by
  have clean : '\n' ∉ line := fun member => unbroken (List.mem_append_left _ member)
  have apart : '\n' ∉ blanks := fun member => unbroken (List.mem_append_right _ member)
  obtain ⟨middle, read, kept, _⟩ := read_line clean (proper_place mode proper) .still
  obtain ⟨last, more, _, _⟩ := read_line apart kept middle.movement
  have whole : Reading.run ⟨mode.place, .still⟩ (line ++ blanks) = some last := by
    rw [Reading.run_append, read]
    exact more
  rw [scan_of_run unbroken proper whole, scan_of_run clean proper read]
  exact run_blanks_mode apart blank kept more

section Line

variable {state next : State} {number : Nat} {collecting : Collecting}
  (settled : collecting.lexing.inLiteral = false → collecting.Settled)
  (inside : collecting.lexing.inLiteral = true → state.mode = .template)

include settled inside

theorem laid_out_line {line out : List Char}
    (done : layoutLine state number line = .ok (out, next)) :
    ∃ kept blanks, line = kept ++ blanks ∧ (∀ char ∈ blanks, Text.isBlank char = true) ∧
      (state.mode = .template → blanks = []) ∧ collecting.run out = collecting.run kept := by
  rcases layout_line_cases done with ⟨_, rfl, _⟩ | ⟨code, ⟨level, rfl⟩, _⟩
  · exact ⟨out, [], (List.append_nil out).symm, fun _ member => absurd member List.not_mem_nil,
      fun _ => rfl, rfl⟩
  · have outside : collecting.lexing.inLiteral = false := by
      cases held : collecting.lexing.inLiteral with
      | false => rfl
      | true => rw [inside held] at code; cases code
    obtain ⟨front, back, ahead, behind, whole⟩ := trim_split line
    refine ⟨front ++ Text.trim line, back, ?_, behind, fun text => ?_, ?_⟩
    · rw [List.append_assoc]
      exact whole
    · rw [code] at text
      cases text
    · rw [Collecting.run_append, Collecting.run_append,
        (settled outside).run_blanks fun _ => blank_of_indentation,
        (settled outside).run_blanks ahead]

theorem fed_line {raw out : List Char}
    (done : layoutLine state number (Text.dropReturn raw) = .ok (out, next))
    (ends : (collecting.lexing.run raw).inLiteral = true → EndKept state.mode raw) :
    collecting.run (out ++ ['\n']) = collecting.run (raw ++ ['\n']) := by
  obtain ⟨kept, blanks, line, blank, whole, same⟩ := laid_out_line settled inside done
  obtain ⟨returned, feed, ret⟩ := return_split raw
  have dark : ∀ char ∈ blanks ++ returned, Text.isBlank char = true := by
    intro char member
    rcases List.mem_append.1 member with old | new
    · exact blank char old
    · exact return_blank ret char new
  have split : raw = kept ++ (blanks ++ returned) := by
    rw [← List.append_assoc, ← line, ← feed]
  rw [Collecting.run_append, same, split, List.append_assoc, Collecting.run_append _ kept,
    Collecting.run_append _ (blanks ++ returned)]
  cases held : (collecting.run kept).lexing.inLiteral with
  | false => exact (Collecting.feed_blanks dark held).symm
  | true =>
      have last : (collecting.lexing.run raw).inLiteral = true := by
        rw [← Collecting.run_lexing, split, Collecting.run_append,
          Collecting.in_literal_blanks dark, held]
      -- Between backticks a line that goes on ends in nothing that the layout takes off.
      have unpadded : blanks ++ returned = [] := by
        by_contra padded
        obtain ⟨char, final⟩ := Option.ne_none_iff_exists'.1 (mt List.getLast?_eq_none_iff.1 padded)
        have end' : raw.getLast? = Option.some char := by
          rw [split, List.getLast?_append, final]
          rfl
        obtain ⟨notReturn, text⟩ := ends last char end'
        rw [whole (text (dark char (List.mem_of_getLast? final))), List.nil_append] at final
        rcases ret with rfl | rfl
        · cases final
        · exact notReturn (Option.some.inj final).symm
      rw [unpadded]
      rfl

end Line

theorem next_mode {state next : State} {number : Nat} {raw out : List Char}
    (unbroken : '\n' ∉ raw)
    (done : layoutLine state number (Text.dropReturn raw) = .ok (out, next)) :
    (scan state.mode .still raw).1 = next.mode := by
  obtain ⟨returned, feed, ret⟩ := return_split raw
  have proper : state.mode.Proper := by
    rw [State.mode]
    split
    · trivial
    · trivial
  have same : (scan state.mode .still raw).1 =
      (scan state.mode .still (Text.dropReturn raw)).1 := by
    have broken : '\n' ∉ Text.dropReturn raw ++ returned := by rwa [← feed]
    have ends := scan_before_blanks broken (return_blank ret) proper
    rwa [← feed] at ends
  rw [same]
  rcases layout_line_cases done with ⟨text, _, ends⟩ | ⟨code, _, ends⟩
  · rw [text, ends]
  · obtain ⟨front, back, ahead, behind, whole⟩ := trim_split (Text.dropReturn raw)
    have broken : '\n' ∉ front ++ (Text.trim (Text.dropReturn raw) ++ back) := by
      rw [← whole]
      exact fun member => unbroken (feed ▸ List.mem_append_left returned member)
    have clean : '\n' ∉ Text.trim (Text.dropReturn raw) ++ back := fun member =>
      broken (List.mem_append_right _ member)
    rw [code] at proper ⊢
    rw [← ends, whole, scan_behind_blanks broken ahead, ← whole,
      scan_before_blanks clean behind proper]

theorem layout_lines_nil {state : State} {number : Nat} {outs : List (List Char)}
    (done : layoutLines state number [] = .ok outs) : outs = [] := by
  rw [layoutLines] at done
  split at done
  · cases done
    rfl
  · cases done

theorem layout_lines_cons {state : State} {number : Nat} {raw : List Char}
    {rest outs : List (List Char)} (done : layoutLines state number (raw :: rest) = .ok outs) :
    ∃ out next more, layoutLine state (number + 1) raw = .ok (out, next) ∧
      layoutLines next (number + 1) rest = .ok more ∧ outs = out :: more := by
  rw [layoutLines] at done
  cases line : layoutLine state (number + 1) raw with
  | error fault => rw [line] at done; cases done
  | ok result =>
      obtain ⟨out, next⟩ := result
      cases later : layoutLines next (number + 1) rest with
      | error fault => simp [line, later, bind, Except.bind] at done
      | ok more =>
          simp only [line, later, bind, Except.bind, Except.ok.injEq] at done
          exact ⟨out, next, more, rfl, later, done.symm⟩

theorem intercalate_line (line second : List Char) (rest : List (List Char)) :
    ['\n'].intercalate (line :: second :: rest) =
      line ++ '\n' :: ['\n'].intercalate (second :: rest) := by
  rw [List.intercalate_cons_cons]
  simp

theorem layout_first_line {line second : List Char} {rest : List (List Char)} (clean : '\n' ∉ line)
    {state : State} {number : Nat} {outs : List (List Char)}
    (done : layoutLines state number
      (Text.lines (['\n'].intercalate (line :: second :: rest))) = .ok outs) :
    ∃ out next more, layoutLine state (number + 1) (Text.dropReturn line) = .ok (out, next) ∧
      layoutLines next (number + 1) (Text.lines (['\n'].intercalate (second :: rest))) = .ok more ∧
      outs = out :: more := by
  have split := Text.split_lines_append [] line (['\n'].intercalate (second :: rest)) clean
  rw [List.reverse_nil, List.nil_append] at split
  rw [intercalate_line, Text.lines, split] at done
  exact layout_lines_cons done

/-- At the last line nothing more is read, so it may lose its end. -/
theorem last_line_kept {line : List Char} (clean : '\n' ∉ line) {state : State} {number : Nat}
    {collecting : Collecting} {outs : List (List Char)}
    (settled : collecting.lexing.inLiteral = false → collecting.Settled)
    (inside : collecting.lexing.inLiteral = true → state.mode = .template)
    (done : layoutLines state number (Text.lines line) = .ok outs) :
    (collecting.run (Text.joinLines outs)).done = (collecting.run line).done := by
  by_cases empty : line = []
  · subst empty
    cases layout_lines_nil done
    rfl
  · rw [Text.lines_unbroken empty clean] at done
    obtain ⟨out, next, more, first, last, rfl⟩ := layout_lines_cons done
    obtain ⟨kept, blanks, split, blank, _, same⟩ := laid_out_line settled inside first
    have feed : ∀ char ∈ ['\n'], Text.isBlank char = true :=
      List.forall_mem_singleton.2 (by decide)
    calc (collecting.run (Text.joinLines (out :: more))).done
        = ((collecting.run out).run ['\n']).done := by
          rw [layout_lines_nil last, ← Collecting.run_append, Text.joinLines,
            List.flatMap_singleton]
      _ = (collecting.run kept).done := by rw [Collecting.done_blanks feed, same]
      _ = (collecting.run line).done := by
          rw [split, Collecting.run_append, Collecting.done_blanks blank]

theorem settled_behind (collecting : Collecting) (line : List Char)
    (outside : (collecting.run (line ++ ['\n'])).lexing.inLiteral = false) :
    (collecting.run (line ++ ['\n'])).Settled := by
  have step : collecting.run (line ++ ['\n']) = (collecting.run line).step '\n' :=
    Collecting.run_append collecting line ['\n']
  rw [step, Collecting.step_lexing, Lexing.in_literal_blank (by decide)] at outside
  rw [step]
  exact Collecting.settled_feed _ outside

/-- The invariant of the walk over the lines: both texts hold the same up to each line feed. -/
theorem lines_kept {lines : List (List Char)} (nonempty : lines ≠ [])
    (unbroken : ∀ line ∈ lines, '\n' ∉ line) {state : State} {number : Nat}
    {collecting : Collecting} {outs : List (List Char)}
    (settled : collecting.lexing.inLiteral = false → collecting.Settled)
    (tracked : TracksLines collecting.lexing state.mode lines)
    (done : layoutLines state number (Text.lines (['\n'].intercalate lines)) = .ok outs) :
    (collecting.run (Text.joinLines outs)).done =
      (collecting.run (['\n'].intercalate lines)).done := by
  induction lines generalizing state number collecting outs with
  | nil => exact absurd rfl nonempty
  | cons line rest ih =>
      obtain ⟨inside, ends, further⟩ := tracked
      have clean := unbroken line List.mem_cons_self
      cases rest with
      | nil =>
          rw [List.intercalate_singleton] at done ⊢
          exact last_line_kept clean settled inside done
      | cons second rest =>
          have whole := intercalate_line line second rest
          obtain ⟨out, next, more, first, last, rfl⟩ := layout_first_line clean done
          have same := fed_line settled inside first (ends (List.cons_ne_nil second rest))
          -- The scan of the line as it is written and that of the line as it was end alike.
          have later := ih (List.cons_ne_nil second rest)
            (fun other member => unbroken other (List.mem_cons_of_mem _ member))
            (settled_behind collecting line)
            (by rwa [Collecting.run_lexing, ← next_mode clean first]) last
          calc (collecting.run (Text.joinLines (out :: more))).done
              = ((collecting.run (out ++ ['\n'])).run (Text.joinLines more)).done := by
                rw [← Collecting.run_append, Text.joinLines, List.flatMap_cons, Text.joinLines]
            _ = ((collecting.run (line ++ ['\n'])).run
                  (['\n'].intercalate (second :: rest))).done := by rw [same, later]
            _ = (collecting.run (['\n'].intercalate (line :: second :: rest))).done := by
                rw [← Collecting.run_append, whole, List.append_assoc, List.singleton_append]

end Layout

end PageBuilder.Code
