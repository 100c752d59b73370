import PageBuilder.Json.Printer
import PageBuilder.Proofs.Code.Swapped

/-!
The layout of texts that differ between quotes. It counts nothing there, but a quote can also end a
text that given code left open: so what it holds has to be plain.
-/

namespace PageBuilder.Code
namespace Layout

/-- Modes that a scan gets to. -/
def Mode.Proper : Mode → Prop
  | .quoted quote => isQuote quote = true
  | _ => True

section Scan

variable {char : Char} {rest : List Char} (movement : Movement)

theorem scan_comment (comment : char = '/' ∧ rest.head? = some '/') :
    scan .code movement (char :: rest) = (.code, movement) := by
  obtain ⟨rfl, slash⟩ := comment
  obtain ⟨more, rfl⟩ := List.head?_eq_some_iff.1 slash
  rw [scan]

theorem scan_code (code : ¬(char = '/' ∧ rest.head? = some '/')) :
    scan .code movement (char :: rest) =
      if isQuote char then scan (.quoted char) movement rest
      else if char = '`' then scan .template movement rest
      else if isOpening char then scan .code movement.open rest
      else if isClosing char then scan .code movement.close rest
      else scan .code movement rest :=
  scan.eq_3 _ _ _ fun _ slash same => code ⟨slash, by rw [same, List.head?_cons]⟩

theorem scan_escaped {mode : Mode} (text : mode ≠ .code) (escaped : char = '\\' ∧ rest ≠ []) :
    scan mode movement (char :: rest) = scan mode movement rest.tail := by
  obtain ⟨rfl, more⟩ := escaped
  obtain ⟨next, rest, rfl⟩ := List.exists_cons_of_ne_nil more
  exact scan.eq_4 _ _ _ _ text

theorem scan_quoted (quote : Char) (literal : ¬(char = '\\' ∧ rest ≠ [])) :
    scan (.quoted quote) movement (char :: rest) =
      if char = quote then scan .code movement rest else scan (.quoted quote) movement rest :=
  scan.eq_5 _ _ _ _ fun _ _ escape same => literal ⟨escape, by simp [same]⟩

theorem scan_template (literal : ¬(char = '\\' ∧ rest ≠ [])) :
    scan .template movement (char :: rest) =
      if char = '`' then scan .code movement rest else scan .template movement rest :=
  scan.eq_6 _ _ _ fun _ _ escape same => literal ⟨escape, by simp [same]⟩

end Scan

def ScansAlike (left right : List Char) : Prop :=
  ∀ mode movement, mode.Proper → scan mode movement left = scan mode movement right

/-- What follows a character is scanned after it, and of one that is escaped only the rest. -/
theorem ScansAlike.cons {left right : List Char} (head : left.head? = right.head?)
    (whole : ScansAlike left right) (behind : ScansAlike left.tail right.tail) (char : Char) :
    ScansAlike (char :: left) (char :: right) := by
  intro mode movement proper
  have escapes : (char = '\\' ∧ left ≠ []) ↔ char = '\\' ∧ right ≠ [] := by
    rw [ne_eq, ne_eq, ← List.head?_eq_none_iff, ← List.head?_eq_none_iff, head]
  cases mode with
  | code =>
      by_cases comment : char = '/' ∧ left.head? = some '/'
      · rw [scan_comment movement comment, scan_comment movement (head ▸ comment)]
      · rw [scan_code movement comment, scan_code movement (head ▸ comment)]
        by_cases quote : isQuote char = true
        · rw [if_pos quote, if_pos quote]
          exact whole _ _ quote
        · rw [if_neg quote, if_neg quote]
          simp only [whole .template _ trivial, whole .code _ trivial]
  | quoted quote =>
      by_cases escaped : char = '\\' ∧ left ≠ []
      · have text : Mode.quoted quote ≠ .code := by simp
        rw [scan_escaped movement text escaped, scan_escaped movement text (escapes.1 escaped)]
        exact behind _ _ proper
      · rw [scan_quoted movement quote escaped, scan_quoted movement quote (escapes.not.1 escaped)]
        simp only [whole .code _ trivial, whole (.quoted quote) _ proper]
  | template =>
      by_cases escaped : char = '\\' ∧ left ≠ []
      · have text : Mode.template ≠ .code := by simp
        rw [scan_escaped movement text escaped, scan_escaped movement text (escapes.1 escaped)]
        exact behind _ _ proper
      · rw [scan_template movement escaped, scan_template movement (escapes.not.1 escaped)]
        simp only [whole .template _ trivial, whole .code _ trivial]

/-- Neither written in another way between quotes nor counted by the layout. -/
def isPlain (char : Char) : Bool :=
  JsonTree.escapedChar char = [char] && !isQuote char && !isOpening char && !isClosing char
    && char ≠ '`' && char ≠ '/' && char ≠ '>'

theorem plain_iff {char : Char} : isPlain char = true ↔
    JsonTree.escapedChar char = [char] ∧ isQuote char = false ∧ isOpening char = false ∧
      isClosing char = false ∧ char ≠ '`' ∧ char ≠ '/' ∧ char ≠ '>' := by
  simp [isPlain, and_assoc]

theorem scan_plain {chars : List Char} (plain : ∀ char ∈ chars, isPlain char = true)
    {mode : Mode} (proper : mode.Proper) (movement : Movement) (rest : List Char) :
    scan mode movement (chars ++ rest) = scan mode movement rest := by
  induction chars with
  | nil => rfl
  | cons char chars ih =>
      have later := ih fun other member => plain other (List.mem_cons_of_mem _ member)
      obtain ⟨unescaped, quote, opening, closing, tick, slash, _⟩ :=
        plain_iff.1 (plain char List.mem_cons_self)
      have literal (more : List Char) : ¬(char = '\\' ∧ more ≠ []) := by
        rintro ⟨rfl, _⟩
        exact absurd unescaped (by decide)
      rw [List.cons_append]
      cases mode with
      | code =>
          rw [scan_code movement fun comment => slash comment.1, if_neg (by simp [quote]),
            if_neg tick, if_neg (by simp [opening]), if_neg (by simp [closing]), later]
      | quoted held =>
          have other : char ≠ held := by
            rintro rfl
            rw [Mode.Proper, quote] at proper
            cases proper
          rw [scan_quoted movement held (literal _), if_neg other, later]
      | template => rw [scan_template movement (literal _), if_neg tick, later]

theorem ScansAlike.quote {left right : List Char} (alike : ScansAlike left right) :
    ScansAlike ('"' :: left) ('"' :: right) := by
  intro mode movement proper
  have literal (more : List Char) : ¬('"' = '\\' ∧ more ≠ []) := fun escaped =>
    absurd escaped.1 (by decide)
  cases mode with
  | code =>
      have code (more : List Char) : ¬('"' = '/' ∧ more.head? = some '/') := fun comment =>
        absurd comment.1 (by decide)
      rw [scan_code movement (code _), scan_code movement (code _), if_pos (by decide),
        if_pos (by decide)]
      exact alike _ _ (show isQuote '"' = true by decide)
  | quoted held =>
      rw [scan_quoted movement held (literal _), scan_quoted movement held (literal _)]
      simp only [alike .code _ trivial, alike (.quoted held) _ proper]
  | template =>
      rw [scan_template movement (literal _), scan_template movement (literal _),
        if_neg (by decide), if_neg (by decide)]
      exact alike _ _ trivial

/-- A text between quotes that holds plain characters only. -/
def PlainQuoted (piece : List Char) : Prop :=
  ∃ chars, (∀ char ∈ chars, isPlain char = true) ∧ piece = '"' :: (chars ++ ['"'])

def Requoted (before after : List Char) : Prop := PlainQuoted before ∧ PlainQuoted after

theorem PlainQuoted.reverse {piece : List Char} (quoted : PlainQuoted piece) :
    PlainQuoted piece.reverse := by
  obtain ⟨chars, plain, rfl⟩ := quoted
  refine ⟨chars.reverse, fun char member => plain char (List.mem_reverse.1 member), ?_⟩
  simp

variable {left right : List Char}

theorem requoted_reverse (swapped : Swapped Requoted left right) :
    Swapped Requoted left.reverse right.reverse :=
  swapped.reverse.within fun {before after} pieces => by
    have first := pieces.1.reverse
    have second := pieces.2.reverse
    rw [List.reverse_reverse] at first second
    exact .of_piece ⟨first, second⟩

theorem requoted_head (swapped : Swapped Requoted left right) : left.head? = right.head? := by
  cases swapped with
  | nil => rfl
  | char char rest => rfl
  | piece pieces rest =>
      obtain ⟨⟨_, _, rfl⟩, _, _, rfl⟩ := pieces
      rfl

theorem requoted_scans (swapped : Swapped Requoted left right) :
    ScansAlike left right ∧ ScansAlike left.tail right.tail := by
  induction swapped with
  | nil => exact ⟨fun _ _ _ => rfl, fun _ _ _ => rfl⟩
  | char char rest ih => exact ⟨ih.1.cons (requoted_head rest) ih.2 char, ih.1⟩
  | @piece before after left right pieces rest ih =>
      obtain ⟨⟨chars, plain, rfl⟩, others, further, rfl⟩ := pieces
      have inside : ScansAlike (chars ++ '"' :: left) (others ++ '"' :: right) := by
        intro mode movement proper
        rw [scan_plain plain proper, scan_plain further proper]
        exact ih.1.quote mode movement proper
      rw [List.cons_append, List.cons_append, List.append_assoc, List.append_assoc]
      exact ⟨inside.quote, inside⟩

theorem requoted_prefix {start : List Char} (clean : '"' ∉ start)
    (swapped : Swapped Requoted left right) : start <+: left ↔ start <+: right := by
  induction swapped generalizing start with
  | nil => rfl
  | char char rest ih =>
      cases start with
      | nil => simp
      | cons first start =>
          rw [List.cons_prefix_cons, List.cons_prefix_cons,
            ih fun member => clean (List.mem_cons_of_mem _ member)]
  | piece pieces rest =>
      obtain ⟨⟨_, _, rfl⟩, _, _, rfl⟩ := pieces
      cases start with
      | nil => simp
      | cons first start =>
          have other : first ≠ '"' := fun same => clean (same ▸ List.mem_cons_self)
          simp [List.cons_prefix_cons, other]

theorem requoted_eq {text : List Char} (clean : '"' ∉ text)
    (swapped : Swapped Requoted left right) : left = text ↔ right = text := by
  induction swapped generalizing text with
  | nil => rfl
  | char char rest ih =>
      cases text with
      | nil => simp
      | cons first text =>
          rw [List.cons.injEq, List.cons.injEq,
            ih fun member => clean (List.mem_cons_of_mem _ member)]
  | piece pieces rest =>
      obtain ⟨⟨_, _, rfl⟩, _, _, rfl⟩ := pieces
      cases text with
      | nil => simp
      | cons first text =>
          have other : '"' ≠ first := fun same => clean (same ▸ List.mem_cons_self)
          simp [other]

theorem requoted_contains (swapped : Swapped Requoted left right) :
    left.contains '>' = right.contains '>' := by
  induction swapped with
  | nil => rfl
  | char char rest ih => rw [List.contains_cons, List.contains_cons, ih]
  | piece pieces rest ih =>
      have outside {piece : List Char} (quoted : PlainQuoted piece) (more : List Char) :
          (piece ++ more).contains '>' = more.contains '>' := by
        obtain ⟨chars, plain, rfl⟩ := quoted
        have absent : '>' ∉ chars := fun member =>
          (plain_iff.1 (plain _ member)).2.2.2.2.2.2 rfl
        simp [absent]
      rw [outside pieces.1, outside pieces.2, ih]

theorem requoted_last (swapped : Swapped Requoted left right) :
    left.getLast? = right.getLast? := by
  rw [List.getLast?_eq_head?_reverse, List.getLast?_eq_head?_reverse]
  exact requoted_head (requoted_reverse swapped)

theorem requoted_ends (swapped : Swapped Requoted left right) :
    (left.getLast? = some '>' ∧ left.dropLast.getLast? = some '/') ↔
      right.getLast? = some '>' ∧ right.dropLast.getLast? = some '/' := by
  have backwards (line : List Char) :
      (line.getLast? = some '>' ∧ line.dropLast.getLast? = some '/') ↔
        ['>', '/'] <+: line.reverse := by
    rw [List.getLast?_eq_head?_reverse, List.getLast?_eq_head?_reverse, ← List.tail_reverse]
    rcases line.reverse with _ | ⟨one, _ | ⟨two, rest⟩⟩
    · simp
    · simp [List.cons_prefix_cons]
    · simp [List.cons_prefix_cons, eq_comm]
  rw [backwards, backwards, requoted_prefix (by decide) (requoted_reverse swapped)]

theorem requoted_tags (swapped : Swapped Requoted left right) (movement : Movement) :
    withTags left movement = withTags right movement := by
  have ends := requoted_ends swapped
  have closes : closesTag left = closesTag right := by
    have starts (line : List Char) : line.take 2 = ['<', '/'] ↔ ['<', '/'] <+: line := by
      rw [List.prefix_iff_eq_take, eq_comm]
      rfl
    rw [closesTag, closesTag, Bool.eq_iff_iff, decide_eq_true_iff, decide_eq_true_iff, starts,
      starts, requoted_prefix (by decide) swapped]
  have opens : opensTag left = opensTag right := by
    unfold opensTag
    simp only [← Bool.decide_and, ends]
    rw [requoted_head swapped, requoted_last swapped, requoted_contains swapped]
  have bare : left = ['>'] ↔ right = ['>'] := requoted_eq (by decide) swapped
  have empty : left = ['/', '>'] ↔ right = ['/', '>'] := requoted_eq (by decide) swapped
  unfold withTags
  simp only [bare, empty, closes, opens]

/-- Pieces of one line that hold plain texts between quotes, and differ in nothing else. -/
structure SwapsPlain (swap : List Char → List Char → Prop) : Prop where
  inline : ∀ {before after}, swap before after → Inline before ∧ Inline after
  quoted : ∀ {before after}, swap before after → Swapped Requoted before after

variable {swap : List Char → List Char → Prop} (plain : SwapsPlain swap)

include plain

theorem layout_line_swapped (swapped : Swapped swap left right) (state : State) (number : Nat) :
    (∃ fault, layoutLine state number left = .error fault ∧
        layoutLine state number right = .error fault) ∨
      ∃ line other next, layoutLine state number left = .ok (line, next) ∧
        layoutLine state number right = .ok (other, next) ∧ Swapped swap line other := by
  have alike {left right : List Char} (swapped : Swapped swap left right) :
      ScansAlike left right := (requoted_scans (swapped.within plain.quoted)).1
  unfold layoutLine
  by_cases inside : state.inTemplate = true
  · have same : scanLine true number left = scanLine true number right := by
      rw [scanLine, scanLine, if_pos rfl, alike swapped .template .still trivial]
    rw [if_pos inside, if_pos inside, same]
    cases scanLine true number right with
    | error fault => exact .inl ⟨fault, rfl, rfl⟩
    | ok scanned =>
        cases closed : close number scanned.movement.closed state.groups with
        | error fault =>
            simp only [bind, Except.bind, closed]
            exact .inl ⟨fault, rfl, rfl⟩
        | ok groups =>
            simp only [bind, Except.bind, closed]
            exact .inr ⟨left, right, _, rfl, rfl, swapped⟩
  · rw [if_neg inside, if_neg inside]
    have trimmed := swapped.trim plain.inline
    have alsoBlank : (Text.trim left).isEmpty = (Text.trim right).isEmpty := by
      rw [Bool.eq_iff_iff, List.isEmpty_iff, List.isEmpty_iff, trimmed.nil_iff plain.inline]
    have same : scanLine false number (Text.trim left) =
        scanLine false number (Text.trim right) := by
      rw [scanLine, scanLine, if_neg Bool.false_ne_true, alike trimmed .code .still trivial]
    dsimp only
    rw [alsoBlank, same]
    split
    · exact .inr ⟨[], [], _, rfl, rfl, .nil⟩
    · cases scanLine false number (Text.trim right) with
      | error fault => exact .inl ⟨fault, rfl, rfl⟩
      | ok scanned =>
          simp only [bind, Except.bind, requoted_tags (trimmed.within plain.quoted)]
          cases close number _ state.groups with
          | error fault => exact .inl ⟨fault, rfl, rfl⟩
          | ok groups =>
              exact .inr ⟨_, _, _, rfl, rfl, (Swapped.refl _).append trimmed⟩

theorem layout_lines_swapped {texts others : List (List Char)}
    (swapped : List.Forall₂ (Swapped swap) texts others) (state : State) (number : Nat) :
    (∃ fault, layoutLines state number texts = .error fault ∧
        layoutLines state number others = .error fault) ∨
      ∃ lines further, layoutLines state number texts = .ok lines ∧
        layoutLines state number others = .ok further ∧
        List.Forall₂ (Swapped swap) lines further := by
  induction swapped generalizing state number with
  | nil =>
      rw [layoutLines]
      split
      · exact .inr ⟨[], [], rfl, rfl, .nil⟩
      · exact .inl ⟨_, rfl, rfl⟩
  | cons line _ ih =>
      rw [layoutLines, layoutLines]
      rcases layout_line_swapped plain line state (number + 1) with failed | done
      · obtain ⟨fault, one, two⟩ := failed
        rw [one, two]
        exact .inl ⟨fault, rfl, rfl⟩
      · obtain ⟨first, second, next, one, two, same⟩ := done
        rw [one, two]
        rcases ih next (number + 1) with failed | rest
        · obtain ⟨fault, three, four⟩ := failed
          simp only [bind, Except.bind, three, four]
          exact .inl ⟨fault, rfl, rfl⟩
        · obtain ⟨lines, further, three, four, more⟩ := rest
          simp only [bind, Except.bind, three, four]
          exact .inr ⟨_, _, rfl, rfl, .cons same more⟩

end Layout

/-- Texts that differ in such pieces are laid out alike, or cannot be for the same reason. -/
theorem layout_swapped {swap : List Char → List Char → Prop} (plain : Layout.SwapsPlain swap)
    {text other : String} (swapped : Swapped swap text.toList other.toList) :
    (∃ fault, layout text = .error fault ∧ layout other = .error fault) ∨
      ∃ result further, layout text = .ok result ∧ layout other = .ok further ∧
        Swapped swap result.toList further.toList := by
  rw [layout, layout]
  rcases Layout.layout_lines_swapped plain (swapped.lines plain.inline) .start 0 with failed | done
  · obtain ⟨fault, one, two⟩ := failed
    rw [one, two]
    exact .inl ⟨fault, rfl, rfl⟩
  · obtain ⟨lines, further, one, two, same⟩ := done
    rw [one, two]
    refine .inr ⟨_, _, rfl, rfl, ?_⟩
    rw [String.toList_ofList, String.toList_ofList]
    exact Swapped.join_lines same

end PageBuilder.Code
