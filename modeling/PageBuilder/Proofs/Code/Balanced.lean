import PageBuilder.Proofs.Code.Layout

/-!
Balanced code. The layout scans a text line by line; here it is read one character after the other,
and a place says what the characters before leave behind. Main statements: both ways end alike, and
what a text opens and closes adds up with what stands before it.
-/

namespace PageBuilder.Code
namespace Layout

/-- Where the last of some lines ends and what they open and close together, unless one of them ends
between quotes. -/
def scanLines : Mode → Movement → List (List Char) → Option (Mode × Movement)
  | mode, movement, [] => some (mode, movement)
  | mode, movement, line :: rest =>
      match scan mode movement line with
      | (.quoted _, _) => none
      | (mode, movement) => scanLines mode movement rest

/-- No line ends between quotes and the text not between backticks, no level is closed that was not
opened before, and none stays open. -/
def Balanced (text : String) : Prop :=
  scanLines .code .still (Text.lines text.toList) = some (.code, .still)

instance (text : String) : Decidable (Balanced text) := inferInstanceAs (Decidable (_ = _))

/-- What the characters before say about the next one. -/
inductive Place where
  | code
  /-- Behind a slash in code. -/
  | slash
  | comment
  | quoted (quote : Char) (escaped : Bool)
  | template (escaped : Bool)
  deriving DecidableEq

def Place.mode : Place → Mode
  | .code => .code
  | .slash => .code
  | .comment => .code
  | .quoted quote _ => .quoted quote
  | .template _ => .template

/-- The place at the start of a line. -/
def Mode.place : Mode → Place
  | .code => .code
  | .quoted quote => .quoted quote false
  | .template => .template false

structure Reading where
  place : Place
  movement : Movement
  deriving DecidableEq

namespace Reading

def ofCode (movement : Movement) (char : Char) : Reading :=
  if isQuote char then ⟨.quoted char false, movement⟩
  else if char = '`' then ⟨.template false, movement⟩
  else if isOpening char then ⟨.code, movement.open⟩
  else if isClosing char then ⟨.code, movement.close⟩
  else if char = '/' then ⟨.slash, movement⟩
  else ⟨.code, movement⟩

/-- None where a line ends between quotes. -/
def step (reading : Reading) (char : Char) : Option Reading :=
  match reading.place with
  | .code => some (ofCode reading.movement char)
  | .slash =>
      some (if char = '/' then ⟨.comment, reading.movement⟩ else ofCode reading.movement char)
  | .comment => some (if char = '\n' then ⟨.code, reading.movement⟩ else reading)
  | .quoted quote escaped =>
      if char = '\n' then none
      else if escaped then some ⟨.quoted quote false, reading.movement⟩
      else if char = '\\' then some ⟨.quoted quote true, reading.movement⟩
      else some (if char = quote then ⟨.code, reading.movement⟩ else reading)
  | .template escaped =>
      if char = '\n' || escaped then some ⟨.template false, reading.movement⟩
      else if char = '\\' then some ⟨.template true, reading.movement⟩
      else some (if char = '`' then ⟨.code, reading.movement⟩ else reading)

theorem step_template_escaped (movement : Movement) (char : Char) :
    step ⟨.template true, movement⟩ char = some ⟨.template false, movement⟩ := by
  simp [step]

section Step

variable {char : Char} (notFeed : char ≠ '\n') (movement : Movement)

include notFeed

theorem step_quoted_escaped (quote : Char) :
    step ⟨.quoted quote true, movement⟩ char = some ⟨.quoted quote false, movement⟩ := by
  simp [step, notFeed]

theorem step_quoted (literal : char ≠ '\\') (quote : Char) :
    step ⟨.quoted quote false, movement⟩ char =
      some ⟨if char = quote then .code else .quoted quote false, movement⟩ := by
  simp only [step, if_neg notFeed, if_neg literal, Bool.false_eq_true, if_false]
  split <;> rfl

theorem step_template (literal : char ≠ '\\') :
    step ⟨.template false, movement⟩ char =
      some ⟨if char = '`' then .code else .template false, movement⟩ := by
  simp only [step, notFeed, decide_false, Bool.or_self, Bool.false_eq_true, if_neg literal,
    if_false]
  split <;> rfl

end Step

def run : Reading → List Char → Option Reading
  | reading, [] => some reading
  | reading, char :: rest => (reading.step char).bind fun next => next.run rest

@[simp]
theorem run_nil (reading : Reading) : reading.run [] = some reading := rfl

theorem run_cons (reading : Reading) (char : Char) (rest : List Char) :
    reading.run (char :: rest) = (reading.step char).bind fun next => next.run rest := rfl

theorem run_append (reading : Reading) (front back : List Char) :
    reading.run (front ++ back) = (reading.run front).bind fun next => next.run back := by
  induction front generalizing reading with
  | nil => rfl
  | cons char front ih =>
      rw [List.cons_append, run_cons, run_cons, Option.bind_assoc]
      simp only [ih]

end Reading

/-- The text ends in a comment, which what follows it on the line would belong to. -/
def EndsInComment (text : String) : Prop :=
  ∃ movement, Reading.run ⟨.code, .still⟩ text.toList = some ⟨.comment, movement⟩

instance (text : String) : Decidable (EndsInComment text) :=
  decidable_of_iff
    (((Reading.run ⟨.code, .still⟩ text.toList).map Reading.place) = some .comment) <| by
      rw [Option.map_eq_some_iff]
      constructor
      · rintro ⟨⟨place, movement⟩, read, rfl⟩
        exact ⟨movement, read⟩
      · rintro ⟨movement, read⟩
        exact ⟨_, read, rfl⟩

/-- The characters of the line before a place that the scan has yet to look at. -/
def Place.pending : Place → List Char
  | .slash => ['/']
  | .comment => ['/', '/']
  | .quoted _ true => ['\\']
  | .template true => ['\\']
  | .code => []
  | .quoted _ false => []
  | .template false => []

def Place.Proper (place : Place) : Prop := place.mode.Proper

theorem quote_facts {quote : Char} (proper : isQuote quote = true) :
    quote ≠ '\\' ∧ quote ≠ '\r' ∧ quote ≠ '\n' := by
  refine ⟨?_, ?_, ?_⟩
  all_goals
    rintro rfl
    exact absurd proper (by decide)

theorem proper_of_code (movement : Movement) (char : Char) :
    (Reading.ofCode movement char).place.Proper := by
  rw [Reading.ofCode]
  split
  · assumption
  · repeat' split
    all_goals trivial

theorem proper_step {reading next : Reading} {char : Char}
    (stepped : reading.step char = some next) (proper : reading.place.Proper) :
    next.place.Proper := by
  obtain ⟨place, movement⟩ := reading
  cases place with
  | code =>
      cases stepped
      exact proper_of_code movement char
  | slash =>
      cases stepped
      split
      · trivial
      · exact proper_of_code movement char
  | comment =>
      cases stepped
      split
      · trivial
      · trivial
  | quoted quote escaped =>
      simp only [Reading.step] at stepped
      repeat' split at stepped
      all_goals cases stepped
      · exact proper
      · exact proper
      · trivial
      · exact proper
  | template escaped =>
      simp only [Reading.step] at stepped
      repeat' split at stepped
      all_goals
        cases stepped
        trivial

theorem scan_of_code {char : Char} (other : char ≠ '/') (movement : Movement) (rest : List Char) :
    scan .code movement (char :: rest) =
      scan (Reading.ofCode movement char).place.mode (Reading.ofCode movement char).movement
        ((Reading.ofCode movement char).place.pending ++ rest) := by
  rw [scan_code movement fun comment => other comment.1, Reading.ofCode]
  repeat' split
  all_goals rfl

theorem scan_pending {place : Place} (proper : place.Proper) (movement : Movement) :
    scan place.mode movement place.pending = (place.mode, movement) := by
  have alone : ¬('\\' = '\\' ∧ ([] : List Char) ≠ []) := by simp
  cases place with
  | code => rfl
  | slash => rw [Place.pending, Place.mode, scan_code movement (by simp)]; rfl
  | comment => exact scan_comment movement ⟨rfl, rfl⟩
  | quoted quote escaped =>
      cases escaped with
      | false => rfl
      | true =>
          rw [Place.pending, Place.mode, scan_quoted movement quote alone,
            if_neg (quote_facts proper).1.symm]
          rfl
  | template escaped =>
      cases escaped with
      | false => rfl
      | true =>
          rw [Place.pending, Place.mode, scan_template movement alone, if_neg (by decide)]
          rfl

/-- The scan goes on behind a character where the reading does, with what it has yet to look at. -/
theorem scan_step {char : Char} (notFeed : char ≠ '\n') (place : Place) (movement : Movement)
    (rest : List Char) :
    ∃ next, Reading.step ⟨place, movement⟩ char = some next ∧
      scan place.mode movement (place.pending ++ char :: rest) =
        scan next.place.mode next.movement (next.place.pending ++ rest) := by
  cases place with
  | code =>
      by_cases slash : char = '/'
      · subst slash
        exact ⟨_, rfl, rfl⟩
      · exact ⟨_, rfl, scan_of_code slash movement rest⟩
  | slash =>
      by_cases slash : char = '/'
      · subst slash
        exact ⟨_, rfl, rfl⟩
      · -- The slash stands alone, so the character is one of code as if it were not there.
        refine ⟨_, by rw [Reading.step, if_neg slash], ?_⟩
        rw [Place.pending, Place.mode, List.singleton_append,
          scan_code movement (by simp [slash])]
        exact scan_of_code slash movement rest
  | comment =>
      refine ⟨_, by rw [Reading.step, if_neg notFeed], ?_⟩
      exact (scan_comment movement ⟨rfl, rfl⟩).trans (scan_comment movement ⟨rfl, rfl⟩).symm
  | quoted quote escaped =>
      cases escaped with
      | true =>
          refine ⟨_, Reading.step_quoted_escaped notFeed movement quote, ?_⟩
          exact scan_escaped movement (by simp [Place.mode]) ⟨rfl, by simp⟩
      | false =>
          by_cases escape : char = '\\'
          · subst escape
            exact ⟨_, rfl, rfl⟩
          · refine ⟨_, Reading.step_quoted notFeed movement escape quote, ?_⟩
            refine (scan_quoted movement quote fun held => escape held.1).trans ?_
            by_cases closes : char = quote
            · rw [if_pos closes, if_pos closes]
              rfl
            · rw [if_neg closes, if_neg closes]
              rfl
  | template escaped =>
      cases escaped with
      | true =>
          refine ⟨_, Reading.step_template_escaped movement char, ?_⟩
          exact scan_escaped movement (by simp [Place.mode]) ⟨rfl, by simp⟩
      | false =>
          by_cases escape : char = '\\'
          · subst escape
            exact ⟨_, rfl, rfl⟩
          · refine ⟨_, Reading.step_template notFeed movement escape, ?_⟩
            refine (scan_template movement fun held => escape held.1).trans ?_
            by_cases closes : char = '`'
            · rw [if_pos closes, if_pos closes]
              rfl
            · rw [if_neg closes, if_neg closes]
              rfl

theorem read_line {line : List Char} (unbroken : '\n' ∉ line) {place : Place}
    (proper : place.Proper) (movement : Movement) :
    ∃ last, Reading.run ⟨place, movement⟩ line = some last ∧ last.place.Proper ∧
      scan place.mode movement (place.pending ++ line) = (last.place.mode, last.movement) := by
  induction line generalizing place movement with
  | nil =>
      rw [List.append_nil, scan_pending proper]
      exact ⟨_, rfl, proper, rfl⟩
  | cons char rest ih =>
      have notFeed : char ≠ '\n' := fun same => unbroken (same ▸ List.mem_cons_self)
      obtain ⟨next, stepped, scans⟩ := scan_step notFeed place movement rest
      have later := @ih fun member => unbroken (List.mem_cons_of_mem _ member)
      obtain ⟨last, read, kept, ends⟩ := later (proper_step stepped proper) next.movement
      refine ⟨last, ?_, kept, scans.trans ends⟩
      rw [Reading.run_cons, stepped]
      exact read

/-- What a text leaves to the line after it. -/
def Reading.ended? (reading : Reading) : Option (Mode × Movement) :=
  match reading.place.mode with
  | .quoted _ => none
  | mode => some (mode, reading.movement)

theorem step_feed (reading : Reading) : reading.step '\n' =
    reading.ended?.map fun ended => ⟨ended.1.place, ended.2⟩ := by
  obtain ⟨place, movement⟩ := reading
  cases place with
  | code | slash | comment | quoted | template => rfl

theorem ended_return {reading next : Reading} (proper : reading.place.Proper)
    (stepped : reading.step '\r' = some next) : next.ended? = reading.ended? := by
  obtain ⟨place, movement⟩ := reading
  cases place with
  | code | slash | comment =>
      cases stepped
      rfl
  | quoted quote escaped =>
      have other : '\r' ≠ quote := (quote_facts proper).2.1.symm
      cases escaped with
      | true =>
          cases stepped
          rfl
      | false =>
          rw [Reading.step_quoted (by decide) movement (by decide), if_neg other] at stepped
          cases stepped
          rfl
  | template escaped =>
      cases escaped with
      | true =>
          cases stepped
          rfl
      | false =>
          cases stepped
          rfl

theorem proper_place (mode : Mode) (proper : mode.Proper) : mode.place.Proper := by
  cases mode with
  | code | template => trivial
  | quoted quote => exact proper

theorem scan_place (mode : Mode) (movement : Movement) (line : List Char) :
    scan mode.place.mode movement (mode.place.pending ++ line) = scan mode movement line := by
  cases mode with
  | code | quoted | template => rfl

section Lines

variable {mode : Mode} (proper : mode.Proper) (movement : Movement)

include proper

theorem scan_lines_line {line : List Char} (unbroken : '\n' ∉ line) (rest : List (List Char)) :
    scanLines mode movement (line :: rest) =
      ((Reading.run ⟨mode.place, movement⟩ line).bind Reading.ended?).bind
        fun ended => scanLines ended.1 ended.2 rest := by
  obtain ⟨last, read, _, ends⟩ := read_line unbroken (proper_place mode proper) movement
  rw [scan_place] at ends
  rw [scanLines, ends, read, Option.bind_some, Reading.ended?]
  cases last.place.mode with
  | code | quoted | template => rfl

theorem scan_lines_return {line : List Char} (unbroken : '\n' ∉ line) (rest : List (List Char)) :
    scanLines mode movement (Text.dropReturn line :: rest) =
      ((Reading.run ⟨mode.place, movement⟩ line).bind Reading.ended?).bind
        fun ended => scanLines ended.1 ended.2 rest := by
  unfold Text.dropReturn
  split
  · rename_i ends
    obtain ⟨front, rfl⟩ := List.getLast?_eq_some_iff.1 ends
    have clean : '\n' ∉ front := fun member => unbroken (List.mem_append_left _ member)
    obtain ⟨last, read, kept, _⟩ := read_line clean (proper_place mode proper) movement
    obtain ⟨next, stepped⟩ : ∃ next, last.step '\r' = some next := by
      obtain ⟨place, reached⟩ := last
      cases place with
      | code | slash | comment => exact ⟨_, rfl⟩
      | quoted quote escaped | template escaped => cases escaped <;> exact ⟨_, rfl⟩
    rw [List.dropLast_concat, scan_lines_line proper movement clean, Reading.run_append, read,
      Option.bind_some, Option.bind_some, Reading.run_cons, stepped, Option.bind_some,
      Reading.run_nil, Option.bind_some, ended_return kept stepped]
  · exact scan_lines_line proper movement unbroken rest

end Lines

theorem not_quoted_of_ended {reading : Reading} {ended : Mode × Movement}
    (ends : reading.ended? = some ended) (quote : Char) : ended.1 ≠ .quoted quote := by
  rw [Reading.ended?] at ends
  split at ends
  · cases ends
  · rename_i other
    cases ends
    exact other quote

theorem scan_lines_split {mode : Mode} (line : ∀ quote, mode ≠ .quoted quote) (movement : Movement)
    {pending : List Char} (unbroken : '\n' ∉ pending) (chars : List Char) :
    scanLines mode movement (Text.splitLines pending chars) =
      (Reading.run ⟨mode.place, movement⟩ (pending.reverse ++ chars)).bind Reading.ended? := by
  have proper {mode : Mode} (line : ∀ quote, mode ≠ .quoted quote) : mode.Proper := by
    cases mode with
    | code | template => trivial
    | quoted quote => exact absurd rfl (line quote)
  have reversed {pending : List Char} (unbroken : '\n' ∉ pending) : '\n' ∉ pending.reverse :=
    fun member => unbroken (List.mem_reverse.1 member)
  induction chars generalizing mode movement pending with
  | nil =>
      rw [Text.splitLines, List.append_nil]
      split
      · rename_i empty
        rw [List.isEmpty_iff.1 empty]
        cases mode with
        | code | template => rfl
        | quoted quote => exact absurd rfl (line quote)
      · rw [scan_lines_line (proper line) movement (reversed unbroken)]
        exact Option.bind_fun_some _
  | cons char rest ih =>
      rw [Text.splitLines]
      split
      · rename_i feed
        subst feed
        rw [scan_lines_return (proper line) movement (reversed unbroken), Reading.run_append,
          Option.bind_assoc, Option.bind_assoc]
        congr 1
        funext last
        rw [Reading.run_cons, step_feed]
        cases ends : last.ended? with
        | none => rfl
        | some ended => exact ih (not_quoted_of_ended ends) ended.2 List.not_mem_nil
      · rename_i other
        have more : '\n' ∉ char :: pending := by simp [unbroken, Ne.symm other]
        rw [ih line movement more, List.reverse_cons, List.append_assoc, List.singleton_append]

theorem balanced_iff {text : String} : Balanced text ↔ ∃ place, place.mode = .code ∧
    Reading.run ⟨.code, .still⟩ text.toList = some ⟨place, .still⟩ := by
  have line : ∀ quote, Mode.code ≠ .quoted quote := fun quote same => by cases same
  have read := scan_lines_split line .still List.not_mem_nil text.toList
  rw [Balanced, Text.lines, read, Option.bind_eq_some_iff]
  constructor
  · rintro ⟨⟨place, movement⟩, ends, ended⟩
    rw [Reading.ended?] at ended
    split at ended
    · cases ended
    · obtain ⟨code, rfl⟩ := Prod.mk.inj (Option.some.inj ended)
      exact ⟨place, code, ends⟩
  · rintro ⟨place, code, ends⟩
    refine ⟨_, ends, ?_⟩
    rw [Reading.ended?, code]

namespace Movement

/-- One movement after the other: what the first opened the second may close. -/
def andThen (first second : Movement) : Movement :=
  ⟨first.closed + (second.closed - first.opened), first.opened - second.closed + second.opened⟩

theorem and_then_still (movement : Movement) : movement.andThen still = movement := by
  simp [andThen, still]

theorem open_and_then (first second : Movement) :
    (first.andThen second).open = first.andThen second.open := rfl

theorem close_and_then (first second : Movement) :
    (first.andThen second).close = first.andThen second.close := by
  obtain ⟨closed, opened⟩ := second
  rw [close, close, andThen, andThen]
  by_cases inner : 0 < opened
  · have outer : 0 < first.opened - closed + opened := by omega
    rw [if_pos outer, if_pos inner, Movement.mk.injEq]
    dsimp only
    omega
  · by_cases outer : 0 < first.opened - closed + opened
    · rw [if_pos outer, if_neg inner, Movement.mk.injEq]
      dsimp only
      omega
    · rw [if_neg outer, if_neg inner, Movement.mk.injEq]
      dsimp only
      omega

end Movement

namespace Reading

def behind (before : Movement) (reading : Reading) : Reading :=
  ⟨reading.place, before.andThen reading.movement⟩

theorem of_code_behind (before movement : Movement) (char : Char) :
    ofCode (before.andThen movement) char = (ofCode movement char).behind before := by
  unfold ofCode
  rw [Movement.open_and_then, Movement.close_and_then]
  repeat' split
  all_goals rfl

theorem step_behind (before : Movement) (reading : Reading) (char : Char) :
    (reading.behind before).step char = (reading.step char).map (behind before) := by
  obtain ⟨place, movement⟩ := reading
  cases place with
  | code => exact congrArg some (of_code_behind before movement char)
  | slash =>
      simp only [step, behind, Option.map_some, of_code_behind]
      split <;> rfl
  | comment =>
      simp only [step, behind, Option.map_some]
      split <;> rfl
  | quoted quote escaped =>
      simp only [step, behind]
      repeat' split
      all_goals rfl
  | template escaped =>
      simp only [step, behind]
      repeat' split
      all_goals rfl

theorem run_behind (before : Movement) (reading : Reading) (chars : List Char) :
    (reading.behind before).run chars = (reading.run chars).map (behind before) := by
  induction chars generalizing reading with
  | nil => rfl
  | cons char rest ih =>
      rw [run_cons, run_cons, step_behind, Option.bind_map, Option.map_bind]
      congr 1
      funext next
      exact ih next

theorem run_from_still {chars : List Char} {place : Place} {moved : Movement}
    (read : run ⟨.code, .still⟩ chars = some ⟨place, moved⟩) (movement : Movement) :
    run ⟨.code, movement⟩ chars = some ⟨place, movement.andThen moved⟩ := by
  have here := run_behind movement ⟨.code, .still⟩ chars
  rw [read, behind, Movement.and_then_still] at here
  exact here

end Reading

/-- From code the text leads to code, and this many levels stay open. -/
def Leads (levels : Nat) (chars : List Char) : Prop :=
  ∀ movement : Movement, Reading.run ⟨.code, movement⟩ chars =
    some ⟨.code, { movement with opened := movement.opened + levels }⟩

/-- Balanced code to which more can be added: its last line is not a comment. -/
def Sound (chars : List Char) : Prop :=
  ∃ place, (place = .code ∨ place = .slash) ∧
    ∀ movement, Reading.run ⟨.code, movement⟩ chars = some ⟨place, movement⟩

theorem leads_nil : Leads 0 [] := fun _ => rfl

theorem Leads.append {more levels : Nat} {front back : List Char} (first : Leads levels front)
    (second : Leads more back) : Leads (levels + more) (front ++ back) := by
  intro movement
  rw [Reading.run_append, first, Option.bind_some, second, Nat.add_assoc]

theorem leads_opening {char : Char} (opens : isOpening char = true) : Leads 1 [char] := by
  have brackets : char = '(' ∨ char = '\x7b' ∨ char = '[' := by
    simpa [isOpening, or_assoc] using opens
  intro movement
  rcases brackets with rfl | rfl | rfl <;> rfl

/-- A character of a line that the layout passes over in code. -/
def isNeutral (char : Char) : Bool :=
  !isQuote char && char ≠ '`' && !isOpening char && !isClosing char && char ≠ '/' && char ≠ '\n'

theorem of_code_neutral {char : Char} (neutral : isNeutral char = true) (movement : Movement) :
    Reading.ofCode movement char = ⟨.code, movement⟩ := by
  simp only [isNeutral, Bool.and_eq_true, Bool.not_eq_true', decide_eq_true_eq] at neutral
  obtain ⟨⟨⟨⟨⟨quote, tick⟩, opening⟩, closing⟩, slash⟩, _⟩ := neutral
  simp [Reading.ofCode, quote, tick, opening, closing, slash]

theorem leads_of_neutral {chars : List Char} (neutral : ∀ char ∈ chars, isNeutral char = true) :
    Leads 0 chars := by
  intro movement
  induction chars with
  | nil => rfl
  | cons char rest ih =>
      have later := ih fun other member => neutral other (List.mem_cons_of_mem _ member)
      rw [Reading.run_cons, Reading.step, of_code_neutral (neutral char List.mem_cons_self)]
      exact later

theorem Leads.sound {chars : List Char} (leads : Leads 0 chars) : Sound chars :=
  ⟨.code, Or.inl rfl, leads⟩

theorem Leads.sound_behind {front back : List Char} (first : Leads 0 front)
    (second : Sound back) : Sound (front ++ back) := by
  obtain ⟨place, ends, read⟩ := second
  refine ⟨place, ends, fun movement => ?_⟩
  rw [Reading.run_append, first, Option.bind_some]
  exact read movement

/-- Behind a slash that starts no comment the text goes on as in code. -/
theorem run_of_slash {char : Char} (other : char ≠ '/') (movement : Movement) (rest : List Char) :
    Reading.run ⟨.slash, movement⟩ (char :: rest) =
      Reading.run ⟨.code, movement⟩ (char :: rest) := by
  rw [Reading.run_cons, Reading.run_cons, Reading.step, Reading.step]
  simp only [if_neg other]

theorem Sound.run_append {front : List Char} (first : Sound front) {char : Char}
    (apart : char ≠ '/') (movement : Movement) (rest : List Char) :
    Reading.run ⟨.code, movement⟩ (front ++ char :: rest) =
      Reading.run ⟨.code, movement⟩ (char :: rest) := by
  obtain ⟨place, ends, read⟩ := first
  rw [Reading.run_append, read, Option.bind_some]
  rcases ends with rfl | rfl
  · rfl
  · exact run_of_slash apart movement rest

theorem Sound.leads {front : List Char} (first : Sound front) {char : Char} (apart : char ≠ '/')
    {levels : Nat} {rest : List Char} (second : Leads levels (char :: rest)) :
    Leads levels (front ++ char :: rest) := by
  intro movement
  rw [first.run_append apart]
  exact second movement

theorem Sound.append {front : List Char} (first : Sound front) {char : Char} (apart : char ≠ '/')
    {rest : List Char} (second : Sound (char :: rest)) : Sound (front ++ char :: rest) := by
  obtain ⟨place, ends, read⟩ := second
  refine ⟨place, ends, fun movement => ?_⟩
  rw [first.run_append apart]
  exact read movement

theorem Sound.enclosed {opening closing : Char} (opens : isOpening opening = true)
    (closes : isClosing closing = true) {chars : List Char} (sound : Sound chars) :
    Leads 0 (opening :: (chars ++ [closing])) := by
  have brackets : closing = ')' ∨ closing = '\x7d' ∨ closing = ']' := by
    simpa [isClosing, or_assoc] using closes
  have apart : closing ≠ '/' := by
    rintro rfl
    exact absurd closes (by decide)
  intro movement
  rw [← List.singleton_append, Reading.run_append, leads_opening opens, Option.bind_some,
    sound.run_append apart]
  rcases brackets with rfl | rfl | rfl <;> rfl

theorem Balanced.read {text : String} (balanced : Balanced text) : ∃ place, place.mode = .code ∧
    ∀ movement, Reading.run ⟨.code, movement⟩ text.toList = some ⟨place, movement⟩ := by
  obtain ⟨place, code, read⟩ := balanced_iff.1 balanced
  refine ⟨place, code, fun movement => ?_⟩
  rw [Reading.run_from_still read, Movement.and_then_still]

theorem sound_iff {text : String} :
    Sound text.toList ↔ Balanced text ∧ ¬EndsInComment text := by
  constructor
  · rintro ⟨place, ends, read⟩
    refine ⟨balanced_iff.2 ⟨place, ?_, read .still⟩, ?_⟩
    · rcases ends with rfl | rfl <;> rfl
    · rintro ⟨movement, comment⟩
      rw [read] at comment
      rcases ends with rfl | rfl <;> cases comment
  · rintro ⟨balanced, open'⟩
    obtain ⟨place, code, read⟩ := balanced.read
    refine ⟨place, ?_, read⟩
    cases place with
    | code => exact Or.inl rfl
    | slash => exact Or.inr rfl
    | comment => exact absurd ⟨_, read .still⟩ open'
    | quoted | template => cases code

/-- Code on lines of its own may end in a comment. -/
theorem Balanced.between_feeds {text : String} (balanced : Balanced text) :
    Leads 0 ('\n' :: (text.toList ++ ['\n'])) := by
  obtain ⟨place, code, read⟩ := balanced.read
  intro movement
  have first : Reading.step ⟨.code, movement⟩ '\n' = some ⟨.code, movement⟩ := rfl
  rw [Reading.run_cons, first, Option.bind_some, Reading.run_append, read, Option.bind_some,
    Reading.run_cons, step_feed, Reading.ended?, code]
  rfl

theorem run_comment {rest : List Char} (unbroken : '\n' ∉ rest) (movement : Movement) :
    Reading.run ⟨.comment, movement⟩ rest = some ⟨.comment, movement⟩ := by
  induction rest with
  | nil => rfl
  | cons char rest ih =>
      have notFeed : char ≠ '\n' := fun same => unbroken (same ▸ List.mem_cons_self)
      rw [Reading.run_cons, Reading.step, if_neg notFeed, Option.bind_some]
      exact ih fun member => unbroken (List.mem_cons_of_mem _ member)

/-- A comment takes the rest of its line, and with it what would close the levels before it. -/
theorem not_balanced_of_comment {text code : String} {front back : List Char} {levels : Nat}
    (whole : text.toList = front ++ (code.toList ++ back)) (leads : Leads (levels + 1) front)
    (balanced : Balanced code) (comment : EndsInComment code) (unbroken : '\n' ∉ back) :
    ¬Balanced text := by
  obtain ⟨place, _, read⟩ := balanced.read
  obtain ⟨movement, ends⟩ := comment
  rw [read] at ends
  cases ends
  intro closed
  obtain ⟨last, _, whole'⟩ := balanced_iff.1 closed
  rw [whole, Reading.run_append, leads, Option.bind_some, Reading.run_append, read,
    Option.bind_some, run_comment unbroken] at whole'
  cases whole'

end Layout
end PageBuilder.Code
