import Mathlib.Algebra.GroupWithZero.Nat
import Mathlib.Algebra.Ring.Int.Defs
import PageBuilder.Proofs.Code.Literals

/-!
Open levels as a plain count. The layout keeps them in groups, one for each line that opened some;
here every bracket and every tag is one step up or down. Main statement: the groups add up to the
count, so a text is unbalanced where the count falls below zero, and at its end where it is not back
at zero.
-/

namespace PageBuilder.Code
namespace Layout

inductive LevelStep where
  | up
  | down
  deriving DecidableEq

def LevelStep.value : LevelStep → Int
  | .up => 1
  | .down => -1

/-- How many more levels some steps open than they close. -/
def balance (steps : List LevelStep) : Int := (steps.map LevelStep.value).sum

/-- What of a line stands neither between quotes or backticks nor behind two slashes. -/
def codeOf : Mode → List Char → List Char
  | _, [] => []
  | .code, '/' :: '/' :: _ => []
  | .code, char :: rest =>
      if isQuote char then codeOf (.quoted char) rest
      else if char = '`' then codeOf .template rest
      else char :: codeOf .code rest
  | mode, '\\' :: _ :: rest => codeOf mode rest
  | .quoted quote, char :: rest =>
      if char = quote then codeOf .code rest else codeOf (.quoted quote) rest
  | .template, char :: rest =>
      if char = '`' then codeOf .code rest else codeOf .template rest

def bracket? (char : Char) : Option LevelStep :=
  if isOpening char then some .up else if isClosing char then some .down else none

def brackets (mode : Mode) (line : List Char) : List LevelStep :=
  (codeOf mode line).filterMap bracket?

/-- A closing tag closes a level, and so does the end of an opening tag whose attributes have lines
of their own. -/
def closingTag (line : List Char) : List LevelStep :=
  if line = ['>'] ∨ line = ['/', '>'] ∨ closesTag line then [.down] else []

/-- An opening tag that its line does not close opens a level, and so does the end of one over
several lines that has content. -/
def openingTag (line : List Char) : List LevelStep :=
  if line = ['>'] ∨ opensTag line ∧ ¬closesTag line then [.up] else []

/-- A line that starts in code counts without the blanks at its ends. -/
def counted (mode : Mode) (raw : List Char) : List Char :=
  if mode = .template then raw else Text.trim raw

/-- Of a line that starts between backticks only the brackets count. -/
def lineSteps (mode : Mode) (raw : List Char) : List LevelStep :=
  if mode = .template then brackets .template raw
  else
    closingTag (Text.trim raw) ++ brackets .code (Text.trim raw) ++ openingTag (Text.trim raw)

def endMode (mode : Mode) (raw : List Char) : Mode := (scan mode .still (counted mode raw)).1

/-- The steps of each line. -/
def textSteps : Mode → List (List Char) → List (List LevelStep)
  | _, [] => []
  | mode, raw :: rest => lineSteps mode raw :: textSteps (endMode mode raw) rest

def Mode.isQuoted : Mode → Bool
  | .quoted _ => true
  | _ => false

/-- Each quote is ended on its line. -/
def QuotesEnd : Mode → List (List Char) → Prop
  | _, [] => True
  | mode, raw :: rest =>
      (endMode mode raw).isQuoted = false ∧ QuotesEnd (endMode mode raw) rest

def quotes_end_decidable : ∀ (mode : Mode) (lines : List (List Char)),
    Decidable (QuotesEnd mode lines)
  | _, [] => inferInstanceAs (Decidable True)
  | mode, raw :: rest =>
      have := quotes_end_decidable (endMode mode raw) rest
      inferInstanceAs (Decidable (_ ∧ _))

instance (mode : Mode) (lines : List (List Char)) : Decidable (QuotesEnd mode lines) :=
  quotes_end_decidable mode lines

/-- From this count on, some of the steps lead below zero. -/
def Falls (count : Int) (steps : List LevelStep) : Prop :=
  ∃ front, front <+: steps ∧ count + balance front < 0

/-- The count falls below zero on the line behind so many others. -/
def FallsOn (count : Int) (lines : List (List LevelStep)) (before : Nat) : Prop :=
  ∃ line, lines[before]? = some line ∧ Falls (count + balance (lines.take before).flatten) line

structure FirstFall (count : Int) (lines : List (List LevelStep)) (before : Nat) : Prop where
  falls : FallsOn count lines before
  earlier : ∀ other < before, ¬FallsOn count lines other

/-- The groups are those of so many open levels. -/
structure Groups.Hold (groups : Groups) (count : Int) : Prop where
  positive : ∀ group ∈ groups, 0 < group
  sum : (groups.sum : Int) = count

/-- The state behind some lines, if the layout gets there. -/
def stateAfter (state : State) (number : Nat) : List (List Char) → Option State
  | [] => some state
  | raw :: rest =>
      match layoutLine state (number + 1) raw with
      | .ok (_, next) => stateAfter next (number + 1) rest
      | .error _ => none

@[simp]
theorem balance_nil : balance [] = 0 := rfl

@[simp]
theorem balance_cons (step : LevelStep) (steps : List LevelStep) :
    balance (step :: steps) = step.value + balance steps := by
  rw [balance, List.map_cons, List.sum_cons, balance]

@[simp]
theorem balance_append (front back : List LevelStep) :
    balance (front ++ back) = balance front + balance back := by
  rw [balance, List.map_append, List.sum_append, balance, balance]

/-- A movement closes as many levels as its steps lead down at most, and opens the others. -/
structure Movement.Of (movement : Movement) (steps : List LevelStep) : Prop where
  net : (movement.opened : Int) - movement.closed = balance steps
  lowest : ∀ front, front <+: steps → -(movement.closed : Int) ≤ balance front
  reached : ∃ front, front <+: steps ∧ balance front = -(movement.closed : Int)

namespace Movement.Of

variable {movement : Movement} {steps : List LevelStep}

theorem still : Movement.still.Of [] where
  net := rfl
  lowest front start := by
    rw [List.prefix_nil.1 start]
    exact Int.le_refl 0
  reached := ⟨[], List.nil_prefix, rfl⟩

theorem up (moved : movement.Of steps) : movement.open.Of (steps ++ [.up]) where
  net := by
    have net := moved.net
    simp only [Movement.open, balance_append, balance_cons, balance_nil, LevelStep.value]
    omega
  lowest front start := by
    rcases List.prefix_concat_iff.1 start with rfl | within
    · have whole := moved.lowest steps List.prefix_rfl
      simp only [Movement.open, balance_append, balance_cons, balance_nil, LevelStep.value]
      omega
    · exact moved.lowest front within
  reached := by
    obtain ⟨front, start, lowest⟩ := moved.reached
    exact ⟨front, start.trans (List.prefix_append _ _), lowest⟩

theorem down (moved : movement.Of steps) : movement.close.Of (steps ++ [.down]) := by
  have net := moved.net
  have whole : balance (steps ++ [.down]) = balance steps - 1 := by
    simp only [balance_append, balance_cons, balance_nil, LevelStep.value]
    omega
  rw [Movement.close]
  split
  · -- A level of the line itself is closed, which leads no deeper than before.
    refine ⟨by rw [whole]; dsimp only; omega, fun front start => ?_, ?_⟩
    · rcases List.prefix_concat_iff.1 start with rfl | within
      · rw [whole]
        dsimp only
        omega
      · exact moved.lowest front within
    · obtain ⟨front, start, lowest⟩ := moved.reached
      exact ⟨front, start.trans (List.prefix_append _ _), lowest⟩
  · refine ⟨by rw [whole]; dsimp only; omega, fun front start => ?_, ?_⟩
    · rcases List.prefix_concat_iff.1 start with rfl | within
      · rw [whole]
        dsimp only
        omega
      · have before := moved.lowest front within
        dsimp only
        omega
    · refine ⟨steps ++ [.down], List.prefix_rfl, ?_⟩
      rw [whole]
      dsimp only
      omega

/-- What closes a level before all else leads one level deeper. -/
theorem behind_down (moved : movement.Of steps) :
    Movement.Of { movement with closed := movement.closed + 1 } (.down :: steps) where
  net := by
    have net := moved.net
    simp only [balance_cons, LevelStep.value]
    omega
  lowest front start := by
    cases front with
    | nil =>
        rw [balance_nil]
        dsimp only
        omega
    | cons step front =>
        obtain ⟨rfl, within⟩ := List.cons_prefix_cons.1 start
        have before := moved.lowest front within
        simp only [balance_cons, LevelStep.value]
        omega
  reached := by
    obtain ⟨front, start, lowest⟩ := moved.reached
    refine ⟨.down :: front, List.cons_prefix_cons.2 ⟨rfl, start⟩, ?_⟩
    simp only [balance_cons, LevelStep.value]
    omega

theorem falls_iff (moved : movement.Of steps) (count : Int) :
    Falls count steps ↔ count < movement.closed := by
  constructor
  · intro falls
    obtain ⟨front, start, below⟩ := falls
    have lowest := moved.lowest front start
    omega
  · intro short
    obtain ⟨front, start, lowest⟩ := moved.reached
    exact ⟨front, start, by omega⟩

end Movement.Of

theorem scan_brackets {mode : Mode} {movement : Movement} {line : List Char}
    {steps : List LevelStep} (moved : movement.Of steps) :
    (scan mode movement line).2.Of (steps ++ brackets mode line) := by
  fun_induction scan mode movement line generalizing steps with
  | case1 mode movement => rwa [brackets, codeOf, List.filterMap_nil, List.append_nil]
  | case2 movement rest => rwa [brackets, codeOf, List.filterMap_nil, List.append_nil]
  | case3 movement char rest apart quote ih =>
      rw [brackets, codeOf.eq_3 _ _ apart, if_pos quote]
      exact ih moved
  | case4 movement rest apart quote ih =>
      rw [brackets, codeOf.eq_3 _ _ apart, if_neg quote, if_pos rfl]
      exact ih moved
  | case5 movement char rest apart quote tick opening ih =>
      have step : bracket? char = some .up := by rw [bracket?, if_pos opening]
      rw [brackets, codeOf.eq_3 _ _ apart, if_neg quote, if_neg tick,
        List.filterMap_cons_some step, List.append_cons]
      exact ih moved.up
  | case6 movement char rest apart quote tick opening closing ih =>
      have step : bracket? char = some .down := by
        rw [bracket?, if_neg opening, if_pos closing]
      rw [brackets, codeOf.eq_3 _ _ apart, if_neg quote, if_neg tick,
        List.filterMap_cons_some step, List.append_cons]
      exact ih moved.down
  | case7 movement char rest apart quote tick opening closing ih =>
      have step : bracket? char = none := by rw [bracket?, if_neg opening, if_neg closing]
      rw [brackets, codeOf.eq_3 _ _ apart, if_neg quote, if_neg tick,
        List.filterMap_cons_none step]
      exact ih moved
  | case8 mode movement escaped rest text ih =>
      rw [brackets, codeOf.eq_4 _ _ _ text]
      exact ih moved
  | case9 movement quote rest literal ih =>
      rw [brackets, codeOf.eq_5 _ _ _ literal, if_pos rfl]
      exact ih moved
  | case10 quote movement char rest literal other ih =>
      rw [brackets, codeOf.eq_5 _ _ _ literal, if_neg other]
      exact ih moved
  | case11 movement rest literal ih =>
      rw [brackets, codeOf.eq_6 _ _ literal, if_pos rfl]
      exact ih moved
  | case12 movement char rest literal other ih =>
      rw [brackets, codeOf.eq_6 _ _ literal, if_neg other]
      exact ih moved

theorem with_tags_steps (line : List Char) :
    (withTags line (scan .code .still line).2).Of
      (closingTag line ++ brackets .code line ++ openingTag line) := by
  have moved : (scan .code .still line).2.Of (brackets .code line) :=
    scan_brackets Movement.Of.still
  unfold withTags
  split
  · rename_i bare
    subst bare
    exact Movement.Of.still.behind_down.up
  · rename_i notBare
    split
    · rename_i empty
      subst empty
      exact Movement.Of.still.behind_down
    · rename_i notEmpty
      rw [closingTag, openingTag]
      split
      · rename_i closes
        rw [if_pos (Or.inr (Or.inr closes)), if_neg (by simp [notBare, closes]), List.append_nil]
        exact moved.behind_down
      · rename_i closes
        have closing : ¬(line = ['>'] ∨ line = ['/', '>'] ∨ closesTag line) := by
          simp [notBare, notEmpty, closes]
        rw [if_neg closing, List.nil_append]
        split
        · rename_i opens
          rw [if_pos (Or.inr ⟨opens, closes⟩)]
          exact moved.up
        · rename_i opens
          rw [if_neg (by simp [notBare, opens]), List.append_nil]
          exact moved

namespace Groups

variable {groups : Groups} {count : Int}

theorem Hold.start : State.start.groups.Hold 0 :=
  ⟨fun _ member => absurd member List.not_mem_nil, rfl⟩

theorem hold_cons {top : Nat} :
    Hold (top :: groups) count ↔ 0 < top ∧ Hold groups (count - top) := by
  constructor
  · intro hold
    obtain ⟨positive, sum⟩ := hold
    rw [List.sum_cons, Int.natCast_add] at sum
    exact ⟨positive top List.mem_cons_self,
      fun group member => positive group (List.mem_cons_of_mem _ member), by omega⟩
  · intro hold
    obtain ⟨first, positive, sum⟩ := hold
    refine ⟨List.forall_mem_cons.2 ⟨first, positive⟩, ?_⟩
    rw [List.sum_cons, Int.natCast_add, sum]
    omega

theorem Hold.nonneg (hold : groups.Hold count) : 0 ≤ count := by
  have sum := hold.sum
  omega

theorem Hold.eq_nil_iff (hold : groups.Hold count) : groups = [] ↔ count = 0 := by
  constructor
  · intro empty
    rw [← hold.sum, empty]
    rfl
  · intro zero
    cases groups with
    | nil => rfl
    | cons top rest =>
        obtain ⟨first, others⟩ := hold_cons.1 hold
        have more := others.nonneg
        omega

/-- Closing takes so many levels off, and fails only where fewer are open. -/
theorem Hold.close (hold : groups.Hold count) (closed : Nat) :
    (count < closed ∧ closeLevels closed groups = none) ∨
      ∃ rest, closeLevels closed groups = some rest ∧ rest.Hold (count - closed) := by
  fun_induction closeLevels closed groups generalizing count with
  | case1 groups =>
      refine Or.inr ⟨groups, rfl, ?_⟩
      rwa [Int.natCast_zero, Int.sub_zero]
  | case2 closed =>
      have zero := hold.eq_nil_iff.1 rfl
      exact Or.inl ⟨by omega, rfl⟩
  | case3 closed top rest within =>
      obtain ⟨_, others⟩ := hold_cons.1 hold
      refine Or.inr ⟨_, rfl, hold_cons.2 ⟨by omega, ?_⟩⟩
      convert others using 1
      omega
  | case4 closed top rest whole ih =>
      obtain ⟨_, others⟩ := hold_cons.1 hold
      have left :
          count - top - ((closed + 1 - top : Nat) : Int) = count - ((closed + 1 : Nat) : Int) := by
        omega
      rcases ih others with short | enough
      · obtain ⟨less, failed⟩ := short
        exact Or.inl ⟨by omega, failed⟩
      · rw [left] at enough
        exact Or.inr enough

theorem Hold.open (hold : groups.Hold count) (opened : Nat) :
    Hold (openLevels opened groups) (count + opened) := by
  rw [openLevels]
  split
  · rename_i zero
    rw [zero]
    simpa using hold
  · refine hold_cons.2 ⟨by omega, ?_⟩
    rwa [Int.add_sub_cancel]

/-- The groups follow the steps of a line, up to where the count falls below zero. -/
theorem Hold.move (hold : groups.Hold count) {movement : Movement} {steps : List LevelStep}
    (moved : movement.Of steps) :
    (Falls count steps ∧ closeLevels movement.closed groups = none) ∨
      ¬Falls count steps ∧ ∃ rest, closeLevels movement.closed groups = some rest ∧
        Hold (openLevels movement.opened rest) (count + balance steps) := by
  rw [moved.falls_iff]
  rcases hold.close movement.closed with short | enough
  · exact Or.inl short
  · obtain ⟨rest, done, left⟩ := enough
    have within := left.nonneg
    refine Or.inr ⟨by omega, rest, done, ?_⟩
    rw [← moved.net]
    convert left.open movement.opened using 1
    omega

end Groups

theorem scan_line_ended {inTemplate : Bool} {number : Nat} {line : List Char}
    (ended : (scan (if inTemplate then .template else .code) .still line).1.isQuoted = false) :
    scanLine inTemplate number line =
      .ok ⟨(scan (if inTemplate then .template else .code) .still line).2,
        (scan (if inTemplate then .template else .code) .still line).1 = .template⟩ := by
  rw [scanLine]
  split
  · rename_i quote movement scanned
    rw [scanned] at ended
    cases ended
  · rename_i mode movement _ scanned
    rw [scanned]

/-- A line that does not end between quotes says how the next one starts. -/
theorem mode_of_end {mode : Mode} (ended : mode.isQuoted = false) (groups : Groups) :
    State.mode ⟨groups, mode = .template⟩ = mode := by
  cases mode with
  | code | template => rfl
  | quoted quote => cases ended

theorem Falls.nil_iff (count : Int) : Falls count [] ↔ count < 0 := by
  have still := Movement.Of.still.falls_iff count
  exact still

/-- Levels are closed before any are opened, which is where a line can fail. -/
theorem counts_of_movement {state : State} {count : Int} (hold : state.groups.Hold count)
    {movement : Movement} {steps : List LevelStep} (moved : movement.Of steps) {mode : Mode}
    (ended : mode.isQuoted = false) {number : Nat} {raw : List Char} (out : Groups → List Char)
    (laid : layoutLine state number raw =
      (close number movement.closed state.groups).map fun groups =>
        (out groups, ⟨openLevels movement.opened groups, mode = .template⟩)) :
    (Falls count steps ∧ layoutLine state number raw = .error (.unbalanced number)) ∨
      ¬Falls count steps ∧ ∃ out next, layoutLine state number raw = .ok (out, next) ∧
        next.mode = mode ∧ next.groups.Hold (count + balance steps) := by
  rcases hold.move moved with fails | done
  · obtain ⟨falls, closed⟩ := fails
    refine Or.inl ⟨falls, ?_⟩
    rw [laid, close, closed]
    rfl
  · obtain ⟨stays, rest, closed, kept⟩ := done
    refine Or.inr ⟨stays, out rest, _, ?_, mode_of_end ended _, kept⟩
    rw [laid, close, closed]
    rfl

/-- A line that is blank outside of backticks has no steps and ends where it starts. -/
theorem blank_line {raw : List Char} (blank : Text.trim raw = []) :
    lineSteps .code raw = [] ∧ endMode .code raw = .code := by
  rw [lineSteps, endMode, counted, if_neg (by decide), if_neg (by decide), blank]
  exact ⟨rfl, rfl⟩

/-- A line fails where the count falls below zero on it, and else leads on to its new count. -/
theorem layout_line_counts {state : State} {count : Int} (hold : state.groups.Hold count)
    {raw : List Char} (ended : (endMode state.mode raw).isQuoted = false) (number : Nat) :
    (Falls count (lineSteps state.mode raw) ∧
        layoutLine state number raw = .error (.unbalanced number)) ∨
      ¬Falls count (lineSteps state.mode raw) ∧
        ∃ out next, layoutLine state number raw = .ok (out, next) ∧
          next.mode = endMode state.mode raw ∧
          next.groups.Hold (count + balance (lineSteps state.mode raw)) := by
  obtain ⟨groups, inTemplate⟩ := state
  cases inTemplate with
  | true =>
      have scanned : scanLine true number raw = .ok ⟨(scan .template .still raw).2,
          (scan .template .still raw).1 = .template⟩ := scan_line_ended ended
      have moved : (scan .template .still raw).2.Of (brackets .template raw) :=
        scan_brackets Movement.Of.still
      apply counts_of_movement hold moved ended fun _ => raw
      rw [layoutLine, if_pos rfl, scanned]
      rfl
  | false =>
      by_cases blank : Text.trim raw = []
      · have nonneg := hold.nonneg
        have laid : layoutLine ⟨groups, false⟩ number raw = .ok ([], ⟨groups, false⟩) := by
          rw [layoutLine, if_neg Bool.false_ne_true, blank]
          rfl
        rw [State.mode, if_neg Bool.false_ne_true, (blank_line blank).1, (blank_line blank).2,
          Falls.nil_iff, balance_nil, Int.add_zero]
        exact Or.inr ⟨by omega, [], _, laid, rfl, hold⟩
      · have scanned : scanLine false number (Text.trim raw) =
            .ok ⟨(scan .code .still (Text.trim raw)).2,
              (scan .code .still (Text.trim raw)).1 = .template⟩ := scan_line_ended ended
        apply counts_of_movement hold (with_tags_steps (Text.trim raw)) ended
          fun groups => indentation groups.length ++ Text.trim raw
        rw [layoutLine, if_neg Bool.false_ne_true]
        dsimp only
        rw [if_neg (List.isEmpty_iff.not.2 blank), scanned]
        rfl

section Falls

variable {count : Int} {line : List LevelStep} {lines : List (List LevelStep)}

theorem falls_on_first : FallsOn count (line :: lines) 0 ↔ Falls count line := by
  simp [FallsOn]

theorem falls_on_later {before : Nat} :
    FallsOn count (line :: lines) (before + 1) ↔ FallsOn (count + balance line) lines before := by
  simp [FallsOn, Int.add_assoc]

theorem stays_iff : (∀ before, ¬FallsOn count (line :: lines) before) ↔
    ¬Falls count line ∧ ∀ before, ¬FallsOn (count + balance line) lines before := by
  constructor
  · intro stays
    exact ⟨falls_on_first.not.1 (stays 0), fun before => falls_on_later.not.1 (stays (before + 1))⟩
  · intro stays before
    cases before with
    | zero => exact falls_on_first.not.2 stays.1
    | succ before => exact falls_on_later.not.2 (stays.2 before)

theorem FirstFall.first (falls : Falls count line) : FirstFall count (line :: lines) 0 :=
  ⟨falls_on_first.2 falls, fun _ less => absurd less (Nat.not_lt_zero _)⟩

theorem FirstFall.later (stays : ¬Falls count line) {before : Nat}
    (first : FirstFall (count + balance line) lines before) :
    FirstFall count (line :: lines) (before + 1) := by
  refine ⟨falls_on_later.2 first.falls, fun other less => ?_⟩
  cases other with
  | zero => exact falls_on_first.not.2 stays
  | succ other => exact falls_on_later.not.2 (first.earlier other (Nat.lt_of_succ_lt_succ less))

theorem FirstFall.unique {before other : Nat} (one : FirstFall count lines before)
    (two : FirstFall count lines other) : before = other := by
  rcases Nat.lt_trichotomy before other with less | same | more
  · exact absurd one.falls (two.earlier before less)
  · exact same
  · exact absurd two.falls (one.earlier other more)

end Falls

theorem layout_lines_counts {state : State} {count : Int} (hold : state.groups.Hold count)
    {lines : List (List Char)} (ended : QuotesEnd state.mode lines) (number : Nat) :
    (∃ before, FirstFall count (textSteps state.mode lines) before ∧
        layoutLines state number lines = .error (.unbalanced (number + before + 1))) ∨
      (∀ before, ¬FallsOn count (textSteps state.mode lines) before) ∧
        if count + balance (textSteps state.mode lines).flatten = 0 then
          ∃ outs, layoutLines state number lines = .ok outs
        else layoutLines state number lines = .error (.unbalanced (number + lines.length)) := by
  -- The induction is over all states whose groups add up to the count, as a line that does not fail
  -- leads on to such a state.
  induction lines generalizing state count number with
  | nil =>
      have empty := hold.eq_nil_iff
      refine Or.inr ⟨fun before falls => ?_, ?_⟩
      · obtain ⟨line, found, _⟩ := falls
        cases found
      · rw [layoutLines, textSteps, List.flatten_nil, balance_nil, Int.add_zero]
        split
        · rename_i zero
          rw [empty.2 zero]
          exact ⟨[], rfl⟩
        · rename_i other
          rw [if_neg (by simpa [empty] using other), List.length_nil, Nat.add_zero]
  | cons raw rest ih =>
      obtain ⟨here, later⟩ := ended
      rw [textSteps, layoutLines]
      rcases layout_line_counts hold here (number + 1) with fails | done
      · obtain ⟨falls, failed⟩ := fails
        refine Or.inl ⟨0, .first falls, ?_⟩
        rw [failed]
        rfl
      · obtain ⟨stays, out, next, laid, mode, kept⟩ := done
        rw [← mode] at later ⊢
        rw [laid]
        rcases ih kept later (number + 1) with fails | done
        · obtain ⟨before, first, failed⟩ := fails
          refine Or.inl ⟨before + 1, first.later stays, ?_⟩
          simp only [bind, Except.bind, failed]
          congr 2
          omega
        · obtain ⟨never, ends⟩ := done
          refine Or.inr ⟨stays_iff.2 ⟨stays, never⟩, ?_⟩
          rw [List.flatten_cons, balance_append, ← Int.add_assoc]
          split at ends
          · obtain ⟨outs, ends⟩ := ends
            rename_i zero
            rw [if_pos zero]
            simp only [bind, Except.bind, ends]
            exact ⟨_, rfl⟩
          · rename_i other
            rw [if_neg other]
            simp only [bind, Except.bind, ends]
            congr 2
            rw [List.length_cons]
            omega

/-- The groups behind any number of lines add up to the count. -/
theorem state_after_counts {state last : State} {count : Int} (hold : state.groups.Hold count)
    {lines : List (List Char)} (ended : QuotesEnd state.mode lines) {number done : Nat}
    (reached : stateAfter state number (lines.take done) = some last) :
    last.groups.Hold (count + balance ((textSteps state.mode lines).take done).flatten) := by
  induction lines generalizing state count number done with
  | nil =>
      rw [List.take_nil] at reached
      cases reached
      simpa [textSteps] using hold
  | cons raw rest ih =>
      cases done with
      | zero =>
          cases reached
          simpa using hold
      | succ done =>
          obtain ⟨here, later⟩ := ended
          rw [List.take_succ_cons, stateAfter] at reached
          rw [textSteps, List.take_succ_cons, List.flatten_cons, balance_append, ← Int.add_assoc]
          rcases layout_line_counts hold here (number + 1) with fails | done
          · rw [fails.2] at reached
            cases reached
          · obtain ⟨_, out, next, laid, mode, kept⟩ := done
            rw [laid] at reached
            rw [← mode] at later ⊢
            exact ih kept later reached

theorem state_after_iff {state : State} {count : Int} (hold : state.groups.Hold count)
    {lines : List (List Char)} (ended : QuotesEnd state.mode lines) {number done : Nat} :
    (∃ last, stateAfter state number (lines.take done) = some last) ↔
      ∀ before < done, ¬FallsOn count (textSteps state.mode lines) before := by
  induction lines generalizing state count number done with
  | nil =>
      refine iff_of_true ⟨state, by rw [List.take_nil, stateAfter]⟩ fun before _ falls => ?_
      obtain ⟨line, found, _⟩ := falls
      cases found
  | cons raw rest ih =>
      cases done with
      | zero => exact iff_of_true ⟨state, rfl⟩ fun _ less => absurd less (Nat.not_lt_zero _)
      | succ done =>
          obtain ⟨here, later⟩ := ended
          rw [List.take_succ_cons, stateAfter, textSteps]
          rcases layout_line_counts hold here (number + 1) with fails | made
          · obtain ⟨falls, failed⟩ := fails
            rw [failed]
            refine iff_of_false nofun fun never => ?_
            exact never 0 (Nat.succ_pos done) (falls_on_first.2 falls)
          · obtain ⟨stays, out, next, laid, mode, kept⟩ := made
            rw [laid]
            rw [← mode] at later ⊢
            refine (ih kept later).trans ⟨fun never before less => ?_, fun never before less => ?_⟩
            · cases before with
              | zero => exact falls_on_first.not.2 stays
              | succ before =>
                  exact falls_on_later.not.2 (never before (Nat.lt_of_succ_lt_succ less))
            · exact falls_on_later.not.1 (never (before + 1) (Nat.succ_lt_succ less))

end Layout

open Layout

section Text

variable {text : String} (ended : QuotesEnd .code (Text.lines text.toList))

include ended

theorem layout_verdict :
    (∃ before, FirstFall 0 (textSteps .code (Text.lines text.toList)) before ∧
        layout text = .error (.unbalanced (before + 1))) ∨
      (∀ before, ¬FallsOn 0 (textSteps .code (Text.lines text.toList)) before) ∧
        (balance (textSteps .code (Text.lines text.toList)).flatten ≠ 0 ∧
            layout text = .error (.unbalanced (Text.lines text.toList).length) ∨
          balance (textSteps .code (Text.lines text.toList)).flatten = 0 ∧
            ∃ out, layout text = .ok out) := by
  rw [layout]
  rcases layout_lines_counts Groups.Hold.start ended 0 with fails | done
  · obtain ⟨before, first, failed⟩ := fails
    rw [Nat.zero_add] at failed
    exact Or.inl ⟨before, first, by rw [failed]; rfl⟩
  · obtain ⟨never, ends⟩ := done
    rw [Int.zero_add, Nat.zero_add] at ends
    refine Or.inr ⟨never, ?_⟩
    split at ends
    · rename_i zero
      obtain ⟨outs, laid⟩ := ends
      exact Or.inr ⟨zero, _, by rw [laid]; rfl⟩
    · rename_i other
      exact Or.inl ⟨other, by rw [ends]; rfl⟩

theorem unbalanced_iff {number : Nat} : layout text = .error (.unbalanced number) ↔
    (∃ before, FirstFall 0 (textSteps .code (Text.lines text.toList)) before ∧
        number = before + 1) ∨
      (∀ before, ¬FallsOn 0 (textSteps .code (Text.lines text.toList)) before) ∧
        balance (textSteps .code (Text.lines text.toList)).flatten ≠ 0 ∧
          number = (Text.lines text.toList).length := by
  rcases layout_verdict ended with falls | ⟨never, left | level⟩
  · obtain ⟨before, first, failed⟩ := falls
    rw [failed]
    constructor
    · intro same
      cases same
      exact Or.inl ⟨before, first, rfl⟩
    · rintro (⟨other, again, rfl⟩ | ⟨never, _⟩)
      · rw [first.unique again]
      · exact absurd first.falls (never before)
  · obtain ⟨left, failed⟩ := left
    rw [failed]
    constructor
    · intro same
      cases same
      exact Or.inr ⟨never, left, rfl⟩
    · rintro (⟨other, first, _⟩ | ⟨_, _, rfl⟩)
      · exact absurd first.falls (never other)
      · rfl
  · obtain ⟨zero, out, laid⟩ := level
    rw [laid]
    refine iff_of_false (fun same => by cases same) ?_
    rintro (⟨other, first, _⟩ | ⟨_, left, _⟩)
    · exact never other first.falls
    · exact left zero

theorem laid_out_iff : (∃ out, layout text = .ok out) ↔
    (∀ before, ¬FallsOn 0 (textSteps .code (Text.lines text.toList)) before) ∧
      balance (textSteps .code (Text.lines text.toList)).flatten = 0 := by
  rcases layout_verdict ended with falls | ⟨never, left | level⟩
  · obtain ⟨before, first, failed⟩ := falls
    rw [failed]
    exact iff_of_false (fun ⟨_, same⟩ => by cases same) fun ⟨never, _⟩ => never before first.falls
  · obtain ⟨left, failed⟩ := left
    rw [failed]
    exact iff_of_false (fun ⟨_, same⟩ => by cases same) fun ⟨_, zero⟩ => left zero
  · exact iff_of_true level.2 ⟨never, level.1⟩

/-- The groups of open levels add up to the plain count, and none of them is ever used up. So a text
cannot be laid out exactly where the count falls below zero, and the first such line is named, or
where it is not back at zero behind the last line. -/
theorem count_tells_balance :
    let lines := Text.lines text.toList
    let counts := textSteps .code lines
    (∀ number, layout text = .error (.unbalanced number) ↔
        (∃ before, FirstFall 0 counts before ∧ number = before + 1) ∨
          (∀ before, ¬FallsOn 0 counts before) ∧ balance counts.flatten ≠ 0 ∧
            number = lines.length) ∧
      ((∃ out, layout text = .ok out) ↔
        (∀ before, ¬FallsOn 0 counts before) ∧ balance counts.flatten = 0) ∧
      (∀ done, (∃ last, stateAfter .start 0 (lines.take done) = some last) ↔
        ∀ before < done, ¬FallsOn 0 counts before) ∧
      ∀ done last, stateAfter .start 0 (lines.take done) = some last →
        last.groups.Hold (balance (counts.take done).flatten) ∧
          ∀ closed rest, closeLevels closed last.groups = some rest →
            Groups.Hold rest (balance (counts.take done).flatten - closed) := by
  intro lines counts
  refine ⟨fun number => unbalanced_iff ended, laid_out_iff ended,
    fun done => state_after_iff Groups.Hold.start ended, fun done last reached => ?_⟩
  have hold := state_after_counts Groups.Hold.start ended reached
  rw [Int.zero_add] at hold
  refine ⟨hold, fun closed rest taken => ?_⟩
  rcases hold.close closed with short | enough
  · rw [short.2] at taken
    cases taken
  · obtain ⟨left, closes, kept⟩ := enough
    rw [closes] at taken
    cases taken
    exact kept

end Text

/-- Groups of brackets and a tag over several lines; a bracket in a text between backticks does not
count. The eighth line closes one level too many. -/
def overclosed : String :=
  "f([\x7b\n<Card\n  a=\")\"\n>\nx = `(\n`, [y])\n</Card>\n\x7d]);\ng();"

theorem count_tells_balance_sample :
    QuotesEnd .code (Text.lines overclosed.toList) ∧
      layout overclosed = .error (.unbalanced 8) ∧
      FirstFall 0 (textSteps .code (Text.lines overclosed.toList)) 7 ∧
      Groups.Hold [2]
        (balance ((textSteps .code (Text.lines overclosed.toList)).take 7).flatten) := by
  have ended : QuotesEnd .code (Text.lines overclosed.toList) := by decide +kernel
  have failed : layout overclosed = .error (.unbalanced 8) := by decide +kernel
  have reached : stateAfter .start 0 ((Text.lines overclosed.toList).take 7) =
      some ⟨[2], false⟩ := by
    decide +kernel
  obtain ⟨fails, _, _, holds⟩ := count_tells_balance ended
  have hold := (holds 7 _ reached).1
  refine ⟨ended, failed, ?_, hold⟩
  rcases (fails 8).1 failed with ⟨before, first, same⟩ | ⟨_, _, short⟩
  · cases same
    exact first
  · exact absurd short (by decide +kernel)

end PageBuilder.Code
