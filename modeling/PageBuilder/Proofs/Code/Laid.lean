import PageBuilder.Proofs.Code.Flat
import PageBuilder.Proofs.Code.Wrapped.Markup

/-!
Code that the layout leaves as it is: each line is indented by the levels that are open before it,
less those that it closes first, and opens at most one. Such code is put together from lines, and
keeps to it when it is indented as a whole.
-/

namespace PageBuilder.Code
namespace Layout

/-- A line without its indentation: what it closes before anything else and what it opens. -/
structure Moves (closed opened : Nat) (line : List Char) : Prop where
  nonempty : line ≠ []
  first : ∀ char ∈ line.head?, Text.isBlank char = false
  last : ∀ char ∈ line.getLast?, Text.isBlank char = false
  unbroken : '\n' ∉ line
  code : (scan .code .still line).1 = .code
  moved : withTags line (scan .code .still line).2 = ⟨closed, opened⟩
  single : opened ≤ 1

instance (closed opened : Nat) (line : List Char) : Decidable (Moves closed opened line) :=
  have : Decidable (∀ char ∈ line.head?, Text.isBlank char = false) :=
    Option.decidableForallMem line.head?
  have : Decidable (∀ char ∈ line.getLast?, Text.isBlank char = false) :=
    Option.decidableForallMem line.getLast?
  decidable_of_iff
    (line ≠ [] ∧ (∀ char ∈ line.head?, Text.isBlank char = false) ∧
      (∀ char ∈ line.getLast?, Text.isBlank char = false) ∧ '\n' ∉ line ∧
      (scan .code .still line).1 = .code ∧
      withTags line (scan .code .still line).2 = ⟨closed, opened⟩ ∧ opened ≤ 1)
    ⟨fun held => ⟨held.1, held.2.1, held.2.2.1, held.2.2.2.1, held.2.2.2.2.1, held.2.2.2.2.2.1,
      held.2.2.2.2.2.2⟩,
    fun moves => ⟨moves.nonempty, moves.first, moves.last, moves.unbroken, moves.code, moves.moved,
      moves.single⟩⟩

/-- Lines of code from so many open levels on to so many. -/
inductive LaidLines : Nat → List (List Char) → Nat → Prop
  | nil {depth : Nat} : LaidLines depth [] depth
  | blank {depth after : Nat} {lines : List (List Char)} (rest : LaidLines depth lines after) :
      LaidLines depth ([] :: lines) after
  | line {depth after closed opened : Nat} {line : List Char} {lines : List (List Char)}
      (moves : Moves closed opened line) (within : closed ≤ depth)
      (rest : LaidLines (depth - closed + opened) lines after) :
      LaidLines depth ((indentation (depth - closed) ++ line) :: lines) after

theorem trim_start_of_first {line : List Char}
    (first : ∀ char ∈ line.head?, Text.isBlank char = false) : Text.trimStart line = line := by
  cases line with
  | nil => rfl
  | cons char rest =>
      have dark := first char rfl
      rw [Text.trimStart, List.dropWhile_cons_of_neg (by simp [dark])]

theorem Moves.trimmed {closed opened : Nat} {line : List Char} (moves : Moves closed opened line) :
    Text.trim line = line := by
  have ends : Text.trimStart line.reverse = line.reverse := by
    apply trim_start_of_first
    rw [List.head?_reverse]
    exact moves.last
  rw [Text.trim, trim_start_of_first moves.first, Text.trimEnd, ends, List.reverse_reverse]

theorem trim_indented (level : Nat) (line : List Char) :
    Text.trim (indentation level ++ line) = Text.trim line := by
  rw [Text.trim, Text.trimStart, List.dropWhile_append_of_pos fun _ => blank_of_indentation]
  rfl

theorem close_levels_ones {closed depth : Nat} (within : closed ≤ depth) :
    closeLevels closed (List.replicate depth 1) = some (List.replicate (depth - closed) 1) := by
  induction closed generalizing depth with
  | zero => rw [closeLevels, Nat.sub_zero]
  | succ closed ih =>
      obtain ⟨depth, rfl⟩ : ∃ inner, depth = inner + 1 := ⟨depth - 1, by omega⟩
      rw [List.replicate_succ, closeLevels, if_neg (by omega), Nat.add_sub_cancel,
        ih (by omega), Nat.add_sub_add_right]

theorem open_levels_ones {opened : Nat} (single : opened ≤ 1) (depth : Nat) :
    openLevels opened (List.replicate depth 1) = List.replicate (depth + opened) 1 := by
  obtain rfl | rfl : opened = 0 ∨ opened = 1 := by omega
  · rfl
  · rfl

theorem layout_line_laid {closed opened depth : Nat} {line : List Char}
    (moves : Moves closed opened line) (within : closed ≤ depth) (number : Nat) :
    layoutLine ⟨List.replicate depth 1, false⟩ number (indentation (depth - closed) ++ line) =
      .ok (indentation (depth - closed) ++ line,
        ⟨List.replicate (depth - closed + opened) 1, false⟩) := by
  have read : scanLine false number line = .ok ⟨(scan .code .still line).2, false⟩ := by
    have code := moves.code
    rw [scanLine, if_neg Bool.false_ne_true]
    generalize scan .code .still line = scanned at code ⊢
    obtain ⟨mode, movement⟩ := scanned
    cases code
    rfl
  have closes : close number closed (List.replicate depth 1) =
      .ok (List.replicate (depth - closed) 1) := by
    rw [close, close_levels_ones within]
  have nonempty : line.isEmpty = false := List.isEmpty_eq_false_iff.2 moves.nonempty
  rw [layoutLine, if_neg Bool.false_ne_true, trim_indented, moves.trimmed]
  simp only [nonempty, Bool.false_eq_true, if_false, read, moves.moved, closes, bind, Except.bind,
    List.length_replicate, open_levels_ones moves.single]

/-- The first and the last character of a line show what kind of line it is. -/
structure Ends (start final : Char) (line : List Char) : Prop where
  first : line.head? = some start
  last : line.getLast? = some final
  visible : Text.isBlank start = false ∧ Text.isBlank final = false

theorem Ends.moves {first last : Char} {line : List Char} (ends : Ends first last line)
    (unbroken : '\n' ∉ line) {closed opened : Nat} {movement : Movement}
    (scanned : scan .code .still line = (.code, movement))
    (tagged : withTags line movement = ⟨closed, opened⟩) (single : opened ≤ 1) :
    Moves closed opened line := by
  refine ⟨?_, fun char start => ?_, fun char final => ?_, unbroken, by rw [scanned],
    by rw [scanned, tagged], single⟩
  · rintro rfl
    cases ends.first
  · rw [ends.first] at start
    cases start
    exact ends.visible.1
  · rw [ends.last] at final
    cases final
    exact ends.visible.2

theorem Leads.scanned {levels : Nat} {line : List Char} (leads : Leads levels line)
    (unbroken : '\n' ∉ line) : scan .code .still line = (.code, ⟨0, levels⟩) := by
  obtain ⟨last, read, _, ends⟩ := read_line unbroken (proper_place .code trivial) .still
  have reached := leads .still
  rw [show Mode.code.place = .code from rfl, reached] at read
  cases read
  rw [Movement.still, Nat.zero_add] at ends
  exact ends

/-- A line that starts like code is no tag. -/
theorem Ends.with_tags {first last : Char} {line : List Char} (ends : Ends first last line)
    (code : first ≠ '<' ∧ first ≠ '>' ∧ first ≠ '/') (movement : Movement) :
    withTags line movement = movement := by
  obtain ⟨rest, rfl⟩ := List.head?_eq_some_iff.1 ends.first
  have opens : opensTag (first :: rest) = false := by simp [opensTag, code.1]
  have closes : closesTag (first :: rest) = false := by simp [closesTag, code.1]
  rw [withTags, if_neg (by simp [code.2.1]), if_neg (by simp [code.2.2]), closes, opens]
  rfl

theorem Ends.code {first last : Char} {line : List Char} (ends : Ends first last line)
    (code : first ≠ '<' ∧ first ≠ '>' ∧ first ≠ '/') (unbroken : '\n' ∉ line) {levels : Nat}
    (leads : Leads levels line) (single : levels ≤ 1) : Moves 0 levels line :=
  ends.moves unbroken (leads.scanned unbroken) (ends.with_tags code _) single

/-- Inside of a tag, apart from the brackets of the tag itself. -/
structure TagText (text : List Char) : Prop where
  flat : Flat text
  first : ∃ first ∈ text.head?, first ≠ '/'
  last : ∃ last ∈ text.getLast?, last ≠ '/' ∧ Text.isBlank last = false

namespace TagText

theorem ends_closed (text between : List Char) :
    Ends '<' '>' ('<' :: (text ++ between ++ ['>'])) := by
  refine ⟨rfl, ?_, by decide, by decide⟩
  rw [← List.cons_append, List.getLast?_concat]

variable {text : List Char} (inside : TagText text)

include inside

theorem no_closing (after : List Char) : closesTag ('<' :: (text ++ after)) = false := by
  obtain ⟨first, start, other⟩ := inside.first
  obtain ⟨rest, rfl⟩ := List.head?_eq_some_iff.1 start
  simp [closesTag, other]

theorem opening_flat : Flat ('<' :: text) :=
  (flat_of_neutral (by decide : Neutral ['<'])).append inside.flat

/-- `<Name …>` -/
theorem moves_opening : Moves 0 1 ('<' :: (text ++ ['>'])) := by
  have flat : Flat ('<' :: (text ++ ['>'])) := inside.opening_flat.append (by decide)
  have ends := ends_closed text []
  rw [List.append_nil] at ends
  have opens : opensTag ('<' :: (text ++ ['>'])) = true := by
    obtain ⟨last, final, other, _⟩ := inside.last
    have before : ('<' :: text).getLast? = Option.some last := by
      rw [List.getLast?_cons, final]
      rfl
    rw [opensTag, ends.first, ends.last, ← List.cons_append, List.dropLast_concat, before]
    simp [other]
  refine ends.moves flat.unbroken (flat.leads.scanned flat.unbroken) ?_ (Nat.le_refl 1)
  rw [withTags, if_neg (by simp), if_neg (by simp), inside.no_closing, opens]
  rfl

/-- `<Name … />` -/
theorem moves_self_closing : Moves 0 0 ('<' :: (text ++ [' ', '/', '>'])) := by
  have flat : Flat ('<' :: (text ++ [' ', '/', '>'])) := inside.opening_flat.append (by decide)
  have ends := ends_closed text [' ', '/']
  have split : text ++ [' ', '/', '>'] = text ++ [' ', '/'] ++ ['>'] := by simp
  have opens : opensTag ('<' :: (text ++ [' ', '/', '>'])) = false := by
    have before : ('<' :: (text ++ [' ', '/'])).getLast? = Option.some '/' := by
      rw [List.getLast?_cons, List.getLast?_append]
      rfl
    rw [split, opensTag, ends.first, ends.last, ← List.cons_append, List.dropLast_concat, before]
    rfl
  rw [← split] at ends
  refine ends.moves flat.unbroken (flat.leads.scanned flat.unbroken) ?_ (Nat.zero_le 1)
  rw [withTags, if_neg (by simp), if_neg (by simp), inside.no_closing, opens]
  rfl

/-- `<Name`, where the attributes have lines of their own. -/
theorem moves_started (bare : '>' ∉ text) : Moves 0 1 ('<' :: text) := by
  obtain ⟨last, final, _, visible⟩ := inside.last
  have flat := inside.opening_flat
  have whole : '>' ∉ '<' :: text := by simp [bare]
  have before : ('<' :: text).getLast? = Option.some last := by
    rw [List.getLast?_cons, final]
    rfl
  have ends : Ends '<' last ('<' :: text) := ⟨rfl, before, by decide, visible⟩
  have opens : opensTag ('<' :: text) = true := by
    have other : last ≠ '>' := fun same => bare (same ▸ List.mem_of_getLast? final)
    rw [opensTag, ends.first, ends.last]
    simp [other, bare]
  have closes := inside.no_closing []
  rw [List.append_nil] at closes
  refine ends.moves flat.unbroken (flat.leads.scanned flat.unbroken) ?_ (Nat.le_refl 1)
  rw [withTags, if_neg (by simp), if_neg (by simp), closes, opens]
  rfl

/-- `</Name>` -/
theorem moves_closing : Moves 1 0 ('<' :: '/' :: (text ++ ['>'])) := by
  obtain ⟨first, start, other⟩ := inside.first
  obtain ⟨rest, same⟩ := List.head?_eq_some_iff.1 start
  have named : Flat (text ++ ['>']) := inside.flat.append (by decide)
  have slashed : Sound ['<', '/'] := ⟨.slash, Or.inr rfl, fun _ => rfl⟩
  have unbroken : '\n' ∉ '<' :: '/' :: (text ++ ['>']) := by
    simpa using named.unbroken
  have leads : Leads 0 ('<' :: '/' :: (text ++ ['>'])) := by
    rw [same, List.cons_append] at named ⊢
    exact slashed.leads other named.leads
  have ends : Ends '<' '>' ('<' :: '/' :: (text ++ ['>'])) := by
    refine ⟨rfl, ?_, by decide, by decide⟩
    rw [← List.cons_append, ← List.cons_append, List.getLast?_concat]
  refine ends.moves unbroken (leads.scanned unbroken) ?_ (Nat.zero_le 1)
  rw [withTags, if_neg (by simp), if_neg (by simp), if_pos (by simp [closesTag])]

end TagText

namespace LaidLines

theorem layout_lines {lines : List (List Char)} {depth : Nat} (laid : LaidLines depth lines 0)
    (number : Nat) : layoutLines ⟨List.replicate depth 1, false⟩ number lines = .ok lines := by
  generalize ended : 0 = after at laid
  induction laid generalizing number with
  | nil =>
      subst ended
      rfl
  | blank rest ih =>
      have line (groups : Groups) : layoutLine ⟨groups, false⟩ (number + 1) [] =
          .ok ([], ⟨groups, false⟩) := rfl
      rw [layoutLines, line]
      simp only [bind, Except.bind, ih (number + 1) ended]
  | line moves within rest ih =>
      rw [layoutLines, layout_line_laid moves within]
      simp only [bind, Except.bind, ih (number + 1) ended]

theorem append {before middle after : Nat} {lines more : List (List Char)}
    (first : LaidLines before lines middle) (second : LaidLines middle more after) :
    LaidLines before (lines ++ more) after := by
  induction first with
  | nil => exact second
  | blank _ ih => exact .blank (ih second)
  | line moves within _ ih => exact .line moves within (ih second)

theorem indent {before after : Nat} {lines : List (List Char)}
    (laid : LaidLines before lines after) (level : Nat) :
    LaidLines (before + level) (lines.map (indentLine level)) (after + level) := by
  induction laid with
  | nil => exact .nil
  | blank _ ih => exact .blank ih
  | @line depth _ closed opened line _ moves within _ ih =>
      have deeper : depth - closed + opened + level = depth + level - closed + opened := by omega
      have moved : indentLine level (indentation (depth - closed) ++ line) =
          indentation (depth + level - closed) ++ line := by
        have nonempty : (indentation (depth - closed) ++ line).isEmpty = false := by
          simp [moves.nonempty]
        rw [indentLine, nonempty, if_neg Bool.false_ne_true, ← List.append_assoc,
          SameLine.indentation_add]
        congr 2
        omega
      rw [deeper] at ih
      rw [List.map_cons, moved]
      exact .line moves (by omega) ih

theorem clean {before after : Nat} {lines : List (List Char)}
    (laid : LaidLines before lines after) :
    ∀ line ∈ lines, '\n' ∉ line ∧ line.getLast? ≠ some '\r' := by
  induction laid with
  | nil => exact fun line member => absurd member List.not_mem_nil
  | blank rest ih =>
      intro line member
      rcases List.mem_cons.1 member with rfl | later
      · exact ⟨List.not_mem_nil, by simp⟩
      · exact ih line later
  | line moves within rest ih =>
      intro line member
      rcases List.mem_cons.1 member with rfl | later
      · refine ⟨fun feed => ?_, fun last => ?_⟩
        · rcases List.mem_append.1 feed with blank | inside
          · exact absurd (List.eq_of_mem_replicate blank) (by decide)
          · exact moves.unbroken inside
        · rw [List.getLast?_append_of_ne_nil _ moves.nonempty] at last
          exact absurd (moves.last _ last) (by decide)
      · exact ih line later

end LaidLines

/-- A text of whole lines that the layout leaves as they are. -/
def Laid (before after : Nat) (text : String) : Prop :=
  ∃ lines, text.toList = Text.joinLines lines ∧ LaidLines before lines after

namespace Laid

theorem lines_eq {lines : List (List Char)} {before after : Nat} {text : String}
    (joined : text.toList = Text.joinLines lines) (laid : LaidLines before lines after) :
    Text.lines text.toList = lines := by
  rw [joined]
  exact Text.lines_join_lines lines (fun line member => (laid.clean line member).1)
    fun line member => (laid.clean line member).2

theorem layout {text : String} (laid : Laid 0 0 text) : layout text = .ok text := by
  obtain ⟨lines, joined, each⟩ := laid
  rw [Code.layout, lines_eq joined each]
  have done := each.layout_lines 0
  rw [show State.start = ⟨List.replicate 0 1, false⟩ from rfl, done]
  simp only [bind, Except.bind, ← joined, String.ofList_toList]

theorem empty (depth : Nat) : Laid depth depth "" := ⟨[], rfl, .nil⟩

theorem feed (depth : Nat) : Laid depth depth "\n" := ⟨[[]], rfl, .blank .nil⟩

theorem append {before middle after : Nat} {text more : String} (first : Laid before middle text)
    (second : Laid middle after more) : Laid before after (text ++ more) := by
  obtain ⟨lines, joined, laid⟩ := first
  obtain ⟨others, further, later⟩ := second
  refine ⟨lines ++ others, ?_, laid.append later⟩
  rw [String.toList_append, joined, further, Text.join_lines_append]

theorem line {closed opened depth : Nat} {line : String} (moves : Moves closed opened line.toList)
    (within : closed ≤ depth) :
    Laid depth (depth - closed + opened)
      (String.ofList (indentation (depth - closed)) ++ line ++ "\n") := by
  refine ⟨[indentation (depth - closed) ++ line.toList], ?_, .line moves within .nil⟩
  simp [Text.joinLines]

/-- A line that closes all open levels, or one where none are open. -/
theorem outer {closed opened : Nat} {line : String} (moves : Moves closed opened line.toList) :
    Laid closed opened (line ++ "\n") := by
  have laid := Laid.line moves (Nat.le_refl closed)
  rwa [Nat.sub_self, Nat.zero_add, show String.ofList (indentation 0) = "" from rfl,
    String.empty_append] at laid

theorem join {depth : Nat} {texts : List String} (each : ∀ text ∈ texts, Laid depth depth text) :
    Laid depth depth (String.join texts) := by
  induction texts with
  | nil => exact empty depth
  | cons text rest ih =>
      rw [String.join_cons]
      exact (each text List.mem_cons_self).append
        (ih fun other member => each other (List.mem_cons_of_mem _ member))

theorem indent {before after : Nat} {text : String} (laid : Laid before after text) (level : Nat) :
    Laid (before + level) (after + level) (indentLines level text) := by
  obtain ⟨lines, joined, each⟩ := laid
  refine ⟨lines.map (indentLine level), ?_, each.indent level⟩
  rw [indentLines, String.toList_ofList, lines_eq joined each]

end Laid

end Layout
end PageBuilder.Code
