import PageBuilder.Code.Indent
import PageBuilder.Text.Blank
import Mathlib.Data.List.Infix

/-!
What becomes of a piece of a text when the text is indented. The first line of the piece stays as it
is; its further lines are lines of the text and move in with the others.
-/

namespace PageBuilder

namespace Text

theorem drop_return_append (front : List Char) {back : List Char} (nonempty : back ≠ []) :
    dropReturn (front ++ back) = front ++ dropReturn back := by
  unfold dropReturn
  rw [List.getLast?_append_of_ne_nil _ nonempty]
  split
  · rw [List.dropLast_append_of_ne_nil nonempty]
  · rfl

theorem drop_return_of_ne {line : List Char} (other : line.getLast? ≠ some '\r') :
    dropReturn line = line := if_neg other

theorem split_lines_before (pending before : List Char) :
    ∃ done started, ∀ rest,
      splitLines pending (before ++ rest) = done ++ splitLines started rest := by
  induction before generalizing pending with
  | nil => exact ⟨[], pending, fun _ => rfl⟩
  | cons char before ih =>
      by_cases feed : char = '\n'
      · obtain ⟨done, started, split⟩ := ih []
        refine ⟨dropReturn pending.reverse :: done, started, fun rest => ?_⟩
        simp only [List.cons_append, splitLines, if_pos feed, split]
      · obtain ⟨done, started, split⟩ := ih (char :: pending)
        refine ⟨done, started, fun rest => ?_⟩
        simp only [List.cons_append, splitLines, if_neg feed, split]

theorem split_lines_older (older : List Char) {pending : List Char} (nonempty : pending ≠ [])
    (chars : List Char) :
    ∃ first rest, splitLines pending chars = first :: rest ∧
      splitLines (pending ++ older) chars = (older.reverse ++ first) :: rest := by
  induction chars generalizing pending with
  | nil =>
      exact ⟨pending.reverse, [], by simp [splitLines, nonempty],
        by simp [splitLines, nonempty]⟩
  | cons char chars ih =>
      by_cases feed : char = '\n'
      · refine ⟨dropReturn pending.reverse, splitLines [] chars, ?_, ?_⟩
        · simp only [splitLines, if_pos feed]
        · simp only [splitLines, if_pos feed, List.reverse_append]
          rw [drop_return_append _ (by simpa using nonempty)]
      · obtain ⟨first, rest, alone, after⟩ := ih (List.cons_ne_nil char pending)
        refine ⟨first, rest, ?_, ?_⟩
        · simp only [splitLines, if_neg feed, alone]
        · simp only [splitLines, if_neg feed]
          exact after

theorem split_lines_started (started : List Char) {chars : List Char} (nonempty : chars ≠ []) :
    ∃ front first rest, lines chars = first :: rest ∧
      splitLines started chars = (front ++ first) :: rest := by
  cases chars with
  | nil => exact absurd rfl nonempty
  | cons char chars =>
      by_cases feed : char = '\n'
      · refine ⟨dropReturn started.reverse, [], splitLines [] chars, ?_, ?_⟩
        · simp only [lines, splitLines, if_pos feed, List.reverse_nil]
          rfl
        · simp only [splitLines, if_pos feed, List.append_nil]
      · obtain ⟨first, rest, alone, after⟩ :=
          split_lines_older started (List.cons_ne_nil char []) chars
        refine ⟨started.reverse, first, rest, ?_, ?_⟩
        · simp only [lines, splitLines, if_neg feed, alone]
        · simp only [splitLines, if_neg feed]
          exact after

/-- No line ends at the end of the piece, so that its last line goes on with what follows. -/
def Solid (piece : List Char) : Prop :=
  ∃ last, piece.getLast? = some last ∧ last ≠ '\n' ∧ last ≠ '\r'

theorem Solid.ne_nil {piece : List Char} (solid : Solid piece) : piece ≠ [] := by
  intro empty
  obtain ⟨last, ends, _⟩ := solid
  rw [empty] at ends
  cases ends

theorem Solid.drop_return {line : List Char} (solid : Solid line) : dropReturn line = line := by
  obtain ⟨last, ends, _, other⟩ := solid
  apply drop_return_of_ne
  rw [ends]
  exact fun same => other (Option.some.inj same)

theorem split_lines_open {line : List Char} (solid : Solid line) (newer rest : List Char) :
    ∃ after more, splitLines (newer ++ line.reverse) rest = (line ++ after) :: more := by
  have nonempty : newer ++ line.reverse ≠ [] := by simp [solid.ne_nil]
  induction rest generalizing newer with
  | nil => exact ⟨newer.reverse, [], by simp [splitLines, solid.ne_nil]⟩
  | cons char rest ih =>
      by_cases feed : char = '\n'
      · simp only [splitLines, if_pos feed, List.reverse_append, List.reverse_reverse]
        cases newer with
        | nil => exact ⟨[], splitLines [] rest, by simp [solid.drop_return]⟩
        | cons char newer =>
            rw [drop_return_append _ (by simp)]
            exact ⟨_, _, rfl⟩
      · simp only [splitLines, if_neg feed]
        exact ih (char :: newer) (by simp)

/-- A piece whose end does not end a line has the same lines in every text, but for the end of the
last one. -/
theorem split_lines_solid {piece : List Char} (solid : Solid piece) (pending : List Char) :
    ∃ done last, Solid last ∧ last.getLast? = piece.getLast? ∧
      splitLines pending piece = done ++ [last] ∧
      ∀ rest, ∃ after more,
        splitLines pending (piece ++ rest) = done ++ (last ++ after) :: more := by
  induction piece generalizing pending with
  | nil => exact absurd rfl solid.ne_nil
  | cons char piece ih =>
      cases piece with
      | nil =>
          obtain ⟨last, ends, feed, other⟩ := solid
          have same : char = last := by simpa using ends
          subst same
          have whole : Solid (char :: pending).reverse := ⟨char, by simp, feed, other⟩
          refine ⟨[], (char :: pending).reverse, whole, by simp, ?_, fun rest => ?_⟩
          · simp [splitLines, feed]
          · have goesOn := split_lines_open whole [] rest
            simp only [List.nil_append, List.cons_append, List.reverse_reverse] at goesOn ⊢
            simpa [splitLines, feed] using goesOn
      | cons next piece =>
          have further : Solid (next :: piece) := by
            obtain ⟨last, ends, rest⟩ := solid
            exact ⟨last, by simpa using ends, rest⟩
          have ends : (next :: piece).getLast? = (char :: next :: piece).getLast? := by simp
          by_cases feed : char = '\n'
          · obtain ⟨done, last, whole, same, alone, inside⟩ := ih further []
            refine ⟨dropReturn pending.reverse :: done, last, whole, same.trans ends, ?_, ?_⟩
            · rw [splitLines, if_pos feed, alone]
              rfl
            · intro rest
              obtain ⟨after, more, split⟩ := inside rest
              exact ⟨after, more, by rw [List.cons_append, splitLines, if_pos feed, split]; rfl⟩
          · obtain ⟨done, last, whole, same, alone, inside⟩ := ih further (char :: pending)
            refine ⟨done, last, whole, same.trans ends, ?_, ?_⟩
            · rw [splitLines, if_neg feed, alone]
            · intro rest
              obtain ⟨after, more, split⟩ := inside rest
              exact ⟨after, more, by rw [List.cons_append, splitLines, if_neg feed, split]⟩

theorem lines_unbroken {line : List Char} (nonempty : line ≠ []) (unbroken : '\n' ∉ line) :
    lines line = [line] := by
  have whole (pending : List Char) (started : pending.reverse ++ line ≠ []) :
      splitLines pending line = [pending.reverse ++ line] := by
    clear nonempty
    induction line generalizing pending with
    | nil =>
        rw [List.append_nil, List.reverse_ne_nil_iff] at started
        simp [splitLines, started]
    | cons char line ih =>
        rw [List.mem_cons, not_or] at unbroken
        rw [splitLines, if_neg (Ne.symm unbroken.1), ih unbroken.2 _ (by simp)]
        simp
  exact whole [] nonempty

theorem mem_of_mem_split_lines {pending chars line : List Char}
    (member : line ∈ splitLines pending chars) {char : Char} (inside : char ∈ line) :
    char ∈ pending ∨ char ∈ chars ∧ char ≠ '\n' := by
  induction chars generalizing pending with
  | nil =>
      rw [splitLines] at member
      split at member
      · exact absurd member List.not_mem_nil
      · rw [List.mem_singleton] at member
        rw [member, List.mem_reverse] at inside
        exact Or.inl inside
  | cons first chars ih =>
      rw [splitLines] at member
      split at member
      · rcases List.mem_cons.1 member with same | later
        · have kept : line ⊆ pending.reverse := by
            rw [same, dropReturn]
            split
            · exact List.dropLast_subset _
            · exact List.Subset.refl _
          exact Or.inl (List.mem_reverse.1 (kept inside))
        · rcases ih later with absent | held
          · exact absurd absent List.not_mem_nil
          · exact Or.inr ⟨List.mem_cons_of_mem _ held.1, held.2⟩
      · rename_i other
        rcases ih member with before | held
        · rcases List.mem_cons.1 before with same | old
          · exact Or.inr ⟨same ▸ List.mem_cons_self, same ▸ other⟩
          · exact Or.inl old
        · exact Or.inr ⟨List.mem_cons_of_mem _ held.1, held.2⟩

theorem lines_between (first : List Char) (rest : List (List Char))
    (unbroken : ∀ line ∈ first :: rest, '\n' ∉ line)
    (noReturn : ∀ line ∈ first :: rest, line.getLast? ≠ some '\r')
    (ends : (first :: rest).getLast? ≠ some []) :
    lines (first ++ rest.flatMap fun line => '\n' :: line) = first :: rest := by
  induction rest generalizing first with
  | nil =>
      have nonempty : first ≠ [] := by simpa using ends
      simpa using lines_unbroken nonempty (unbroken first List.mem_cons_self)
  | cons line rest ih =>
      have further := ih line (fun other member => unbroken other (List.mem_cons_of_mem _ member))
        (fun other member => noReturn other (List.mem_cons_of_mem _ member)) (by simpa using ends)
      have split := split_lines_append [] first (line ++ rest.flatMap fun line => '\n' :: line)
        (unbroken first List.mem_cons_self)
      rw [List.reverse_nil, List.nil_append,
        drop_return_of_ne (noReturn first List.mem_cons_self)] at split
      rw [lines] at further
      rw [lines, List.flatMap_cons, List.cons_append, split, further]

theorem join_lines_append (lines more : List (List Char)) :
    joinLines (lines ++ more) = joinLines lines ++ joinLines more := List.flatMap_append

end Text

namespace Code

open Text (Solid lines splitLines joinLines)

/-- A piece of a text after the text is indented. -/
def reindent (level : Nat) (piece : List Char) : List Char :=
  match lines piece with
  | [] => []
  | first :: rest => first ++ rest.flatMap fun line => '\n' :: indentLine level line

theorem indent_line_append (level : Nat) {line : List Char} (nonempty : line ≠ [])
    (after : List Char) :
    indentLine level (line ++ after) = indentLine level line ++ after := by
  simp [indentLine, nonempty]

theorem suffix_indent_line (level : Nat) (front line : List Char) :
    line <:+ indentLine level (front ++ line) := by
  unfold indentLine
  split
  · rename_i empty
    rw [List.isEmpty_iff, List.append_eq_nil_iff] at empty
    rw [empty.2]
  · exact (List.suffix_append front line).trans (List.suffix_append _ _)

/-- Where a piece goes on to further lines, these are whole lines but for the last one. -/
theorem join_indented (level : Nat) (done : List (List Char)) {last : List Char}
    (nonempty : last ≠ []) (after : List Char) (more : List (List Char)) :
    '\n' :: joinLines ((done ++ (last ++ after) :: more).map (indentLine level)) =
      ((done ++ [last]).flatMap fun line => '\n' :: indentLine level line) ++
        (after ++ '\n' :: joinLines (more.map (indentLine level))) := by
  induction done with
  | nil => simp [joinLines, indent_line_append level nonempty]
  | cons line done ih =>
      simp only [List.cons_append, List.map_cons, List.flatMap_cons, joinLines] at ih ⊢
      simp only [List.append_assoc, List.cons_append, List.nil_append, ih]

theorem reindent_infix_lines (level : Nat) {piece : List Char} (solid : Solid piece)
    (started rest : List Char) :
    reindent level piece <:+:
      joinLines ((splitLines started (piece ++ rest)).map (indentLine level)) := by
  obtain ⟨done, last, whole, _, alone, inside⟩ := Text.split_lines_solid solid []
  obtain ⟨after, more, within⟩ := inside rest
  have nonempty : piece ++ rest ≠ [] := by simp [solid.ne_nil]
  obtain ⟨front, first, later, here, split⟩ := Text.split_lines_started started nonempty
  rw [lines, within] at here
  rw [reindent, lines, alone, split]
  cases done with
  | nil =>
      obtain ⟨rfl, rfl⟩ := List.cons.inj here
      have inLine : last <:+: indentLine level (front ++ (last ++ after)) :=
        (List.prefix_append last after).isInfix.trans (suffix_indent_line level front _).isInfix
      simp only [List.nil_append, List.flatMap_nil, List.append_nil, List.map_cons, joinLines,
        List.flatMap_cons, List.append_assoc]
      exact inLine.trans (List.prefix_append _ _).isInfix
  | cons line done =>
      rw [List.cons_append] at here
      obtain ⟨rfl, rfl⟩ := List.cons.inj here
      obtain ⟨before, ends⟩ := suffix_indent_line level front line
      refine ⟨before, after ++ '\n' :: joinLines (more.map (indentLine level)), ?_⟩
      have further := join_indented level done whole.ne_nil after more
      simp only [List.cons_append, List.map_cons, joinLines, List.flatMap_cons, ← ends,
        List.append_assoc, List.nil_append] at further ⊢
      rw [further]

/-- A piece of a text is found in the indented text with its further lines moved in. -/
theorem reindent_infix {piece : List Char} (solid : Solid piece) {text : String}
    (within : piece <:+: text.toList) (level : Nat) :
    reindent level piece <:+: (indentLines level text).toList := by
  obtain ⟨before, rest, whole⟩ := within
  obtain ⟨done, started, split⟩ := Text.split_lines_before [] before
  rw [indentLines, String.toList_ofList, ← whole, List.append_assoc, lines, split, List.map_append,
    Text.join_lines_append]
  exact (reindent_infix_lines level solid started rest).trans (List.suffix_append _ _).isInfix

theorem reindent_unbroken {piece : List Char} (nonempty : piece ≠ []) (unbroken : '\n' ∉ piece)
    (level : Nat) : reindent level piece = piece := by
  rw [reindent, Text.lines_unbroken nonempty unbroken]
  simp

theorem solid_reindent {piece : List Char} (solid : Solid piece) (level : Nat) :
    Solid (reindent level piece) := by
  obtain ⟨done, last, whole, _, alone, _⟩ := Text.split_lines_solid solid []
  have ends : last <:+ reindent level piece := by
    rw [reindent, lines, alone]
    cases done with
    | nil => simp
    | cons line done =>
        have moved := suffix_indent_line level [] last
        simp only [List.cons_append, List.flatMap_append, List.flatMap_cons, List.flatMap_nil,
          List.append_nil, ← List.append_assoc]
        exact moved.trans ((List.suffix_cons _ _).trans (List.suffix_append _ _))
  obtain ⟨front, same⟩ := ends
  rw [← same, Solid, List.getLast?_append_of_ne_nil front whole.ne_nil]
  exact whole

theorem blank_of_indentation {level : Nat} {char : Char} (member : char ∈ indentation level) :
    Text.isBlank char = true := by
  rw [List.eq_of_mem_replicate member]
  decide

theorem indent_line_twice (inner outer : Nat) (line : List Char) :
    indentLine outer (indentLine inner line) = indentLine (inner + outer) line := by
  unfold indentLine
  split
  · rfl
  · rename_i nonempty
    rw [if_neg (by simpa using fun _ => nonempty), ← List.append_assoc, indentation, indentation,
      indentation, List.replicate_append_replicate]
    congr 2
    omega

theorem mem_indent_line {level : Nat} {line : List Char} {char : Char}
    (member : char ∈ indentLine level line) : char = ' ' ∨ char ∈ line := by
  unfold indentLine at member
  split at member
  · exact absurd member List.not_mem_nil
  · exact (List.mem_append.1 member).imp List.eq_of_mem_replicate id

theorem indent_line_zero (line : List Char) : indentLine 0 line = line := by
  unfold indentLine
  split
  · rename_i empty
    exact (List.isEmpty_iff.1 empty).symm
  · rfl

theorem indent_line_ne_nil (level : Nat) {line : List Char} (nonempty : line ≠ []) :
    indentLine level line ≠ [] := by
  intro empty
  have kept := suffix_indent_line level [] line
  rw [List.nil_append, empty] at kept
  exact nonempty (List.suffix_nil.1 kept)

theorem lines_reindent {piece : List Char} (solid : Solid piece) (noReturn : '\r' ∉ piece)
    {first : List Char} {rest : List (List Char)} (here : lines piece = first :: rest)
    (level : Nat) : lines (reindent level piece) = first :: rest.map (indentLine level) := by
  have whole : reindent level piece =
      first ++ (rest.map (indentLine level)).flatMap fun line => '\n' :: line := by
    rw [reindent, here, List.flatMap_map]
  have own {line : List Char} (member : line ∈ first :: rest.map (indentLine level)) :
      ∃ level, ∃ old ∈ lines piece, line = indentLine level old := by
    rw [here]
    rcases List.mem_cons.1 member with rfl | later
    · exact ⟨0, line, List.mem_cons_self, (indent_line_zero line).symm⟩
    · obtain ⟨old, inside, rfl⟩ := List.mem_map.1 later
      exact ⟨level, old, List.mem_cons_of_mem _ inside, rfl⟩
  have clean {line : List Char} (member : line ∈ first :: rest.map (indentLine level))
      {char : Char} (inside : char ∈ line) : char ≠ '\n' ∧ char ≠ '\r' := by
    obtain ⟨_, old, listed, rfl⟩ := own member
    rcases mem_indent_line inside with rfl | held
    · exact ⟨by decide, by decide⟩
    · rcases Text.mem_of_mem_split_lines listed held with absent | ⟨known, feed⟩
      · exact absurd absent List.not_mem_nil
      · exact ⟨feed, fun same => noReturn (same ▸ known)⟩
  rw [whole]
  apply Text.lines_between
  · intro line member feed
    exact (clean member feed).1 rfl
  · intro line member ends
    exact (clean member (List.mem_of_getLast? ends)).2 rfl
  · obtain ⟨done, last, ends, _, alone, _⟩ := Text.split_lines_solid solid []
    have final : (first :: rest).getLast? = some last := by
      rw [← here, lines, alone, List.getLast?_concat]
    rcases List.eq_nil_or_concat rest with rfl | ⟨front, line, rfl⟩
    · have same : first = last := by simpa using final
      simpa [same] using ends.ne_nil
    · have same : line = last := by
        rw [List.getLast?_cons] at final
        simpa using final
      rw [List.getLast?_cons]
      simpa [same] using indent_line_ne_nil level ends.ne_nil

/-- Two levels add up. Where carriage returns stand before a line feed each level costs one more, so
these are left out. -/
theorem reindent_reindent {piece : List Char} (solid : Solid piece) (noReturn : '\r' ∉ piece)
    (inner outer : Nat) :
    reindent outer (reindent inner piece) = reindent (inner + outer) piece := by
  cases here : lines piece with
  | nil =>
      obtain ⟨done, last, _, _, alone, _⟩ := Text.split_lines_solid solid []
      rw [lines, alone] at here
      simp at here
  | cons first rest =>
      rw [reindent, lines_reindent solid noReturn here, reindent, here]
      simp only [List.flatMap_map, indent_line_twice]

end Code

end PageBuilder
