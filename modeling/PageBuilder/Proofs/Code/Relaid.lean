import PageBuilder.Proofs.Code.Laid
import PageBuilder.Proofs.Code.Literals

/-!
Code that is laid out a second time. A line that was laid out is the old one up to its indentation,
so the levels, tags and backticks of a text that is read again are those of the first time.
-/

namespace PageBuilder

namespace Text

theorem trim_eq (line : List Char) :
    trim line = (line.dropWhile isBlank).rdropWhile isBlank := rfl

theorem trim_start_trim (line : List Char) : trimStart (trim line) = trim line := by
  rw [trim_eq, trimStart, List.dropWhile_eq_self_iff]
  intro nonempty
  have front := List.rdropWhile_prefix isBlank (line.dropWhile isBlank)
  rw [front.getElem nonempty]
  exact List.dropWhile_get_zero_not isBlank line _

theorem trim_trim (line : List Char) : trim (trim line) = trim line := by
  rw [trim_eq (trim line), ← trimStart, trim_start_trim, trim_eq, List.rdropWhile_idempotent]

theorem mem_of_mem_trim {line : List Char} {char : Char} (member : char ∈ trim line) :
    char ∈ line := by
  have front := List.rdropWhile_prefix isBlank (line.dropWhile isBlank)
  exact (List.dropWhile_sublist isBlank).subset (front.subset member)

end Text

namespace Code.Layout

variable {state next : State} {number : Nat}

theorem layout_line_congr (code : state.mode = .code) {line other : List Char}
    (same : Text.trim line = Text.trim other) (number : Nat) :
    layoutLine state number line = layoutLine state number other := by
  have outside : ¬state.inTemplate = true := by
    intro inside
    rw [State.mode, if_pos inside] at code
    cases code
  rw [layoutLine, layoutLine, if_neg outside, if_neg outside, same]

theorem layout_line_again {line out : List Char}
    (done : layoutLine state number line = .ok (out, next)) :
    layoutLine state number out = .ok (out, next) := by
  rcases layout_line_cases done with ⟨_, rfl, _⟩ | ⟨code, ⟨level, rfl⟩, _⟩
  · exact done
  · rw [layout_line_congr code _ number, done]
    rw [trim_indented, Text.trim_trim]

/-- Each line is laid out in the state that it was laid out in before. -/
theorem layout_lines_again {lines outs : List (List Char)}
    (done : layoutLines state number lines = .ok outs) :
    layoutLines state number outs = .ok outs := by
  induction lines generalizing state number outs with
  | nil =>
      cases layout_lines_nil done
      exact done
  | cons line rest ih =>
      obtain ⟨out, next, more, first, later, rfl⟩ := layout_lines_cons done
      rw [layoutLines, layout_line_again first]
      simp only [bind, Except.bind, ih later]

theorem mem_of_laid_out {lines outs : List (List Char)}
    (done : layoutLines state number lines = .ok outs) {out : List Char} (member : out ∈ outs)
    {char : Char} (inside : char ∈ out) : char = ' ' ∨ ∃ line ∈ lines, char ∈ line := by
  induction lines generalizing state number outs with
  | nil =>
      rw [layout_lines_nil done] at member
      cases member
  | cons line rest ih =>
      obtain ⟨first, next, more, laid, later, rfl⟩ := layout_lines_cons done
      rcases List.mem_cons.1 member with rfl | behind
      · rcases layout_line_cases laid with ⟨_, rfl, _⟩ | ⟨_, ⟨level, rfl⟩, _⟩
        · exact Or.inr ⟨out, List.mem_cons_self, inside⟩
        · rcases List.mem_append.1 inside with blank | kept
          · exact Or.inl (List.eq_of_mem_replicate blank)
          · exact Or.inr ⟨line, List.mem_cons_self, Text.mem_of_mem_trim kept⟩
      · rcases ih later behind with space | ⟨other, listed, held⟩
        · exact Or.inl space
        · exact Or.inr ⟨other, List.mem_cons_of_mem _ listed, held⟩

end Code.Layout

namespace Code

open Layout

/-- What was laid out from a text without carriage returns stays as it is. A line that starts
between backticks could end in one, which the second reading takes for a part of the line end. -/
theorem layout_again {text out : String} (noReturn : '\r' ∉ text.toList)
    (done : layout text = .ok out) : layout out = .ok out := by
  rw [layout] at done
  obtain ⟨outs, laid, same⟩ := Outcome.bind_eq_ok.1 done
  cases same
  have plain (line : List Char) (member : line ∈ outs) (char : Char) (inside : char ∈ line) :
      char ≠ '\n' ∧ char ≠ '\r' := by
    rcases mem_of_laid_out laid member inside with rfl | ⟨raw, listed, held⟩
    · exact ⟨by decide, by decide⟩
    · rcases Text.mem_of_mem_split_lines listed held with nothing | ⟨old, notFeed⟩
      · cases nothing
      · exact ⟨notFeed, fun same => noReturn (same ▸ old)⟩
  have again : Text.lines (Text.joinLines outs) = outs := by
    apply Text.lines_join_lines
    · exact fun line member feed => (plain line member _ feed).1 rfl
    · exact fun line member last => (plain line member _ (List.mem_of_getLast? last)).2 rfl
  rw [layout, String.toList_ofList, again, layout_lines_again laid]
  rfl

/-- Groups of brackets, a tag over several lines, and a text between backticks in which nothing is
opened or closed. -/
def sampleCode : String :=
  "f([\x7b\na: `x \n  (y`\x7d]);\n<Card\nb=\x7b[\n1]\x7d\n>\n \n</Card>"

theorem layout_again_sample :
    '\r' ∉ sampleCode.toList ∧
      layout sampleCode = .ok
        "f([\x7b\n  a: `x\n  (y`\x7d]);\n<Card\n  b=\x7b[\n  1]\x7d\n>\n\n</Card>\n" ∧
      layout "f([\x7b\n  a: `x\n  (y`\x7d]);\n<Card\n  b=\x7b[\n  1]\x7d\n>\n\n</Card>\n" = .ok
        "f([\x7b\n  a: `x\n  (y`\x7d]);\n<Card\n  b=\x7b[\n  1]\x7d\n>\n\n</Card>\n" := by
  have plain : '\r' ∉ sampleCode.toList := by decide +kernel
  have done : layout sampleCode = .ok
      "f([\x7b\n  a: `x\n  (y`\x7d]);\n<Card\n  b=\x7b[\n  1]\x7d\n>\n\n</Card>\n" := by
    decide +kernel
  exact ⟨plain, done, layout_again plain done⟩

end Code

end PageBuilder
