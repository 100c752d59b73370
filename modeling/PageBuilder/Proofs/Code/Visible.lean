import PageBuilder.Proofs.Code.Literals

/-!
What can be seen of a text: its characters but for the blanks. The layout moves lines and trims
them, and keeps all that can be seen in its order.
-/

namespace PageBuilder.Code

def visible (chars : List Char) : List Char := chars.filter fun char => !Text.isBlank char

@[simp]
theorem visible_append (front back : List Char) :
    visible (front ++ back) = visible front ++ visible back := List.filter_append ..

theorem visible_blanks {chars : List Char} (blank : ∀ char ∈ chars, Text.isBlank char = true) :
    visible chars = [] := by
  refine List.filter_eq_nil_iff.2 fun char member => ?_
  rw [blank char member]
  decide

theorem visible_trim (line : List Char) : visible (Text.trim line) = visible line := by
  obtain ⟨front, back, before, behind, split⟩ := trim_split line
  have whole := congrArg visible split
  rw [visible_append, visible_append, visible_blanks before, visible_blanks behind,
    List.nil_append, List.append_nil] at whole
  exact whole.symm

theorem visible_drop_return (line : List Char) : visible (Text.dropReturn line) = visible line := by
  rw [Text.dropReturn]
  split
  · rename_i returned
    have whole := congrArg visible (List.dropLast_append_getLast? _ returned)
    rw [visible_append, visible_blanks (List.forall_mem_singleton.2 (by decide)),
      List.append_nil] at whole
    exact whole
  · rfl

theorem visible_split_lines (pending chars : List Char) :
    (Text.splitLines pending chars).flatMap visible = visible (pending.reverse ++ chars) := by
  induction chars generalizing pending with
  | nil =>
      rw [Text.splitLines, List.append_nil]
      split
      · rename_i empty
        rw [List.isEmpty_iff.1 empty]
        rfl
      · exact List.flatMap_singleton ..
  | cons char rest ih =>
      rw [Text.splitLines]
      split
      · rename_i feed
        have blank : visible ['\n'] = [] := by decide
        rw [List.flatMap_cons, ih, visible_drop_return, feed, List.reverse_nil, List.nil_append,
          List.append_cons, visible_append, visible_append, blank, List.append_nil]
      · rw [ih, List.reverse_cons, ← List.append_cons]

theorem visible_join_lines (lines : List (List Char)) :
    visible (Text.joinLines lines) = lines.flatMap visible := by
  have blank : visible ['\n'] = [] := by decide
  induction lines with
  | nil => rfl
  | cons line rest ih =>
      rw [Text.joinLines, List.flatMap_cons, ← Text.joinLines, visible_append, visible_append,
        blank, List.append_nil, ih, List.flatMap_cons]

namespace Layout

theorem visible_line {state next : State} {number : Nat} {raw out : List Char}
    (done : layoutLine state number raw = .ok (out, next)) : visible out = visible raw := by
  rcases layout_line_cases done with inside | code
  · exact congrArg visible inside.2.1
  · obtain ⟨_, ⟨level, rfl⟩, _⟩ := code
    have blank : visible (indentation level) = [] :=
      visible_blanks fun char member => by
        rw [List.eq_of_mem_replicate member]
        decide
    rw [visible_append, blank, List.nil_append, visible_trim]

theorem visible_lines {state : State} {number : Nat} {lines outs : List (List Char)}
    (done : layoutLines state number lines = .ok outs) :
    outs.flatMap visible = lines.flatMap visible := by
  induction lines generalizing state number outs with
  | nil =>
      rw [layoutLines] at done
      split at done
      · cases done
        rfl
      · cases done
  | cons raw rest ih =>
      obtain ⟨out, next, more, first, later, rfl⟩ := layout_lines_cons done
      rw [List.flatMap_cons, List.flatMap_cons, visible_line first, ih later]

end Layout

/-- The layout moves blanks only. -/
theorem layout_keeps_visible {text out : String} (done : layout text = .ok out) :
    visible out.toList = visible text.toList := by
  rw [layout] at done
  obtain ⟨lines, laid, same⟩ := Outcome.bind_eq_ok.1 done
  cases same
  rw [String.toList_ofList, visible_join_lines, Layout.visible_lines laid, Text.lines,
    visible_split_lines, List.reverse_nil, List.nil_append]

end PageBuilder.Code
