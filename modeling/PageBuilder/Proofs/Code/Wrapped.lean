import PageBuilder.Json.Printer
import PageBuilder.Proofs.Code.Indent
import Mathlib.Data.List.DropRight
import Mathlib.Data.Multiset.AddSub

/-!
Code with and without wrappers. A wrapper is a pair of tags on lines of their own, with the lines of
what it wraps between them, one level further in. Lines that are indented once more may lose a
carriage return at their end, so lines agree up to these.
-/

namespace PageBuilder

namespace Text

/-- A line without the carriage returns at its end. -/
def bare (line : List Char) : List Char := line.rdropWhile (· = '\r')

theorem bare_drop_return (line : List Char) : bare (dropReturn line) = bare line := by
  unfold dropReturn
  split
  · rename_i ends
    obtain ⟨front, rfl⟩ := List.getLast?_eq_some_iff.1 ends
    rw [List.dropLast_concat, bare, bare, List.rdropWhile_concat_pos _ _ _ (by simp)]
  · rfl

theorem bare_append {front : List Char} (clean : bare front = front) (line : List Char) :
    bare (front ++ line) = front ++ bare line := by
  induction line using List.reverseRecOn with
  | nil => rw [List.append_nil, clean, bare, List.rdropWhile_nil, List.append_nil]
  | append_singleton line char ih =>
      rw [← List.append_assoc]
      by_cases last : char = '\r'
      · rw [bare, bare, List.rdropWhile_concat_pos _ _ _ (by simpa using last),
          List.rdropWhile_concat_pos _ _ _ (by simpa using last)]
        exact ih
      · rw [bare, bare, List.rdropWhile_concat_neg _ _ _ (by simpa using last),
          List.rdropWhile_concat_neg _ _ _ (by simpa using last), List.append_assoc]

/-- A text whose lines stay apart from those of what follows. -/
def Whole (text : String) : Prop :=
  ∀ rest, lines (text.toList ++ rest) = lines text.toList ++ lines rest

theorem whole_line (text : String) : Whole (text ++ "\n") := by
  intro rest
  obtain ⟨done, started, split⟩ := split_lines_before [] text.toList
  have after (rest : List Char) : lines ((text ++ "\n").toList ++ rest) =
      done ++ dropReturn started.reverse :: lines rest := by
    rw [String.toList_append, List.append_assoc, lines, split]
    rfl
  have alone := after []
  rw [List.append_nil] at alone
  rw [after, alone, lines, List.append_assoc]
  rfl

theorem Whole.append {text more : String} (first : Whole text) (second : Whole more) :
    Whole (text ++ more) := by
  intro rest
  rw [String.toList_append, List.append_assoc, first, second, first, List.append_assoc]

theorem Whole.join {texts : List String} (whole : ∀ text ∈ texts, Whole text) :
    Whole (String.join texts) := by
  induction texts with
  | nil => exact fun rest => rfl
  | cons text texts ih =>
      rw [String.join_cons]
      exact (whole text List.mem_cons_self).append
        (ih fun other member => whole other (List.mem_cons_of_mem _ member))

theorem Solid.behind {back : List Char} (solid : Solid back) (front : List Char) :
    Solid (front ++ back) := by
  have nonempty := solid.ne_nil
  obtain ⟨last, ends, rest⟩ := solid
  exact ⟨last, by rw [List.getLast?_append_of_ne_nil _ nonempty, ends], rest⟩

theorem solid_closed (text : String) : Solid (text ++ ">").toList := by
  rw [String.toList_append]
  exact Solid.behind ⟨'>', rfl, by decide, by decide⟩ _

theorem split_lines_feed {piece : List Char} (solid : Solid piece) (pending : List Char) :
    splitLines pending (piece ++ ['\n']) = splitLines pending piece := by
  induction piece generalizing pending with
  | nil => exact absurd rfl solid.ne_nil
  | cons char piece ih =>
      obtain ⟨last, ends, feed, other⟩ := solid
      -- Only the last character matters: it is neither a line feed nor a carriage return.
      cases piece with
      | nil =>
          have same : char = last := by simpa using ends
          subst same
          have whole : Solid (char :: pending).reverse := ⟨char, by simp, feed, other⟩
          have kept := whole.drop_return
          simp only [List.cons_append, List.nil_append, splitLines, if_neg feed, kept]
          rfl
      | cons next piece =>
          have further : Solid (next :: piece) := ⟨last, by simpa using ends, feed, other⟩
          rw [List.cons_append, splitLines, splitLines, ih further, ih further]

theorem lines_line {text : String} (solid : Solid text.toList) :
    lines (text ++ "\n").toList = lines text.toList := by
  rw [String.toList_append]
  exact split_lines_feed solid []

end Text

namespace Code

open Text (Solid Whole bare lines dropReturn)

/-- What a line becomes that is indented and read again. -/
def settled (level : Nat) (line : List Char) : List Char := dropReturn (indentLine level line)

theorem bare_indentation (level : Nat) (line : List Char) :
    bare (indentation level ++ line) = indentation level ++ bare line := by
  apply Text.bare_append
  apply List.rdropWhile_eq_self_iff.2
  intro nonempty last
  have blank := List.eq_of_mem_replicate (List.getLast_mem nonempty)
  rw [blank] at last
  exact absurd last (by decide)

theorem settled_of_ne_nil {level : Nat} {line : List Char} (nonempty : line ≠ []) :
    settled level line = indentation level ++ dropReturn line := by
  rw [settled, indentLine, if_neg (by simpa using nonempty), Text.drop_return_append _ nonempty]

theorem lines_indented (level : Nat) (text : String) (rest : List Char) :
    lines ((indentLines level text).toList ++ rest) =
      (lines text.toList).map (settled level) ++ lines rest := by
  have unbroken : ∀ line ∈ lines text.toList, '\n' ∉ indentLine level line := by
    intro line member feed
    rcases mem_indent_line feed with blank | inside
    · exact absurd blank (by decide)
    · rcases Text.mem_of_mem_split_lines member inside with absent | held
      · exact absurd absent List.not_mem_nil
      · exact held.2 rfl
  rw [indentLines, String.toList_ofList]
  generalize lines text.toList = texts at unbroken
  induction texts with
  | nil => rfl
  | cons line texts ih =>
      have first := Text.split_lines_append [] (indentLine level line)
        (Text.joinLines (texts.map (indentLine level)) ++ rest) (unbroken line List.mem_cons_self)
      have later := ih fun other member => unbroken other (List.mem_cons_of_mem _ member)
      rw [List.map_cons, Text.joinLines, List.flatMap_cons, List.append_assoc, List.append_assoc,
        List.singleton_append, ← Text.joinLines, lines, first, ← lines, later, List.map_cons]
      rfl

/-- A line of wrapped code is the line of the plain code further in. -/
structure SameLine (depth : Nat) (wrapped plain : List Char) : Prop where
  empty : wrapped = [] ↔ plain = []
  same : bare wrapped = bare (indentLine depth plain)

namespace SameLine

variable {depth : Nat} {wrapped plain : List Char}

theorem refl (line : List Char) : SameLine 0 line line :=
  ⟨Iff.rfl, by rw [indent_line_zero]⟩

theorem of_ne_nil (nonempty : wrapped ≠ []) (other : plain ≠ [])
    (same : bare wrapped = indentation depth ++ bare plain) : SameLine depth wrapped plain := by
  refine ⟨⟨fun empty => absurd empty nonempty, fun empty => absurd empty other⟩, ?_⟩
  rw [same, indentLine, if_neg (by simpa using other), bare_indentation]

theorem bare_eq (same : SameLine depth wrapped plain) (nonempty : plain ≠ []) :
    bare wrapped = indentation depth ++ bare plain := by
  rw [same.same, indentLine, if_neg (by simpa using nonempty), bare_indentation]

theorem indentation_ne_nil {level : Nat} (positive : 1 ≤ level) (line : List Char) :
    indentation level ++ line ≠ [] := by
  intro empty
  have size := congrArg List.length (List.append_eq_nil_iff.1 empty).1
  rw [indentation, List.length_replicate, List.length_nil] at size
  omega

theorem indentation_add (inner outer : Nat) :
    indentation outer ++ indentation inner = indentation (inner + outer) := by
  rw [indentation, indentation, indentation, List.replicate_append_replicate]
  congr 1
  omega

theorem settle (same : SameLine depth wrapped plain) {level : Nat} (positive : 1 ≤ level) :
    SameLine depth (settled level wrapped) (settled level plain) := by
  -- Empty lines are not indented, so that they agree whatever the levels are.
  by_cases plainEmpty : plain = []
  · rw [plainEmpty, same.empty.2 plainEmpty]
    exact ⟨Iff.rfl, rfl⟩
  · have nonempty : wrapped ≠ [] := fun empty => plainEmpty (same.empty.1 empty)
    rw [settled_of_ne_nil nonempty, settled_of_ne_nil plainEmpty]
    apply of_ne_nil (indentation_ne_nil positive _) (indentation_ne_nil positive _)
    calc
      bare (indentation level ++ dropReturn wrapped)
          = indentation level ++ (indentation depth ++ bare plain) := by
        rw [bare_indentation, Text.bare_drop_return, same.bare_eq plainEmpty]
      _ = indentation depth ++ (indentation level ++ bare plain) := by
        rw [← List.append_assoc, ← List.append_assoc, indentation_add, indentation_add,
          Nat.add_comm]
      _ = indentation depth ++ bare (indentation level ++ dropReturn plain) := by
        rw [bare_indentation, Text.bare_drop_return]

theorem wrap (same : SameLine depth wrapped plain) :
    SameLine (depth + 1) (settled 1 wrapped) plain := by
  by_cases plainEmpty : plain = []
  · rw [plainEmpty, same.empty.2 plainEmpty]
    exact ⟨Iff.rfl, rfl⟩
  · have nonempty : wrapped ≠ [] := fun empty => plainEmpty (same.empty.1 empty)
    rw [settled_of_ne_nil nonempty]
    apply of_ne_nil (indentation_ne_nil (Nat.le_refl 1) _) plainEmpty
    rw [bare_indentation, Text.bare_drop_return, same.bare_eq plainEmpty, ← List.append_assoc,
      indentation_add]

end SameLine

def openingTag (marker : String) (node : String) : String :=
  s!"<{marker} nodeId={Json.stringText node}>"

def closingTag (marker : String) : String := s!"</{marker}>"

def Visible (chars : List Char) : Prop := ∀ char ∈ chars, 0x20 ≤ char.toNat

instance (chars : List Char) : Decidable (Visible chars) := List.decidableBAll _ chars

theorem Visible.append {front back : List Char} (first : Visible front) (second : Visible back) :
    Visible (front ++ back) := List.forall_mem_append.2 ⟨first, second⟩

theorem Visible.lacks {chars : List Char} (visible : Visible chars) {mark : Char}
    (control : mark.toNat < 0x20) : mark ∉ chars := by
  intro member
  have shown := visible mark member
  omega

theorem escaped_visible (char : Char) : Visible (JsonTree.escapedChar char) := by
  have hex : ∀ value < 16, 0x20 ≤ (Text.hexDigit value).toNat := by decide
  have named {letter : Char} (shown : 0x20 ≤ letter.toNat) : Visible ['\\', letter] := by
    simpa [Visible] using shown
  unfold JsonTree.escapedChar
  split_ifs with quote slash back page feed carriage tab control
  · exact named (by decide)
  · exact named (by decide)
  · exact named (by decide)
  · exact named (by decide)
  · exact named (by decide)
  · exact named (by decide)
  · exact named (by decide)
  · have high := hex (char.toNat / 16) (by omega)
    have low := hex (char.toNat % 16) (by omega)
    simp [Visible, high, low]
  · intro shown member
    rw [List.mem_singleton.1 member]
    omega

theorem string_text_visible (text : String) : Visible (Json.stringText text).toList := by
  have quote : Visible ['"'] := by decide
  have held : Visible (text.toList.flatMap JsonTree.escapedChar) := by
    intro shown member
    obtain ⟨char, _, inside⟩ := List.mem_flatMap.1 member
    exact escaped_visible char shown inside
  rw [Json.stringText, String.toList_ofList]
  exact (quote.append held).append quote

theorem string_text_unbroken (text : String) : '\n' ∉ (Json.stringText text).toList :=
  (string_text_visible text).lacks (by decide)

theorem opening_unbroken {marker : String} (unbroken : '\n' ∉ marker.toList) (node : String) :
    '\n' ∉ (openingTag marker node).toList := by
  have quoted := string_text_unbroken node
  simp [openingTag, ToString.toString, unbroken, quoted]

theorem closing_unbroken {marker : String} (unbroken : '\n' ∉ marker.toList) :
    '\n' ∉ (closingTag marker).toList := by
  simp [closingTag, ToString.toString, unbroken]

/-- Lines of code in which nodes are wrapped, and the lines without the wrappers: each line of code
is there in both, and `nodes` are those that the wrappers name. -/
inductive Wrapped (marker : String) :
    Nat → Multiset String → List (List Char) → List (List Char) → Prop
  | nil {depth : Nat} : Wrapped marker depth 0 [] []
  | line {depth : Nat} {nodes : Multiset String} {first second : List Char}
      {wrapped plain : List (List Char)} (same : SameLine depth first second)
      (rest : Wrapped marker depth nodes wrapped plain) :
      Wrapped marker depth nodes (first :: wrapped) (second :: plain)
  | wrapper {depth : Nat} (level : Nat) (node : String) {inner nodes : Multiset String}
      {inside plain after more : List (List Char)}
      (within : Wrapped marker (depth + 1) inner inside plain)
      (rest : Wrapped marker depth nodes after more) :
      Wrapped marker depth (node ::ₘ (inner + nodes))
        (indentLine level (openingTag marker node).toList :: inside
          ++ indentLine level (closingTag marker).toList :: after)
        (plain ++ more)

namespace Wrapped

variable {marker : String} {depth : Nat} {nodes others : Multiset String}
  {wrapped plain after more : List (List Char)}

theorem refl (texts : List (List Char)) : Wrapped marker 0 0 texts texts := by
  induction texts with
  | nil => exact .nil
  | cons line texts ih => exact .line (.refl line) ih

theorem append (first : Wrapped marker depth nodes wrapped plain)
    (second : Wrapped marker depth others after more) :
    Wrapped marker depth (nodes + others) (wrapped ++ after) (plain ++ more) := by
  induction first with
  | nil =>
      rw [Multiset.zero_add]
      exact second
  | line same _ ih => exact .line same (ih second)
  | wrapper level node within _ _ ih =>
      have whole := Wrapped.wrapper level node within (ih second)
      simpa only [List.cons_append, List.append_assoc, Multiset.cons_add, Multiset.add_assoc]
        using whole

theorem settled_tag {tag : List Char} (solid : Solid tag) (level outer : Nat) :
    settled outer (indentLine level tag) = indentLine (level + outer) tag := by
  have nonempty := solid.ne_nil
  obtain ⟨last, ends, _, other⟩ := solid
  rw [settled, indent_line_twice, indentLine, if_neg (by simpa using nonempty)]
  apply Text.drop_return_of_ne
  rw [List.getLast?_append_of_ne_nil _ nonempty, ends]
  exact fun same => other (Option.some.inj same)

theorem solid_opening (marker node : String) : Solid (openingTag marker node).toList :=
  Text.solid_closed _

theorem solid_closing (marker : String) : Solid (closingTag marker).toList :=
  Text.solid_closed _

theorem settle (wraps : Wrapped marker depth nodes wrapped plain) {level : Nat}
    (positive : 1 ≤ level) :
    Wrapped marker depth nodes (wrapped.map (settled level)) (plain.map (settled level)) := by
  induction wraps with
  | nil => exact .nil
  | line same _ ih => exact .line (same.settle positive) ih
  | wrapper inner node _ _ within rest =>
      have whole := Wrapped.wrapper (inner + level) node within rest
      simpa only [List.map_cons, List.map_append, settled_tag (solid_opening marker node),
        settled_tag (solid_closing marker)] using whole

theorem inside (wraps : Wrapped marker depth nodes wrapped plain) :
    Wrapped marker (depth + 1) nodes (wrapped.map (settled 1)) plain := by
  induction wraps with
  | nil => exact .nil
  | line same _ ih => exact .line same.wrap ih
  | wrapper inner node _ _ within rest =>
      have whole := Wrapped.wrapper (inner + 1) node within rest
      simpa only [List.map_cons, List.map_append, settled_tag (solid_opening marker node),
        settled_tag (solid_closing marker)] using whole

end Wrapped

def Wraps (marker : String) (nodes : Multiset String) (wrapped plain : String) : Prop :=
  Wrapped marker 0 nodes (lines wrapped.toList) (lines plain.toList)

namespace Wraps

variable {marker : String} {nodes others : Multiset String} {wrapped plain after more : String}

theorem refl (text : String) : Wraps marker 0 text text := Wrapped.refl _

theorem behind {text : String} (whole : Whole text) (wraps : Wraps marker nodes wrapped plain) :
    Wraps marker nodes (text ++ wrapped) (text ++ plain) := by
  rw [Wraps, String.toList_append, String.toList_append, whole, whole]
  have all := (Wrapped.refl (lines text.toList)).append wraps
  rwa [Multiset.zero_add] at all

theorem indented (wraps : Wraps marker nodes wrapped plain) {level : Nat} (positive : 1 ≤ level)
    (rest : Wraps marker others after more) :
    Wraps marker (nodes + others) (indentLines level wrapped ++ after)
      (indentLines level plain ++ more) := by
  rw [Wraps, String.toList_append, String.toList_append, lines_indented, lines_indented]
  exact (Wrapped.settle wraps positive).append rest

theorem followed (wraps : Wraps marker nodes wrapped plain) (solid : Solid wrapped.toList)
    (other : Solid plain.toList) (rest : Wraps marker others after more) :
    Wraps marker (nodes + others) (wrapped ++ "\n" ++ after) (plain ++ "\n" ++ more) := by
  rw [Wraps, String.toList_append, Text.whole_line, Text.lines_line solid, String.toList_append,
    Text.whole_line, Text.lines_line other]
  exact Wrapped.append wraps rest

/-- The text of a node in the wrapper of that node. -/
theorem wrapper (wraps : Wraps marker nodes wrapped plain) (unbroken : '\n' ∉ marker.toList)
    (node : String) :
    Wraps marker (node ::ₘ nodes)
      (openingTag marker node ++ "\n" ++ (indentLines 1 wrapped ++ closingTag marker)) plain := by
  have opening := Text.lines_unbroken (Wrapped.solid_opening marker node).ne_nil
    (opening_unbroken unbroken node)
  have closing := Text.lines_unbroken (Wrapped.solid_closing marker).ne_nil
    (closing_unbroken unbroken)
  rw [Wraps, String.toList_append, Text.whole_line,
    Text.lines_line (Wrapped.solid_opening marker node), String.toList_append, lines_indented,
    opening, closing]
  have whole := Wrapped.wrapper 0 node (Wrapped.inside wraps) .nil
  rw [indent_line_zero, indent_line_zero, Multiset.add_zero, List.append_nil] at whole
  exact whole

end Wraps

end Code

end PageBuilder
