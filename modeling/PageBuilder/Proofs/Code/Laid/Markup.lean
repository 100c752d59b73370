import PageBuilder.Proofs.Code.Laid
import PageBuilder.Proofs.Code.Markup

/-!
Markup that the layout leaves as it is: tags whose names and attributes are flat, with fragments of
that kind between them.
-/

namespace PageBuilder.Code

open Text (Solid)
open Layout

/-- Markup on lines of its own, the last of which is still open. -/
structure Fragment (text : String) : Prop where
  solid : Solid text.toList
  laid : Laid 0 0 (text ++ "\n")

namespace Fragment

theorem indented {text : String} (fragment : Fragment text) (level : Nat) :
    Laid level level (indentLines level text) := by
  have same : indentLines level text = indentLines level (text ++ "\n") := by
    rw [indentLines, indentLines, Text.lines_line fragment.solid]
  have moved := fragment.laid.indent level
  rwa [Nat.zero_add, ← same] at moved

theorem joined {fragments : List String} (nonempty : fragments ≠ [])
    (each : ∀ fragment ∈ fragments, Fragment fragment) : Fragment (joinFragments fragments) := by
  induction fragments with
  | nil => exact absurd rfl nonempty
  | cons first rest ih =>
      have own := each first List.mem_cons_self
      cases rest with
      | nil => rwa [joinFragments, String.intercalate_singleton]
      | cons second rest =>
          have later := ih (by simp) fun other member => each other (List.mem_cons_of_mem _ member)
          have split : joinFragments (first :: second :: rest) =
              first ++ "\n" ++ joinFragments (second :: rest) := by
            rw [joinFragments, String.intercalate_cons_cons, joinFragments]
          rw [split]
          refine ⟨?_, ?_⟩
          · rw [String.toList_append]
            exact Solid.behind later.solid _
          · rw [String.append_assoc]
            exact own.laid.append later.laid

/-- Fragments one below the other, also when there are none. -/
theorem listed {fragments : List String} (each : ∀ fragment ∈ fragments, Fragment fragment)
    (level : Nat) : Laid level level (indentLines level (joinFragments fragments)) := by
  by_cases empty : fragments = []
  · rw [empty]
    exact Laid.empty level
  · exact (joined empty each).indented level

theorem enclosed {opening closing : String} (opens : Moves 0 1 opening.toList)
    (closes : Moves 1 0 closing.toList) (solid : Solid closing.toList) {inner : String}
    (within : Laid 1 1 inner) : Fragment (opening ++ "\n" ++ (inner ++ closing)) := by
  refine ⟨?_, ?_⟩
  · rw [← String.append_assoc, String.toList_append]
    exact solid.behind _
  · have whole := (Laid.outer opens).append (within.append (Laid.outer closes))
    simpa only [String.append_assoc] using whole

theorem wrapped {fragments : List String} (each : ∀ fragment ∈ fragments, Fragment fragment) :
    Fragment (wrapFragments fragments) := by
  have opening : Moves 0 1 "<>".toList := by decide
  have closing : Moves 1 0 "</>".toList := by decide
  have bare := enclosed opening closing (Text.solid_closed "</") (listed each 1)
  have opened : "<>\n" = "<>" ++ "\n" := rfl
  unfold wrapFragments
  split
  · exact each _ List.mem_cons_self
  · rwa [opened, String.append_assoc]

end Fragment

theorem part_facts {char : Char} (part : Identifier.isPart char = true) :
    (char ≠ '<' ∧ char ≠ '>' ∧ char ≠ '/') ∧ Text.isBlank char = false := by
  have other {mark : Char} (outside : Identifier.isPart mark = false) : char ≠ mark := by
    rintro rfl
    rw [part] at outside
    cases outside
  refine ⟨⟨other (by decide), other (by decide), other (by decide)⟩, ?_⟩
  have code : char.toNat = 36 ∨ char.toNat = 95 ∨ (48 ≤ char.toNat ∧ char.toNat ≤ 57) ∨
      (65 ≤ char.toNat ∧ char.toNat ≤ 90) ∨ (97 ≤ char.toNat ∧ char.toNat ≤ 122) := by
    have range {low high : Char} (inside : (low ≤ char && char ≤ high) = true) :
        low.toNat ≤ char.toNat ∧ char.toNat ≤ high.toNat := by
      simpa [Char.le_def, UInt32.le_iff_toNat_le] using inside
    simp only [Identifier.isPart, Identifier.isStart, Identifier.isLetter, Identifier.isDigit,
      Bool.or_eq_true, decide_eq_true_eq] at part
    rcases part with (((lower | upper) | rfl) | rfl) | digit
    · exact Or.inr (Or.inr (Or.inr (Or.inr (range lower))))
    · exact Or.inr (Or.inr (Or.inr (Or.inl (range upper))))
    · exact Or.inr (Or.inl rfl)
    · exact Or.inl rfl
    · exact Or.inr (Or.inr (Or.inl (range digit)))
  simp only [Text.isBlank, Bool.or_eq_false_iff, Bool.and_eq_false_iff, decide_eq_false_iff_not]
  omega

theorem identifier_first {name : String} (valid : Identifier.isValid name = true) :
    ∃ first, name.toList.head? = some first ∧ Identifier.isPart first = true := by
  have part {char : Char} (member : char ∈ name.toList) : Identifier.isPart char = true :=
    Identifier.is_part_of_valid valid member
  cases shape : name.toList with
  | nil => simp [Identifier.isValid, shape] at valid
  | cons first rest => exact ⟨first, rfl, part (shape ▸ List.mem_cons_self)⟩

theorem identifier_last {name : String} (valid : Identifier.isValid name = true) :
    ∃ last, name.toList.getLast? = some last ∧ Identifier.isPart last = true := by
  obtain ⟨first, start, _⟩ := identifier_first valid
  have nonempty : name.toList ≠ [] := by
    intro empty
    rw [empty] at start
    cases start
  refine ⟨name.toList.getLast nonempty, List.getLast?_eq_some_getLast nonempty, ?_⟩
  exact Identifier.is_part_of_valid valid (List.getLast_mem nonempty)

theorem tag_text_identifier {name : String} (valid : Identifier.isValid name = true) :
    TagText name.toList := by
  obtain ⟨first, start, opens⟩ := identifier_first valid
  obtain ⟨last, final, ends⟩ := identifier_last valid
  have front := part_facts opens
  have back := part_facts ends
  exact ⟨flat_identifier valid, ⟨first, start, front.1.2.2⟩, ⟨last, final, back.1.2.2, back.2⟩⟩

theorem tag_text_behind {name : String} (valid : Identifier.isValid name = true) {more : List Char}
    (flat : Flat more) {last : Char} (final : more.getLast? = some last)
    (visible : last ≠ '/' ∧ Text.isBlank last = false) : TagText (name.toList ++ more) := by
  obtain ⟨first, start, opens⟩ := identifier_first valid
  refine ⟨(flat_identifier valid).append flat, ⟨first, ?_, (part_facts opens).1.2.2⟩,
    ⟨last, ?_, visible⟩⟩
  · rw [Option.mem_def, List.head?_append, start]
    rfl
  · rw [Option.mem_def, List.getLast?_append, final]
    rfl

theorem identifier_bare {name : String} (valid : Identifier.isValid name = true) :
    '>' ∉ name.toList := fun member =>
  absurd (Identifier.is_part_of_valid valid member) (by decide)

namespace MarkupTag

def IsAttribute (entry : String × String) : Prop :=
  Identifier.isValid entry.1 = true ∧
    ∃ code : String, Flat code.toList ∧ entry.2 = "\x7b" ++ code ++ "\x7d"

/-- Nothing in the tag itself is counted by the layout or ends a line. -/
structure Plain (tag : MarkupTag) : Prop where
  name : TagText tag.name.toList
  bare : '>' ∉ tag.name.toList
  attributes : ∀ entry ∈ tag.attributes, IsAttribute entry
  slots : ∀ slot ∈ tag.namedSlots, Identifier.isValid slot.1 = true

theorem flat_attribute {entry : String × String} (given : IsAttribute entry) :
    Flat (attributeText entry) := by
  obtain ⟨valid, code, flat, same⟩ := given
  have equals : Flat ['='] := flat_of_neutral (by decide)
  have chars : attributeText entry =
      entry.1.toList ++ (['='] ++ '\x7b' :: (code.toList ++ ['\x7d'])) := by
    simp [attributeText, same]
  rw [chars]
  exact (flat_identifier valid).append (equals.append (flat.enclosed (by decide) (by decide)))

theorem attribute_last {entry : String × String} (given : IsAttribute entry) :
    (attributeText entry).getLast? = some '\x7d' := by
  obtain ⟨_, code, _, same⟩ := given
  have chars : attributeText entry =
      (entry.1.toList ++ '=' :: '\x7b' :: code.toList) ++ ['\x7d'] := by
    simp [attributeText, same]
  rw [chars, List.getLast?_concat]

theorem attribute_moves {entry : String × String} (given : IsAttribute entry) :
    Moves 0 0 (attributeText entry) := by
  obtain ⟨first, start, part⟩ := identifier_first given.1
  have flat := flat_attribute given
  obtain ⟨code, visible⟩ := part_facts part
  have ends : Ends first '\x7d' (attributeText entry) := by
    refine ⟨?_, attribute_last given, visible, by decide⟩
    rw [attributeText, List.head?_append, start]
    rfl
  exact ends.code code flat.unbroken flat.leads (Nat.zero_le 1)

theorem attribute_laid {entry : String × String} (given : IsAttribute entry) :
    Laid 1 1 (attributeLine entry) := by
  have moves := attribute_moves given
  rw [← String.toList_ofList (l := attributeText entry)] at moves
  have line := Laid.line moves (Nat.zero_le 1)
  have same : attributeLine entry =
      String.ofList (indentation (1 - 0)) ++ String.ofList (attributeText entry) ++ "\n" := by
    apply String.toList_injective
    simp [attributeLine, attributeText, indentation, ToString.toString]
  rwa [← same] at line

variable {tag : MarkupTag}

def headText (tag : MarkupTag) : List Char :=
  tag.name.toList ++ tag.attributes.flatMap fun entry => ' ' :: attributeText entry

theorem Plain.head (plain : tag.Plain) : TagText tag.headText := by
  have blank : Flat [' '] := by decide
  have each : ∀ entry ∈ tag.attributes, Flat (' ' :: attributeText entry) := fun entry member =>
    blank.append (flat_attribute (plain.attributes entry member))
  refine ⟨plain.name.flat.append (flat_flat_map each), ?_, ?_⟩
  · obtain ⟨first, start, other⟩ := plain.name.first
    refine ⟨first, ?_, other⟩
    rw [Option.mem_def, headText, List.head?_append, Option.mem_def.1 start]
    rfl
  · rcases List.eq_nil_or_concat tag.attributes with bare | ⟨before, entry, split⟩
    · rw [headText, bare, List.flatMap_nil, List.append_nil]
      exact plain.name.last
    · have given : IsAttribute entry := plain.attributes entry (by simp [split])
      refine ⟨'\x7d', ?_, by decide, by decide⟩
      have split : tag.headText = (tag.name.toList ++
          (before.flatMap fun entry => ' ' :: attributeText entry) ++ [' ']) ++
            attributeText entry := by
        simp [headText, split]
      rw [Option.mem_def, split, List.getLast?_append, attribute_last given]
      rfl

def inlineHead (tag : MarkupTag) : String :=
  s!"<{tag.name}" ++ String.join (tag.attributes.map inlineAttribute)

theorem inline_head_chars (tag : MarkupTag) (after : String) :
    (tag.inlineHead ++ after).toList = '<' :: (tag.headText ++ after.toList) := by
  have each : tag.attributes.flatMap (fun entry => (inlineAttribute entry).toList) =
      tag.attributes.flatMap fun entry => ' ' :: attributeText entry := by
    congr 1
    funext entry
    simp [inlineAttribute, attributeText, ToString.toString]
  rw [inlineHead, String.toList_append, String.toList_append, String.toList_join, List.flatMap_map,
    each, headText]
  simp [ToString.toString]

theorem Plain.closing (plain : tag.Plain) : Moves 1 0 s!"</{tag.name}>".toList := by
  have moves := plain.name.moves_closing
  simpa [ToString.toString] using moves

theorem slot_opening {name : String} (valid : Identifier.isValid name = true) :
    Moves 0 1 (name.toList ++ ['=', '\x7b']) := by
  obtain ⟨first, start, part⟩ := identifier_first valid
  obtain ⟨code, visible⟩ := part_facts part
  have flat := flat_identifier valid
  have equals : Flat ['='] := flat_of_neutral (by decide)
  have opened : Leads 1 ['=', '\x7b'] := by
    simpa using equals.leads.append (leads_opening (by decide : isOpening '\x7b' = true))
  have leads : Leads 1 (name.toList ++ ['=', '\x7b']) := by
    simpa using flat.leads.append opened
  have ends : Ends first '\x7b' (name.toList ++ ['=', '\x7b']) := by
    refine ⟨?_, ?_, visible, by decide⟩
    · rw [List.head?_append, start]
      rfl
    · rw [List.getLast?_append]
      rfl
  have unbroken : '\n' ∉ name.toList ++ ['=', '\x7b'] := by simp [flat.unbroken]
  exact ends.code code unbroken leads (Nat.le_refl 1)

theorem slot_laid {slot : String × List String} (valid : Identifier.isValid slot.1 = true)
    (each : ∀ fragment ∈ slot.2, Fragment fragment) : Laid 1 1 (slotLines slot) := by
  have opening : Moves 0 1 s!"{slot.1}=\x7b".toList := by
    simpa [ToString.toString] using slot_opening valid
  have closing : Moves 1 0 "\x7d".toList := by decide
  have opened := Laid.line opening (Nat.zero_le 1)
  have closed := Laid.line closing (by decide : 1 ≤ 2)
  have inside := (Fragment.wrapped each).indented 2
  have whole := opened.append (inside.append closed)
  have same : slotLines slot =
      String.ofList (indentation (1 - 0)) ++ s!"{slot.1}=\x7b" ++ "\n" ++
        (indentLines 2 (wrapFragments slot.2) ++
          (String.ofList (indentation (2 - 1)) ++ "\x7d" ++ "\n")) := by
    rw [slot_lines_eq]
    have front :
        s!"  {slot.1}=\x7b" = String.ofList (indentation (1 - 0)) ++ s!"{slot.1}=\x7b" := by
      apply String.toList_injective
      simp [indentation, ToString.toString]
    rw [front]
    rfl
  rwa [← same] at whole

theorem Plain.body_laid (plain : tag.Plain) (each : ∀ fragment ∈ tag.children, Fragment fragment) :
    Laid 1 0 (indentLines 1 (joinFragments tag.children) ++ s!"</{tag.name}>" ++ "\n") := by
  rw [String.append_assoc]
  exact (Fragment.listed each 1).append (Laid.outer plain.closing)

theorem Plain.render_inline (plain : tag.Plain)
    (children : ∀ fragment ∈ tag.children, Fragment fragment) :
    Laid 0 0 (tag.inlineHead ++ (if tag.children.isEmpty then " />" else tag.body) ++ "\n") := by
  split
  · have moves : Moves 0 0 (tag.inlineHead ++ " />").toList := by
      rw [inline_head_chars]
      exact plain.head.moves_self_closing
    exact Laid.outer moves
  · have moves : Moves 0 1 (tag.inlineHead ++ ">").toList := by
      rw [inline_head_chars]
      exact plain.head.moves_opening
    rw [body_eq, String.append_assoc]
    exact (Laid.outer moves).append (plain.body_laid children)

theorem Plain.render_lines (plain : tag.Plain)
    (children : ∀ fragment ∈ tag.children, Fragment fragment)
    (slots : ∀ slot ∈ tag.namedSlots, ∀ fragment ∈ slot.2, Fragment fragment) :
    Laid 0 0 (s!"<{tag.name}" ++ "\n" ++ (String.join (tag.attributes.map attributeLine) ++
      (String.join (tag.namedSlots.map slotLines) ++
        ((if tag.children.isEmpty then "/>" else tag.body) ++ "\n")))) := by
  have start : Moves 0 1 s!"<{tag.name}".toList := by
    simpa [ToString.toString] using plain.name.moves_started plain.bare
  refine (Laid.outer start).append ((Laid.join ?_).append ((Laid.join ?_).append ?_))
  · intro text member
    obtain ⟨entry, listed, rfl⟩ := List.mem_map.1 member
    exact attribute_laid (plain.attributes entry listed)
  · intro text member
    obtain ⟨slot, listed, rfl⟩ := List.mem_map.1 member
    exact slot_laid (plain.slots slot listed) (slots slot listed)
  · split
    · have closing : Moves 1 0 "/>".toList := by decide
      exact Laid.outer closing
    · have between : Moves 1 1 ">".toList := by decide
      have split : tag.body ++ "\n" = ">" ++ "\n" ++
          (indentLines 1 (joinFragments tag.children) ++ s!"</{tag.name}>" ++ "\n") := by
        have front := tag.body_eq ""
        rw [String.empty_append, String.empty_append] at front
        rw [front, String.append_assoc]
      rw [split]
      exact (Laid.outer between).append (plain.body_laid children)

theorem Plain.render (plain : tag.Plain)
    (children : ∀ fragment ∈ tag.children, Fragment fragment)
    (slots : ∀ slot ∈ tag.namedSlots, ∀ fragment ∈ slot.2, Fragment fragment) :
    Fragment tag.render := by
  refine ⟨tag.solid_render, ?_⟩
  unfold MarkupTag.render
  split
  · exact plain.render_inline children
  · have lines := plain.render_lines children slots
    have opened : s!"<{tag.name}\n" = s!"<{tag.name}" ++ "\n" := by
      simp [ToString.toString, String.append_assoc]
    rw [opened]
    simpa only [String.append_assoc] using lines

end MarkupTag

end PageBuilder.Code
