import PageBuilder.Code.Markup
import PageBuilder.Proofs.Code.Indent
import PageBuilder.Proofs.SortedMap

/-!
Markup holds what it is made of: its attributes as they are, and the fragments in its slots with
their lines moved in.
-/

namespace PageBuilder.Code

open Text (Solid)

/-- A piece after several levels of indentation, the first of the list being the outermost. -/
def reindentAll (levels : List Nat) (piece : List Char) : List Char := levels.foldr reindent piece

theorem solid_reindent_all {piece : List Char} (solid : Solid piece) (levels : List Nat) :
    Solid (reindentAll levels piece) := by
  induction levels with
  | nil => exact solid
  | cons level levels ih => exact solid_reindent ih level

theorem reindent_all_unbroken {piece : List Char} (solid : Solid piece) (unbroken : '\n' ∉ piece)
    (levels : List Nat) : reindentAll levels piece = piece := by
  induction levels with
  | nil => rfl
  | cons level levels ih =>
      rw [reindentAll, List.foldr_cons]
      rw [reindentAll] at ih
      rw [ih, reindent_unbroken solid.ne_nil unbroken]

/-- Without carriage returns several levels are one, as deep as all of them together. -/
theorem exists_reindent_all {piece : List Char} (solid : Solid piece) (noReturn : '\r' ∉ piece)
    (level : Nat) (levels : List Nat) :
    ∃ depth ≥ level, reindentAll (level :: levels) piece = reindent depth piece := by
  induction levels generalizing level with
  | nil => exact ⟨level, Nat.le_refl level, rfl⟩
  | cons inner levels ih =>
      obtain ⟨depth, _, deep⟩ := ih inner
      have further : reindentAll (level :: inner :: levels) piece =
          reindent level (reindentAll (inner :: levels) piece) := rfl
      rw [further, deep, reindent_reindent solid noReturn]
      exact ⟨depth + level, by omega, rfl⟩

theorem mem_intersperse (between : List Char) {part : List Char} {parts : List (List Char)}
    (member : part ∈ parts) : part ∈ parts.intersperse between := by
  induction parts with
  | nil => exact member
  | cons first parts ih =>
      cases parts with
      | nil => exact member
      | cons second parts =>
          rw [List.intersperse_cons_cons]
          rcases List.mem_cons.1 member with same | later
          · exact same ▸ List.mem_cons_self
          · exact List.mem_cons_of_mem _ (List.mem_cons_of_mem _ (ih later))

/-- A text holds a piece, whose further lines may have moved in with the markup around it. -/
def Carries (text : String) (piece : List Char) : Prop :=
  ∃ levels, reindentAll levels piece <:+: text.toList

namespace Carries

variable {text : String} {piece : List Char}

theorem of_infix (within : piece <:+: text.toList) : Carries text piece := ⟨[], within⟩

theorem mono (carries : Carries text piece) {longer : String}
    (within : text.toList <:+: longer.toList) : Carries longer piece := by
  obtain ⟨levels, here⟩ := carries
  exact ⟨levels, here.trans within⟩

theorem append_left (carries : Carries text piece) (more : String) :
    Carries (text ++ more) piece := by
  apply carries.mono
  rw [String.toList_append]
  exact (List.prefix_append _ _).isInfix

theorem append_right (carries : Carries text piece) (before : String) :
    Carries (before ++ text) piece := by
  apply carries.mono
  rw [String.toList_append]
  exact (List.suffix_append _ _).isInfix

theorem join {texts : List String} (member : text ∈ texts) (carries : Carries text piece) :
    Carries (String.join texts) piece := by
  apply carries.mono
  rw [String.toList_join]
  exact List.infix_of_mem_flatten (List.mem_map.2 ⟨text, member, rfl⟩)

theorem indent (solid : Solid piece) (carries : Carries text piece) (level : Nat) :
    ∃ levels, reindentAll (level :: levels) piece <:+: (indentLines level text).toList := by
  obtain ⟨levels, here⟩ := carries
  exact ⟨levels, reindent_infix (solid_reindent_all solid levels) here level⟩

theorem indent_lines (solid : Solid piece) (carries : Carries text piece) (level : Nat) :
    Carries (indentLines level text) piece := by
  obtain ⟨levels, here⟩ := carries.indent solid level
  exact ⟨level :: levels, here⟩

theorem join_fragments {fragments : List String} (member : text ∈ fragments)
    (carries : Carries text piece) : Carries (joinFragments fragments) piece := by
  apply carries.mono
  rw [joinFragments, String.toList_intercalate, List.intercalate]
  exact List.infix_of_mem_flatten (mem_intersperse _ (List.mem_map.2 ⟨text, member, rfl⟩))

theorem wrap_fragments (solid : Solid piece) {fragments : List String} (member : text ∈ fragments)
    (carries : Carries text piece) : Carries (wrapFragments fragments) piece := by
  unfold wrapFragments
  split
  · rename_i single
    rw [← List.mem_singleton.1 member]
    exact carries
  · exact (((carries.join_fragments member).indent_lines solid 1).append_right _).append_left _

end Carries

namespace MarkupTag

variable {tag : MarkupTag} {piece : List Char}

def attributeText (entry : String × String) : List Char := entry.1.toList ++ '=' :: entry.2.toList

theorem carries_body (solid : Solid piece) {fragment : String} (member : fragment ∈ tag.children)
    (carries : Carries fragment piece) : Carries tag.body piece := by
  unfold body
  exact (((carries.join_fragments member).indent_lines solid 1).append_right _).append_left _

theorem carries_slot_lines (solid : Solid piece) {slot : String × List String} {fragment : String}
    (member : fragment ∈ slot.2) (carries : Carries fragment piece) :
    Carries (slotLines slot) piece := by
  unfold slotLines
  exact (((carries.wrap_fragments solid member).indent_lines solid 2).append_right _).append_left _

theorem attribute_in_inline (entry : String × String) :
    attributeText entry <:+: (inlineAttribute entry).toList := by
  refine ⟨[' '], [], ?_⟩
  simp [attributeText, inlineAttribute, ToString.toString]

theorem attribute_in_line (entry : String × String) :
    attributeText entry <:+: (attributeLine entry).toList := by
  refine ⟨[' ', ' '], ['\n'], ?_⟩
  simp [attributeText, attributeLine, ToString.toString]

theorem carries_attribute {entry : String × String} (member : entry ∈ tag.attributes)
    (within : piece <:+: attributeText entry) : Carries tag.render piece := by
  unfold render
  split
  · have inline := Carries.of_infix (within.trans (attribute_in_inline entry))
    have joined := inline.join (List.mem_map.2 ⟨entry, member, rfl⟩)
    exact (joined.append_right _).append_left _
  · have line := Carries.of_infix (within.trans (attribute_in_line entry))
    have joined := line.join (List.mem_map.2 ⟨entry, member, rfl⟩)
    exact ((joined.append_right _).append_left _).append_left _

theorem carries_children (solid : Solid piece) {fragment : String}
    (member : fragment ∈ tag.children) (carries : Carries fragment piece) :
    Carries tag.render piece := by
  have nonempty : tag.children.isEmpty = false := by
    rw [List.isEmpty_eq_false_iff]
    exact List.ne_nil_of_mem member
  unfold render
  split
  · rw [nonempty]
    exact (carries_body solid member carries).append_right _
  · rw [nonempty]
    exact (carries_body solid member carries).append_right _

theorem carries_named (solid : Solid piece) {slot : String × List String}
    (named : slot ∈ tag.namedSlots) {fragment : String} (member : fragment ∈ slot.2)
    (carries : Carries fragment piece) : Carries tag.render piece := by
  have nonempty : tag.namedSlots.isEmpty = false := by
    rw [List.isEmpty_eq_false_iff]
    exact List.ne_nil_of_mem named
  unfold render
  rw [nonempty]
  have lines := carries_slot_lines solid member carries
  have joined := lines.join (List.mem_map.2 ⟨slot, named, rfl⟩)
  exact (joined.append_right _).append_left _

theorem carries_slot (solid : Solid piece) {slot : String} {fragments : List String}
    (held : tag.slots.get? slot = some fragments) {fragment : String}
    (member : fragment ∈ fragments) (carries : Carries fragment piece) :
    Carries tag.render piece := by
  by_cases direct : slot = childrenSlot
  · refine carries_children solid ?_ carries
    rw [children, ← direct, held]
    exact member
  · refine carries_named solid (?_ : (slot, fragments) ∈ tag.namedSlots) member carries
    rw [namedSlots, List.mem_filter, tag.slots.mem_entries_iff]
    have nonempty : fragments.isEmpty = false := by
      rw [List.isEmpty_eq_false_iff]
      exact List.ne_nil_of_mem member
    exact ⟨held, by simp [direct, nonempty]⟩

end MarkupTag

end PageBuilder.Code
