import PageBuilder.Code.Markup
import PageBuilder.Proofs.Code.Wrapped
import PageBuilder.Proofs.SortedMap

/-!
Wrappers in fragments of markup. However fragments are put together, wrappers stay around what they
wrap, and the rest is as it is without them.
-/

namespace PageBuilder.Code

open Text (Solid Whole)

inductive WrappedFragments (marker : String) : Multiset String → List String → List String → Prop
  | nil : WrappedFragments marker 0 [] []
  | cons {nodes others : Multiset String} {first second : String} {wrapped plain : List String}
      (solid : Solid first.toList) (other : Solid second.toList)
      (wraps : Wraps marker nodes first second)
      (rest : WrappedFragments marker others wrapped plain) :
      WrappedFragments marker (nodes + others) (first :: wrapped) (second :: plain)

namespace WrappedFragments

variable {marker : String} {nodes others : Multiset String} {wrapped plain after more : List String}

theorem append (first : WrappedFragments marker nodes wrapped plain)
    (second : WrappedFragments marker others after more) :
    WrappedFragments marker (nodes + others) (wrapped ++ after) (plain ++ more) := by
  induction first with
  | nil =>
      rw [Multiset.zero_add]
      exact second
  | cons solid other wraps _ ih =>
      rw [Multiset.add_assoc]
      exact .cons solid other wraps ih

theorem eq_zero (fragments : WrappedFragments marker nodes [] plain) : nodes = 0 := by
  cases fragments
  rfl

theorem empty_eq (fragments : WrappedFragments marker nodes wrapped plain) :
    wrapped.isEmpty = plain.isEmpty := by
  cases fragments with
  | nil => rfl
  | cons => rfl

theorem join (fragments : WrappedFragments marker nodes wrapped plain) :
    Wraps marker nodes (joinFragments wrapped) (joinFragments plain) := by
  induction fragments with
  | nil => exact .refl _
  | cons solid other wraps rest ih =>
      cases rest with
      | nil =>
          rw [Multiset.add_zero]
          exact wraps
      | cons =>
          rw [joinFragments, joinFragments, String.intercalate_cons_cons,
            String.intercalate_cons_cons]
          exact wraps.followed solid other ih

theorem wrap (fragments : WrappedFragments marker nodes wrapped plain) :
    Wraps marker nodes (wrapFragments wrapped) (wrapFragments plain) := by
  have joined := fragments.join
  have bare : Wraps marker nodes ("<>\n" ++ indentLines 1 (joinFragments wrapped) ++ "</>")
      ("<>\n" ++ indentLines 1 (joinFragments plain) ++ "</>") := by
    have inside := (joined.indented (Nat.le_refl 1) (.refl "</>")).behind (Text.whole_line "<>")
    rwa [Multiset.add_zero, ← String.append_assoc, ← String.append_assoc] at inside
  cases fragments with
  | nil => exact bare
  | cons solid other wraps rest =>
      cases rest with
      | nil => exact joined
      | cons => exact bare

end WrappedFragments

theorem slot_lines_eq (slot : String × List String) :
    MarkupTag.slotLines slot = s!"  {slot.1}=\x7b" ++ "\n" ++
      (indentLines 2 (wrapFragments slot.2) ++ ("  \x7d" ++ "\n")) := by
  have opened : "=\x7b\n" = "=\x7b" ++ "\n" := rfl
  simp [MarkupTag.slotLines, String.append_assoc, ToString.toString, opened]

inductive WrappedSlots (marker : String) :
    Multiset String → List (String × List String) → List (String × List String) → Prop
  | nil : WrappedSlots marker 0 [] []
  | cons {nodes others : Multiset String} {name : String} {first second : List String}
      {wrapped plain : List (String × List String)}
      (fragments : WrappedFragments marker nodes first second)
      (rest : WrappedSlots marker others wrapped plain) :
      WrappedSlots marker (nodes + others) ((name, first) :: wrapped) ((name, second) :: plain)

namespace WrappedSlots

variable {marker : String} {nodes others : Multiset String}
  {wrapped plain : List (String × List String)} {after more : String}

theorem all (slots : WrappedSlots marker nodes wrapped plain) :
    WrappedFragments marker nodes (wrapped.map Prod.snd).flatten (plain.map Prod.snd).flatten := by
  induction slots with
  | nil => exact .nil
  | cons fragments _ ih => exact fragments.append ih

theorem eq_zero (slots : WrappedSlots marker nodes [] plain) : nodes = 0 := by
  cases slots
  rfl

theorem empty_eq (slots : WrappedSlots marker nodes wrapped plain) :
    wrapped.isEmpty = plain.isEmpty := by
  cases slots with
  | nil => rfl
  | cons => rfl

theorem written (slots : WrappedSlots marker nodes wrapped plain)
    (rest : Wraps marker others after more) :
    Wraps marker (nodes + others) (String.join (wrapped.map MarkupTag.slotLines) ++ after)
      (String.join (plain.map MarkupTag.slotLines) ++ more) := by
  induction slots with
  | nil =>
      rw [Multiset.zero_add]
      exact rest
  | cons fragments _ ih =>
      rename_i nodes others name first second wrapped plain slots
      have closed := ih.behind (Text.whole_line "  \x7d")
      have held := (fragments.wrap.indented (by decide : 1 ≤ 2) closed).behind
        (Text.whole_line s!"  {name}=\x7b")
      rw [List.map_cons, List.map_cons, String.join_cons, String.join_cons, slot_lines_eq,
        slot_lines_eq, Multiset.add_assoc]
      simpa only [String.append_assoc] using held

theorem parted (slots : WrappedSlots marker nodes wrapped plain)
    (once : (wrapped.map Prod.fst).Nodup) :
    ∃ named own, nodes = named + own ∧
      WrappedSlots marker named
        (wrapped.filter fun slot => slot.1 ≠ childrenSlot && !slot.2.isEmpty)
        (plain.filter fun slot => slot.1 ≠ childrenSlot && !slot.2.isEmpty) ∧
      WrappedFragments marker own ((SortedMap.findEntry childrenSlot wrapped).getD [])
        ((SortedMap.findEntry childrenSlot plain).getD []) := by
  induction slots with
  | nil => exact ⟨0, 0, (Multiset.zero_add 0).symm, .nil, .nil⟩
  | cons fragments rest ih =>
      rename_i here others name first second wrapped plain
      obtain ⟨fresh, later⟩ := List.nodup_cons.1 once
      obtain ⟨named, own, same, lines, held⟩ := ih later
      have empty := fragments.empty_eq
      -- Names come once, so behind the slot between the tags there is no other of its name.
      by_cases direct : name = childrenSlot
      · subst direct
        have unlisted : SortedMap.findEntry childrenSlot wrapped = none := by
          apply Option.eq_none_iff_forall_ne_some.2
          intro value found
          exact fresh (List.mem_map.2 ⟨_, SortedMap.mem_of_find_entry found, rfl⟩)
        rw [unlisted] at held
        refine ⟨named, here, ?_, ?_, ?_⟩
        · rw [same, held.eq_zero, Multiset.add_zero, Multiset.add_comm]
        · rw [List.filter_cons_of_neg (by simp), List.filter_cons_of_neg (by simp)]
          exact lines
        · rw [SortedMap.findEntry, SortedMap.findEntry, if_pos rfl, if_pos rfl]
          exact fragments
      · rw [SortedMap.findEntry, SortedMap.findEntry, if_neg direct, if_neg direct]
        cases unfilled : first.isEmpty with
        | true =>
            rw [List.isEmpty_iff.1 unfilled] at fragments
            rw [List.filter_cons_of_neg (by simp [unfilled]),
              List.filter_cons_of_neg (by simp [← empty, unfilled])]
            refine ⟨named, own, ?_, lines, held⟩
            rw [fragments.eq_zero, Multiset.zero_add, same]
        | false =>
            rw [List.filter_cons_of_pos (by simp [direct, unfilled]),
              List.filter_cons_of_pos (by simp [direct, ← empty, unfilled])]
            refine ⟨here + named, own, ?_, .cons fragments lines, held⟩
            rw [same, Multiset.add_assoc]

end WrappedSlots

namespace MarkupTag

theorem solid_body (tag : MarkupTag) : Solid tag.body.toList := by
  rw [body, String.toList_append]
  exact Solid.behind (Text.solid_closed _) _

theorem solid_render (tag : MarkupTag) : Solid tag.render.toList := by
  have inline : Solid " />".toList := ⟨'>', by decide, by decide, by decide⟩
  have line : Solid "/>".toList := ⟨'>', by decide, by decide, by decide⟩
  have last (short : String) (solid : Solid short.toList) (front : String) :
      Solid (front ++ if tag.children.isEmpty then short else tag.body).toList := by
    rw [String.toList_append]
    split
    · exact solid.behind _
    · exact tag.solid_body.behind _
  unfold render
  split
  · exact last _ inline _
  · exact last _ line _

theorem whole_attribute (entry : String × String) : Whole (attributeLine entry) := by
  have same : attributeLine entry = s!"  {entry.1}={entry.2}" ++ "\n" := rfl
  rw [same]
  exact Text.whole_line _

theorem body_eq (tag : MarkupTag) (front : String) : front ++ tag.body =
    front ++ ">" ++ "\n" ++ (indentLines 1 (joinFragments tag.children) ++ s!"</{tag.name}>") := by
  have opened : ">\n" = ">" ++ "\n" := rfl
  rw [body, opened]
  simp only [String.append_assoc]

theorem whole_opening (tag : MarkupTag) :
    Whole (s!"<{tag.name}\n" ++ String.join (tag.attributes.map attributeLine)) := by
  have same : s!"<{tag.name}\n" = s!"<{tag.name}" ++ "\n" := by
    simp [ToString.toString, String.append_assoc]
  rw [same]
  refine (Text.whole_line _).append (.join ?_)
  intro text member
  obtain ⟨entry, _, rfl⟩ := List.mem_map.1 member
  exact whole_attribute entry

/-- Tags that differ in what their slots hold. -/
theorem wraps_render {marker : String} {nodes : Multiset String} {wrapped plain : MarkupTag}
    (name : wrapped.name = plain.name) (attributes : wrapped.attributes = plain.attributes)
    (slots : WrappedSlots marker nodes wrapped.slots.entries plain.slots.entries) :
    Wraps marker nodes wrapped.render plain.render := by
  obtain ⟨named, own, rfl, kept, held⟩ := slots.parted wrapped.slots.keys_nodup
  have lines : WrappedSlots marker named wrapped.namedSlots plain.namedSlots := kept
  have children : WrappedFragments marker own wrapped.children plain.children := held
  have closed (short front : String) : Wraps marker own
      (front ++ if wrapped.children.isEmpty then short else wrapped.body)
      (front ++ if plain.children.isEmpty then short else plain.body) := by
    rw [← children.empty_eq]
    split
    · rename_i absent
      rw [List.isEmpty_iff.1 absent] at children
      rw [children.eq_zero]
      exact .refl _
    · rw [body_eq, body_eq, name]
      have inside := children.join.indented (Nat.le_refl 1) (.refl s!"</{plain.name}>")
      rw [Multiset.add_zero] at inside
      exact inside.behind (Text.whole_line _)
  have empty : wrapped.namedSlots.isEmpty = plain.namedSlots.isEmpty := lines.empty_eq
  unfold render
  rw [← empty]
  split
  · rename_i absent
    rw [List.isEmpty_iff.1 absent] at lines
    rw [lines.eq_zero, Multiset.zero_add, name, attributes]
    exact closed " />" _
  · have rest := lines.written (closed "/>" "")
    have whole := plain.whole_opening
    rw [String.empty_append, String.empty_append] at rest
    have all := rest.behind whole
    rw [name, attributes]
    simpa only [String.append_assoc] using all

end MarkupTag

end PageBuilder.Code
