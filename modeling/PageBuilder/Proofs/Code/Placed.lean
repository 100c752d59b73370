import PageBuilder.Proofs.Code.Wrapped.Markup

/-!
Where the fragments in the slots of a tag end up. A tag is made of lines of its own and of the lines
of these fragments: each of them stands there once, moved in, whatever it says.
-/

namespace PageBuilder.Code

open Text (Solid Whole lines)

/-- A text after several levels of indentation, the first of the list being the outermost. -/
def moveIn (levels : List Nat) (text : String) : String := levels.foldr indentLines text

/-- A part of a text: lines of its own, or what an item is shown as, moved in. -/
inductive Piece (Item : Type) where
  | own (text : String)
  | placed (levels : List Nat) (item : Item)

namespace Piece

variable {Item : Type}

def text (shown : Item → String) : Piece Item → String
  | .own text => text
  | .placed levels item => moveIn levels (shown item)

def item? : Piece Item → Option Item
  | .own _ => none
  | .placed _ item => some item

def indent (level : Nat) : Piece Item → Piece Item
  | .own text => .own (indentLines level text)
  | .placed levels item => .placed (level :: levels) item

/-- The piece shares no line with its neighbours, and an item is moved in by one level at least. -/
def OnLines : Piece Item → Prop
  | .own text => Whole text
  | .placed levels _ => levels ≠ [] ∧ 0 ∉ levels

end Piece

def assemble {Item : Type} (shown : Item → String) (pieces : List (Piece Item)) : String :=
  String.join (pieces.map (Piece.text shown))

/-- Whatever the items are shown as, the text has lines of its own and the lines of the items, each
item standing there once. -/
def Places {Item : Type} (items : List Item) (text : (Item → String) → String) : Prop :=
  ∃ pieces : List (Piece Item), (∀ piece ∈ pieces, piece.OnLines) ∧
    (pieces.filterMap Piece.item?).Perm items ∧
    ∀ shown, (∀ item ∈ items, Solid (shown item).toList) → text shown = assemble shown pieces

theorem whole_indented (level : Nat) (text : String) : Whole (indentLines level text) := by
  intro rest
  have alone := lines_indented level text []
  rw [List.append_nil] at alone
  rw [lines_indented, alone, List.append_assoc]
  rfl

theorem indent_lines_append (level : Nat) {text : String} (whole : Whole text) (more : String) :
    indentLines level (text ++ more) = indentLines level text ++ indentLines level more := by
  apply String.toList_injective
  rw [String.toList_append, indentLines, indentLines, indentLines, String.toList_ofList,
    String.toList_ofList, String.toList_ofList, String.toList_append, whole, List.map_append,
    Text.join_lines_append]

theorem indent_lines_line (level : Nat) {text : String} (solid : Solid text.toList) :
    indentLines level (text ++ "\n") = indentLines level text := by
  rw [indentLines, Text.lines_line solid, indentLines]

theorem indent_join_fragments (level : Nat) {fragments : List String}
    (solid : ∀ fragment ∈ fragments, Solid fragment.toList) :
    indentLines level (joinFragments fragments) =
      String.join (fragments.map (indentLines level)) := by
  induction fragments with
  | nil => rfl
  | cons fragment rest ih =>
      have first := solid fragment List.mem_cons_self
      have later := ih fun other member => solid other (List.mem_cons_of_mem _ member)
      cases rest with
      | nil => rw [joinFragments, String.intercalate_singleton, List.map_singleton,
          String.join_cons, String.join_nil, String.append_empty]
      | cons next rest =>
          rw [joinFragments, String.intercalate_cons_cons, ← joinFragments,
            indent_lines_append level (Text.whole_line fragment), indent_lines_line level first,
            later, List.map_cons (a := fragment), String.join_cons]

section Pieces

variable {Item : Type} {shown : Item → String} {items others : List Item}
  {text more : (Item → String) → String}

theorem Piece.OnLines.whole {piece : Piece Item} (onLines : piece.OnLines) (shown : Item → String) :
    Whole (piece.text shown) := by
  cases piece with
  | own text => exact onLines
  | placed levels item =>
      cases levels with
      | nil => exact absurd rfl onLines.1
      | cons level levels => exact whole_indented level _

theorem Piece.OnLines.indent {piece : Piece Item} (onLines : piece.OnLines) {level : Nat}
    (positive : 1 ≤ level) : (piece.indent level).OnLines := by
  cases piece with
  | own text => exact whole_indented level text
  | placed levels item =>
      refine ⟨List.cons_ne_nil _ _, ?_⟩
      rw [List.mem_cons, not_or]
      exact ⟨by omega, onLines.2⟩

theorem Piece.text_indent (level : Nat) (piece : Piece Item) :
    (piece.indent level).text shown = indentLines level (piece.text shown) := by
  cases piece with
  | own text => rfl
  | placed levels item => rfl

theorem Piece.item_indent (level : Nat) (piece : Piece Item) :
    (piece.indent level).item? = piece.item? := by
  cases piece with
  | own text => rfl
  | placed levels item => rfl

theorem assemble_append (pieces further : List (Piece Item)) :
    assemble shown (pieces ++ further) = assemble shown pieces ++ assemble shown further := by
  rw [assemble, List.map_append, String.join_append, assemble, assemble]

theorem indent_assembled (level : Nat) {pieces : List (Piece Item)}
    (onLines : ∀ piece ∈ pieces, piece.OnLines) :
    indentLines level (assemble shown pieces) =
      assemble shown (pieces.map (Piece.indent level)) := by
  induction pieces with
  | nil => rfl
  | cons piece pieces ih =>
      have later := ih fun other member => onLines other (List.mem_cons_of_mem _ member)
      have whole := (onLines piece List.mem_cons_self).whole shown
      rw [assemble, assemble] at later
      rw [assemble, assemble, List.map_cons, List.map_cons, List.map_cons, String.join_cons,
        String.join_cons, indent_lines_append level whole, later, Piece.text_indent]

namespace Places

theorem own {text : String} (whole : Whole text) : Places ([] : List Item) fun _ => text := by
  refine ⟨[.own text], ?_, List.Perm.refl _, fun shown _ => ?_⟩
  · intro piece member
    rw [List.mem_singleton.1 member]
    exact whole
  · rw [assemble, List.map_singleton, String.join_cons, String.join_nil, String.append_empty]
    rfl

theorem perm (places : Places items text) (same : items.Perm others) : Places others text := by
  obtain ⟨pieces, onLines, once, made⟩ := places
  refine ⟨pieces, onLines, once.trans same, fun shown solid => made shown fun item member => ?_⟩
  exact solid item (same.mem_iff.1 member)

theorem append (places : Places items text) (further : Places others more) :
    Places (items ++ others) fun shown => text shown ++ more shown := by
  obtain ⟨pieces, onLines, once, made⟩ := places
  obtain ⟨added, addedLines, addedOnce, addedMade⟩ := further
  refine ⟨pieces ++ added, ?_, ?_, fun shown solid => ?_⟩
  · intro piece member
    exact (List.mem_append.1 member).elim (onLines piece) (addedLines piece)
  · rw [List.filterMap_append]
    exact once.append addedOnce
  · beta_reduce
    rw [assemble_append, made shown fun item member => solid item (List.mem_append_left _ member),
      addedMade shown fun item member => solid item (List.mem_append_right _ member)]

theorem behind {front : String} (whole : Whole front) (places : Places items text) :
    Places items fun shown => front ++ text shown :=
  (own whole).append places

theorem before {back : String} (whole : Whole back) (places : Places items text) :
    Places items fun shown => text shown ++ back := by
  have all := places.append (own whole)
  rwa [List.append_nil] at all

theorem indent (places : Places items text) {level : Nat} (positive : 1 ≤ level) :
    Places items fun shown => indentLines level (text shown) := by
  obtain ⟨pieces, onLines, once, made⟩ := places
  refine ⟨pieces.map (Piece.indent level), ?_, ?_, fun shown solid => ?_⟩
  · intro piece member
    obtain ⟨inner, listed, rfl⟩ := List.mem_map.1 member
    exact (onLines inner listed).indent positive
  · rw [List.filterMap_map]
    have same : Piece.item? ∘ Piece.indent level = (Piece.item? : Piece Item → Option Item) :=
      funext (Piece.item_indent level)
    rw [same]
    exact once
  · beta_reduce
    rw [made shown solid, indent_assembled level onLines]

theorem congr (places : Places items text)
    (same : ∀ shown, (∀ item ∈ items, Solid (shown item).toList) → more shown = text shown) :
    Places items more := by
  obtain ⟨pieces, onLines, once, made⟩ := places
  exact ⟨pieces, onLines, once, fun shown solid => (same shown solid).trans (made shown solid)⟩

theorem fragments (items : List Item) {level : Nat} (positive : 1 ≤ level) :
    Places items fun shown => indentLines level (joinFragments (items.map shown)) := by
  refine ⟨items.map (Piece.placed [level]), ?_, ?_, fun shown solid => ?_⟩
  · intro piece member
    obtain ⟨item, _, rfl⟩ := List.mem_map.1 member
    refine ⟨List.cons_ne_nil _ _, ?_⟩
    rw [List.mem_singleton]
    omega
  · rw [List.filterMap_map]
    have same : Piece.item? ∘ Piece.placed [level] = (some : Item → Option Item) := rfl
    rw [same, List.filterMap_some]
  · have each : ∀ fragment ∈ items.map shown, Solid fragment.toList := by
      intro fragment member
      obtain ⟨item, listed, rfl⟩ := List.mem_map.1 member
      exact solid item listed
    beta_reduce
    rw [indent_join_fragments level each, assemble, List.map_map, List.map_map]
    rfl

theorem wrapped (items : List Item) {level : Nat} (positive : 1 ≤ level) :
    Places items fun shown => indentLines level (wrapFragments (items.map shown)) := by
  have bare : Places items fun shown =>
      indentLines level ("<>\n" ++ indentLines 1 (joinFragments (items.map shown)) ++ "</>") := by
    have inside := (fragments items (Nat.le_refl 1)).behind (Text.whole_line "<>")
    have closed := (inside.before (Text.whole_line "</>")).indent positive
    apply closed.congr
    intro shown _
    have solid :=
      Text.solid_closed ("<>\n" ++ indentLines 1 (joinFragments (items.map shown)) ++ "</")
    have tag : "</" ++ ">" = "</>" := rfl
    have opened : "<>\n" = "<>" ++ "\n" := rfl
    rw [String.append_assoc, tag] at solid
    rw [← indent_lines_line level solid, opened]
    simp only [String.append_assoc]
  cases items with
  | nil => exact bare
  | cons item rest =>
      cases rest with
      | nil => exact fragments [item] positive
      | cons next rest => exact bare

end Places

end Pieces

namespace MarkupTag

variable {Item : Type} (slots : SortedMap (List Item))

def heldApart : List (String × List Item) :=
  slots.entries.filter fun slot => slot.1 ≠ childrenSlot && !slot.2.isEmpty

def heldBetween : List Item := (slots.get? childrenSlot).getD []

/-- A tag with items in its slots, shown in some way. -/
def showing (name : String) (attributes : List (String × String)) (shown : Item → String) :
    MarkupTag :=
  ⟨name, attributes, slots.mapValues (List.map shown)⟩

theorem held_perm : ((heldApart slots).flatMap Prod.snd ++ heldBetween slots).Perm
    slots.values.flatten := by
  rw [heldApart, heldBetween, SortedMap.get?, SortedMap.values, ← List.flatMap_def]
  have once : (slots.entries.map Prod.fst).Nodup := slots.keys_nodup
  generalize slots.entries = entries at once
  induction entries with
  | nil => exact List.Perm.refl _
  | cons slot rest ih =>
      obtain ⟨name, items⟩ := slot
      obtain ⟨fresh, later⟩ := List.nodup_cons.1 once
      have held := ih later
      by_cases direct : name = childrenSlot
      · have unlisted : SortedMap.findEntry childrenSlot rest = none := by
          apply Option.eq_none_iff_forall_ne_some.2
          intro value found
          exact fresh (List.mem_map.2 ⟨_, SortedMap.mem_of_find_entry found, direct.symm⟩)
        rw [unlisted, Option.getD_none, List.append_nil] at held
        rw [List.filter_cons_of_neg (by simp [direct]), SortedMap.findEntry, if_pos direct,
          List.flatMap_cons, Option.getD_some]
        exact (held.append_right items).trans List.perm_append_comm
      · rw [SortedMap.findEntry, if_neg direct, List.flatMap_cons]
        cases items with
        | nil =>
            rw [List.filter_cons_of_neg (by simp)]
            exact held
        | cons item items =>
            rw [List.filter_cons_of_pos (by simp [direct]), List.flatMap_cons, List.append_assoc]
            exact held.append_left _

theorem named_showing (name : String) (attributes : List (String × String))
    (shown : Item → String) : (showing slots name attributes shown).namedSlots =
      (heldApart slots).map fun slot => (slot.1, slot.2.map shown) := by
  rw [namedSlots, heldApart, showing, SortedMap.mapValues, List.filter_map]
  congr 1
  apply List.filter_congr
  intro slot _
  simp

theorem children_showing (name : String) (attributes : List (String × String))
    (shown : Item → String) :
    (showing slots name attributes shown).children = (heldBetween slots).map shown := by
  rw [children, showing, SortedMap.get_map_values, heldBetween]
  cases slots.get? childrenSlot with
  | none => rfl
  | some items => rfl

theorem places_slots (held : List (String × List Item)) :
    Places (held.flatMap Prod.snd) fun shown =>
      String.join ((held.map fun slot => (slot.1, slot.2.map shown)).map slotLines) := by
  induction held with
  | nil => exact Places.own fun rest => rfl
  | cons slot held ih =>
      have inside := (Places.wrapped slot.2 (by decide : 1 ≤ 2)).before (Text.whole_line "  \x7d")
      have lines := inside.behind (Text.whole_line s!"  {slot.1}=\x7b")
      rw [List.flatMap_cons]
      apply (lines.append ih).congr
      intro shown _
      rw [List.map_cons, List.map_cons, String.join_cons, slot_lines_eq]

theorem places_rest (name : String) (attributes : List (String × String)) (front short : String) :
    Places (heldBetween slots) fun shown =>
      front ++ (if (showing slots name attributes shown).children.isEmpty then short
        else (showing slots name attributes shown).body) ++ "\n" := by
  cases empty : (heldBetween slots).isEmpty with
  | true =>
      rw [List.isEmpty_iff.1 empty]
      apply (Places.own (Text.whole_line (front ++ short))).congr
      intro shown _
      rw [children_showing, List.isEmpty_iff.1 empty]
      rfl
  | false =>
      have inside := (Places.fragments (heldBetween slots) (Nat.le_refl 1)).before
        (Text.whole_line s!"</{name}>")
      apply (inside.behind (Text.whole_line (front ++ ">"))).congr
      intro shown _
      rw [children_showing, List.isEmpty_map, empty, if_neg Bool.false_ne_true, body_eq,
        children_showing]
      simp only [String.append_assoc]
      rfl

/-- A tag shows every item in its slots once. -/
theorem places_render (name : String) (attributes : List (String × String)) :
    Places slots.values.flatten fun shown =>
      (showing slots name attributes shown).render ++ "\n" := by
  cases empty : (heldApart slots).isEmpty with
  | true =>
      have all := held_perm slots
      rw [List.isEmpty_iff.1 empty, List.flatMap_nil, List.nil_append] at all
      have rest := places_rest slots name attributes
        (s!"<{name}" ++ String.join (attributes.map inlineAttribute)) " />"
      apply (rest.perm all).congr
      intro shown _
      rw [render, named_showing, List.isEmpty_map, empty]
      rfl
  | false =>
      have opening := (showing slots name attributes fun _ => "").whole_opening
      have held := (places_slots (heldApart slots)).append
        (places_rest slots name attributes "" "/>")
      apply ((held.perm (held_perm slots)).behind opening).congr
      intro shown _
      rw [render, named_showing, List.isEmpty_map, empty, if_neg Bool.false_ne_true]
      simp only [String.append_assoc, String.empty_append]
      rfl

end MarkupTag

end PageBuilder.Code
