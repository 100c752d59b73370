import PageBuilder.Proofs.Document.Nesting
import PageBuilder.Proofs.Document.Reread

/-!
What an editor makes, opened again. Edits are read from texts of their own, under the limit on
nesting that is also that of documents; but a document nests its values deeper than an edit does,
and nothing but the reader looks at how deep.
-/

namespace PageBuilder.Document

variable {root : NodeId} {actions : List Action} {document : Document}

/-- Edits that were each read from a text and could be made, from a new document to another one. -/
inductive EditedFrom (root : NodeId) : List Action → Document → Prop
  | new : EditedFrom root [] (ofRoot root)
  | edit {actions : List Action} {document next : Document} {action : Action} {text : String}
      (before : EditedFrom root actions document)
      (decoded : Decode.readText? Action.decode (Json.read? text) = some action)
      (applied : action.apply document = .ok next) : EditedFrom root (actions ++ [action]) next

namespace EditedFrom

theorem valid (edited : EditedFrom root actions document) : document.Valid := by
  induction edited with
  | new => exact valid_of_root root
  | edit _ _ applied ih => exact valid_apply ih applied

theorem action_levels (edited : EditedFrom root actions document) :
    ∀ action ∈ actions, action.tree.levels ≤ nestingLimit := by
  induction edited with
  | new => exact fun action member => absurd member List.not_mem_nil
  | @edit actions document next action text _ decoded _ ih =>
      intro other member
      rcases List.mem_append.1 member with earlier | last
      · exact ih other earlier
      · rw [List.mem_singleton.1 last]
        rw [Decode.readText?, Option.bind_eq_bind, Option.bind_eq_some_iff] at decoded
        obtain ⟨written, _, taken⟩ := decoded
        exact Action.levels_of_decoded taken

theorem nests_within {limit : Nat} (edited : EditedFrom root actions document) (two : 2 ≤ limit)
    (shallow : ∀ action ∈ actions, action.tree.levels < limit) : document.NestsWithin limit := by
  induction edited with
  | new => exact fun id node found => Nat.le_trans (nests_within_of_root root id node found) two
  | @edit actions document next action text _ _ applied ih =>
      have before := ih fun other member => shallow other (List.mem_append_left _ member)
      have own := shallow action (List.mem_append_right _ List.mem_cons_self)
      exact before.apply own applied

end EditedFrom

/-- A document is opened from its text exactly if it fits, and then floats alone may have
changed. -/
theorem of_text_eq (valid : document.Valid) : ofText document.text =
    if document.tree.levels ≤ nestingLimit then .ok document.reread else .error .unreadable := by
  have read : Json.read? document.text = some (.ofTree document.reread.tree) := by
    rw [text, JsonTree.indented, (JsonTree.indented_spells 0 document.tree).read, tree_reread]
  have levels : document.reread.tree.levels = document.tree.levels := by
    rw [← tree_reread, JsonTree.levels_reread]
  rw [ofText, read, Decode.readText?]
  dsimp only [bind, Option.bind]
  split
  · rename_i fits
    have taken : decodeParts Place.text (.ofTree document.reread.tree) =
        some (document.reread.root, document.reread.nodes) := decode_parts_eq (levels ▸ fits)
    rw [taken, ofParts, of_nodes_same valid.reread]
  · rename_i deep
    cases taken : decodeParts Place.text (.ofTree document.reread.tree) with
    | none => rfl
    | some parts => exact absurd (levels ▸ fits_parts taken) deep

/-- What edits make has at most three levels more than a text of it may have. It opens again exactly
if it has none of these, which is so if every edit stayed three levels below what it may have. -/
theorem edited_reopens (edited : EditedFrom root actions document) :
    ofText document.text =
        (if document.tree.levels ≤ nestingLimit then .ok document.reread
          else .error .unreadable) ∧
      document.tree.levels ≤ nestingLimit + 3 ∧
      ((∀ action ∈ actions, action.tree.levels + 3 ≤ nestingLimit) →
        ofText document.text = .ok document.reread) := by
  have opened := of_text_eq edited.valid
  refine ⟨opened, ?_, ?_⟩
  · have within : document.NestsWithin (nestingLimit + 1) := by
      apply edited.nests_within (by decide)
      exact fun action member => Nat.lt_succ_of_le (edited.action_levels action member)
    exact levels_le_iff.2 within
  · intro shallow
    have within : document.NestsWithin (nestingLimit - 2) := by
      apply edited.nests_within (by decide)
      intro action member
      have room := shallow action member
      omega
    have fits : document.tree.levels ≤ nestingLimit := levels_le_iff.2 within
    rw [opened, if_pos fits]

def takesAll (document : Document) : List Action → Bool
  | [] => true
  | action :: rest =>
      !action.tree.hasFloat && decide (action.tree.levels ≤ nestingLimit) &&
        match action.apply document with
        | .ok next => next.takesAll rest
        | .error _ => false

theorem EditedFrom.run {rest : List Action} (edited : EditedFrom root actions document)
    (takes : document.takesAll rest = true) :
    EditedFrom root (actions ++ rest) (document.run rest) := by
  induction rest generalizing actions document with
  | nil => rwa [List.append_nil]
  | cons action rest ih =>
      rw [takesAll, Bool.and_eq_true, Bool.and_eq_true, Bool.not_eq_true', decide_eq_true_eq]
        at takes
      obtain ⟨⟨whole, shallow⟩, later⟩ := takes
      split at later
      · rename_i next applied
        have step : document.run (action :: rest) = next.run rest := by
          rw [Document.run, List.foldl_cons, Document.step, applied]
          rfl
        rw [step, List.append_cons]
        exact ih (.edit edited (action.read_back whole shallow).1 applied) later
      · cases later

def nestedArrays : Nat → Json
  | 0 => .array []
  | depth + 1 => .array [nestedArrays depth]

def deepState (depth : Nat) : List Action :=
  [.addNode ⟨"p", "home", none, .empty, .page .empty⟩ "r" "pages" (some "V"),
    .setPageState "p" "deep" (nestedArrays depth)]

theorem edited_reopens_sample :
    let document := (ofRoot "r").run (deepState 122)
    EditedFrom "r" (deepState 122) document ∧ ofText document.text = .ok document.reread := by
  intro document
  have edited : EditedFrom "r" (deepState 122) document :=
    EditedFrom.new.run (by decide +kernel)
  have shallow : ∀ action ∈ deepState 122, action.tree.levels + 3 ≤ nestingLimit := by
    decide +kernel
  exact ⟨edited, (edited_reopens edited).2.2 shallow⟩

/-- With one array more in each other the edits are still taken, but not the document. -/
theorem deep_state_not_reopened :
    let document := (ofRoot "r").run (deepState 123)
    EditedFrom "r" (deepState 123) document ∧ ofText document.text = .error .unreadable := by
  intro document
  have edited : EditedFrom "r" (deepState 123) document :=
    EditedFrom.new.run (by decide +kernel)
  have deep : ¬document.tree.levels ≤ nestingLimit := by decide +kernel
  have opened := of_text_eq edited.valid
  rw [if_neg deep] at opened
  exact ⟨edited, opened⟩

end PageBuilder.Document
