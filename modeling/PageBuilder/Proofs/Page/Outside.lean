import PageBuilder.Proofs.Document.Run
import PageBuilder.Proofs.Page.SamePage

/-!
Edits that stay outside a page. They name no node of the page, so whatever they do to other nodes,
the page and the nodes below it stay as they are.
-/

namespace PageBuilder

/-- The nodes that an edit needs: those it changes, and the one that it puts a node below. -/
def Action.touched : Action → List NodeId
  | .addNode _ parent _ _ => [parent]
  | .moveNode id parent _ _ => [id, parent]
  | .removeNode id | .setNodeName id _ | .setValue id _ _ _ => [id]
  | .setPageState page _ _ | .removePageState page _ => [page]

namespace Document

variable {document : Document} {page : Node}

theorem present_of_on_page (holds : document.HoldsPage page) {id : NodeId}
    (on : document.OnPage page.id id) : ∃ node, document.get? id = some node := by
  obtain ⟨distance, under⟩ := on
  exact under.present ⟨page, holds.found⟩

theorem not_on_page (holds : document.HoldsPage page) {id : NodeId}
    (outside : id ∉ PageView.nodesInside document page) : ¬document.OnPage page.id id :=
  fun on => outside (holds.mem_nodes_inside_iff.2 ⟨present_of_on_page holds on, on⟩)

section Put

variable {node : Node} {names : SortedMap NodeId}

theorem under_put_of_page (away : ¬document.OnPage page.id node.id) {distance : Nat}
    {lower : NodeId} (under : Under document page.id distance lower) :
    Under (document.put node names) page.id distance lower := by
  induction under with
  | self => exact .self
  | @up distance lower parent step above ih =>
      have other : lower ≠ node.id := fun same => away ⟨distance + 1, same ▸ .up step above⟩
      exact .up (by rw [parent_id_put, if_neg other, step]) ih

theorem under_of_put (elsewhere : ∀ parent, node.parent? = some parent →
      ¬document.OnPage page.id parent) {distance : Nat} {lower : NodeId}
    (under : Under (document.put node names) page.id distance lower) :
    Under document page.id distance lower := by
  induction under with
  | self => exact .self
  | @up distance lower parent step _ ih =>
      rw [parent_id_put] at step
      split at step
      · exact absurd ⟨distance, ih⟩ (elsewhere parent step)
      · exact .up step ih

/-- A node that is not on the page and does not get there leaves the page as it is. -/
theorem same_page_put (holds : document.HoldsPage page)
    (away : ¬document.OnPage page.id node.id)
    (elsewhere : ∀ parent, node.parent? = some parent → ¬document.OnPage page.id parent)
    (valid : (document.put node names).Valid) :
    SamePage document (document.put node names) page := by
  have kept {id : NodeId} (on : document.OnPage page.id id) :
      (document.put node names).get? id = document.get? id := by
    rw [get_put, if_neg]
    rintro rfl
    exact away on
  have back {id : NodeId} (on : (document.put node names).OnPage page.id id) :
      document.OnPage page.id id := by
    obtain ⟨distance, under⟩ := on
    exact ⟨distance, under_of_put elsewhere under⟩
  refine ⟨holds, ⟨valid, ?_, holds.type⟩, fun other => ⟨?_, ?_⟩⟩
  · rw [kept ⟨0, .self⟩]
    exact holds.found
  · intro held
    obtain ⟨found, distance, under⟩ := held
    have on : document.OnPage page.id other.id := ⟨distance, under⟩
    exact ⟨by rw [kept on, found], distance, under_put_of_page away under⟩
  · intro held
    obtain ⟨found, on⟩ := held
    rw [kept (back on)] at found
    exact ⟨found, back on⟩

end Put

theorem same_page_changed (holds : document.HoldsPage page) {id : NodeId} {old next : Node}
    (here : document.get? id = some old) (own : next.id = old.id)
    (placed : next.placement = old.placement) (away : ¬document.OnPage page.id id)
    (valid : (document.replace next).Valid) : SamePage document (document.replace next) page := by
  have stored : old.id = id := holds.stored here
  subst stored
  apply same_page_put holds (own ▸ away) _ valid
  intro parent step on
  obtain ⟨distance, under⟩ := on
  rw [Node.parent?, placed] at step
  have above : document.parentId? old.id = some parent := by
    rw [parent_id_of_get here]
    exact step
  exact away ⟨distance + 1, .up above under⟩

theorem not_above_page (holds : document.HoldsPage page) {id : NodeId} {node : Node}
    {placement : Placement} (here : document.get? id = some node)
    (placed : node.placement = some placement) (distance : Nat) :
    ¬Under document id (distance + 1) page.id := by
  intro under
  obtain ⟨parent, step, above⟩ := under.of_succ
  rw [parent_id_of_get holds.found] at step
  obtain ⟨place, stands, rfl⟩ := Option.map_eq_some_iff.1 step
  obtain ⟨upper, present, fits⟩ := holds.valid.fits holds.found stands
  have application : upper.type = .application := by
    rw [holds.type] at fits
    simpa [NodeType.fitsUnder, NodeType.parents] using fits
  have free {place : Placement} (lower : upper.placement = some place) : False := by
    obtain ⟨_, _, again⟩ := holds.valid.fits present lower
    rw [application] at again
    cases again
  cases distance with
  | zero =>
      rw [above.eq_of_zero, here] at present
      cases present
      exact free placed
  | succ distance =>
      obtain ⟨higher, further, _⟩ := above.of_succ
      rw [parent_id_of_get present] at further
      obtain ⟨place, lower, _⟩ := Option.map_eq_some_iff.1 further
      exact free lower

theorem same_page_remove (holds : document.HoldsPage page) {id : NodeId} {next : Document}
    (removed : document.remove id = .ok next) (away : ¬document.OnPage page.id id) :
    SamePage document next page := by
  obtain ⟨node, placement, here, placed, _⟩ := remove_ok removed
  have held {lower : NodeId} {other : Node} :=
    @get_remove document holds.valid.toWellFormed id lower next removed other
  have outside {lower : NodeId} (on : document.OnPage page.id lower) (steps : Nat) :
      ¬Under document id steps lower := by
    intro below
    obtain ⟨distance, under⟩ := on
    rcases Nat.le_total steps distance with near | far
    · obtain ⟨rest, rfl⟩ := Nat.exists_eq_add_of_le near
      exact away ⟨rest, below.of_longer under⟩
    · obtain ⟨rest, rfl⟩ := Nat.exists_eq_add_of_le far
      have above := under.of_longer below
      cases rest with
      | zero => exact away ⟨0, above.eq_of_zero ▸ .self⟩
      | succ rest => exact not_above_page holds here placed rest above
  have found := held.2 ⟨holds.found, outside ⟨0, .self⟩⟩
  refine ⟨holds, ⟨valid_remove holds.valid removed, found, holds.type⟩, fun other => ⟨?_, ?_⟩⟩
  · intro both
    obtain ⟨present, distance, under⟩ := both
    have apart := outside ⟨distance, under⟩
    exact ⟨held.2 ⟨present, apart⟩, distance,
      under_remove holds.valid.toWellFormed removed under apart⟩
  · intro both
    obtain ⟨present, distance, under⟩ := both
    exact ⟨(held.1 present).1, distance,
      under_of_removed holds.valid.toWellFormed removed under⟩

theorem same_page_apply (holds : document.HoldsPage page) {action : Action} {next : Document}
    (applied : action.apply document = .ok next)
    (outside : ∀ id ∈ action.touched, ¬document.OnPage page.id id) :
    SamePage document next page := by
  have valid := valid_apply holds.valid applied
  cases action with
  | addNode node parent slot index =>
      obtain ⟨_, absent, _, key, name, _, _, rfl⟩ := add_ok applied
      apply same_page_put holds _ _ valid
      · intro on
        obtain ⟨other, present⟩ := present_of_on_page holds on
        rw [absent] at present
        cases present
      · intro upper step
        cases step
        exact outside _ List.mem_cons_self
  | moveNode id parent slot index =>
      obtain ⟨node, above, key, here, _, _, _, _, _, rfl⟩ := move_ok applied
      have own : node.id = id := holds.stored here
      apply same_page_put holds _ _ valid
      · exact own ▸ outside _ List.mem_cons_self
      · intro upper step
        cases step
        exact outside _ (List.mem_cons_of_mem _ List.mem_cons_self)
  | removeNode id => exact same_page_remove holds applied (outside _ List.mem_cons_self)
  | setNodeName id name =>
      obtain ⟨node, here, ⟨_, rfl⟩ | rfl⟩ := rename_ok applied
      · exact .refl holds
      · exact same_page_changed holds here rfl rfl (outside _ List.mem_cons_self) valid
  | setValue id space name value =>
      obtain ⟨node, change, here, rfl⟩ := set_value_ok applied
      apply same_page_changed holds here _ _ (outside _ List.mem_cons_self) valid
      · cases space <;> rfl
      · cases space <;> rfl
  | setPageState id slot value =>
      obtain ⟨node, change, here, rfl⟩ := set_page_state_ok applied
      exact same_page_changed holds here rfl rfl (outside _ List.mem_cons_self) valid
  | removePageState id slot =>
      obtain ⟨node, change, here, rfl⟩ := remove_page_state_ok applied
      exact same_page_changed holds here rfl rfl (outside _ List.mem_cons_self) valid

theorem same_page_run (holds : document.HoldsPage page) {actions : List Action}
    (outside : ∀ action ∈ actions, ∀ id ∈ action.touched,
      id ∉ PageView.nodesInside document page) : SamePage document (document.run actions) page := by
  induction actions generalizing document with
  | nil => exact .refl holds
  | cons action actions ih =>
      have first : SamePage document (document.step action) page := by
        unfold step
        split
        · rename_i next applied
          exact same_page_apply holds applied fun id touched =>
            not_on_page holds (outside action List.mem_cons_self id touched)
        · exact .refl holds
      apply first.trans (ih first.there _)
      intro later member id touched inside
      exact outside later (List.mem_cons_of_mem _ member) id touched (first.symm.inside_of inside)

end Document

end PageBuilder
