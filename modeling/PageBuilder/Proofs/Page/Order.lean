import PageBuilder.Proofs.Page.View
import PageBuilder.Proofs.ReadGraph

/-!
The order in which the state of a page is declared. The graph that is walked has the reads of the
page, so the walk fails exactly where state reads itself; where it ends, every shared pair leads to
the state that owns it.
-/

namespace PageBuilder

open Relation (ReflTransGen TransGen)

theorem StateKey.compare_eq_iff {left right : StateKey} : compare left right = .eq ↔
    left.rank = right.rank ∧ left.first = right.first ∧ left.second = right.second := by
  have parts : compare left right = (compare left.rank right.rank).then
      ((compare left.first right.first).then (compare left.second right.second)) := rfl
  rw [parts, Ordering.then_eq_eq, Ordering.then_eq_eq, Std.LawfulEqOrd.compare_eq_iff_eq,
    Std.LawfulEqOrd.compare_eq_iff_eq, Std.LawfulEqOrd.compare_eq_iff_eq]

instance : Std.LawfulEqOrd StateKey where
  compare_self := StateKey.compare_eq_iff.2 ⟨rfl, rfl, rfl⟩
  eq_of_compare := by
    intro left right same
    have parts := StateKey.compare_eq_iff.1 same
    cases left
    all_goals cases right
    all_goals simp_all [StateKey.rank, StateKey.first, StateKey.second]

namespace Document

variable {document : Document} {page : Node} {schema : PropSchema}

theorem graph_reads_iff (holds : document.HoldsPage page) {key target : StateKey} :
    (PageView.of document page schema).graph.Reads key target ↔
      Reads document page schema key target := by
  refine ReadGraph.reads_foldl_read_all.trans ?_
  constructor
  · intro read
    rcases read with absent | listed
    · exact absurd absent List.not_mem_nil
    · obtain ⟨⟨held, entry⟩, member, same, reads⟩ := listed
      cases same
      exact (mem_entry_reads_iff holds ((mem_entries_iff holds).1 member)).1 reads
  · intro read
    obtain ⟨entry, entered⟩ := has_state_iff.1 read.states.1
    exact Or.inr ⟨(key, entry), (mem_entries_iff holds).2 entered, rfl,
      (mem_entry_reads_iff holds entered).2 read⟩

theorem mem_graph_keys_iff (holds : document.HoldsPage page) {key : StateKey} :
    key ∈ (PageView.of document page schema).graph.keys ↔ HasState document page schema key := by
  refine ReadGraph.keys_foldl_read_all.trans ?_
  constructor
  · intro member
    rcases member with absent | listed
    · exact absurd absent List.not_mem_nil
    · obtain ⟨⟨held, entry⟩, member, here⟩ := listed
      have entered := (mem_entries_iff holds).1 member
      rcases here with rfl | reads
      · exact has_state_iff.2 ⟨entry, entered⟩
      · exact ((mem_entry_reads_iff holds entered).1 reads).states.2
  · intro state
    obtain ⟨entry, entered⟩ := has_state_iff.1 state
    exact Or.inr ⟨(key, entry), (mem_entries_iff holds).2 entered, Or.inl rfl⟩

theorem graph_closed (holds : document.HoldsPage page) :
    (PageView.of document page schema).graph.Closed := by
  intro reader read step
  exact (mem_graph_keys_iff holds).2 ((graph_reads_iff holds).1 step).states.2

/-- The state of a page can be ordered unless some of it reads itself, be it through other state. -/
theorem graph_order_fails_iff (holds : document.HoldsPage page) :
    (∃ cycle, (PageView.of document page schema).graph.order = .error cycle) ↔
      ∃ key, TransGen (Reads document page schema) key key := by
  have same : (PageView.of document page schema).graph.Reads = Reads document page schema := by
    funext key target
    exact propext (graph_reads_iff holds)
  rw [ReadGraph.order_fails_iff (graph_closed holds), same]

theorem OwnedBy.unique (holds : document.HoldsPage page) {key left right : StateKey}
    (first : OwnedBy document page schema key left)
    (second : OwnedBy document page schema key right) : left = right := by
  obtain ⟨way, _, ends⟩ := first
  induction way using ReflTransGen.head_induction_on with
  | refl =>
      rcases ReflTransGen.cases_head second.way with same | more
      · exact same
      · obtain ⟨next, shares, _⟩ := more
        exact absurd ⟨next, shares⟩ ends
  | head shares _ ih =>
      rcases ReflTransGen.cases_head second.way with same | more
      · exact absurd ⟨_, shares⟩ (same ▸ second.owns)
      · obtain ⟨next, again, rest⟩ := more
        rw [again.unique holds shares] at rest
        exact ih ⟨rest, second.state, second.owns⟩

theorem OwnedBy.self {key : StateKey} (state : HasState document page schema key)
    (owns : ¬∃ target, Shares document page schema key target) :
    OwnedBy document page schema key key :=
  ⟨.refl, state, owns⟩

theorem owned_by_of_owner (holds : document.HoldsPage page) {steps : Nat} {key owner : StateKey}
    (found : (PageView.of document page schema).ownerWithin? steps key = some owner) :
    OwnedBy document page schema key owner := by
  induction steps generalizing key with
  | zero => cases found
  | succ steps ih =>
      rw [PageView.ownerWithin?] at found
      split at found
      · cases found
      · rename_i target here
        have shares := (shares_iff holds).1 ((entry_iff holds).1 here)
        obtain ⟨way, state, owns⟩ := ih found
        exact ⟨.head shares way, state, owns⟩
      · rename_i entry owns here
        cases found
        have entered := (entry_iff holds).1 here
        apply OwnedBy.self (has_state_iff.2 ⟨entry, entered⟩)
        apply entered.not_shared holds
        intro target same
        exact owns target same

theorem owner_within_order (holds : document.HoldsPage page) {done : List StateKey}
    (ordered : ReadGraph.Ordered (PageView.of document page schema).graph done) {steps : Nat}
    (enough : done.length ≤ steps) {key : StateKey} (member : key ∈ done)
    (state : HasState document page schema key) :
    ∃ owner, (PageView.of document page schema).ownerWithin? steps key = some owner := by
  induction ordered generalizing steps key with
  | nil => exact absurd member List.not_mem_nil
  | @snoc done last before fresh ready ih =>
      rw [List.length_append, List.length_singleton] at enough
      rcases List.mem_append.1 member with earlier | final
      · exact ih (by omega) earlier state
      · rw [List.mem_singleton.1 final] at state ⊢
        cases steps with
        | zero => omega
        | succ steps =>
            obtain ⟨entry, entered⟩ := has_state_iff.1 state
            rw [PageView.ownerWithin?, (entry_iff holds).2 entered]
            cases entry with
            | shared target =>
                have reads : Reads document page schema last target :=
                  .shared ((shares_iff holds).1 entered)
                apply ih (by omega) (ready target ((graph_reads_iff holds).2 reads))
                exact reads.states.2
            | pageSlot | node | owned | computed => exact ⟨last, rfl⟩

/-- An order of the state of a page: all of it, each piece after what it reads. -/
theorem graph_order_ok (holds : document.HoldsPage page) {order : List StateKey}
    (ended : (PageView.of document page schema).graph.order = .ok order) :
    ReadGraph.Ordered (PageView.of document page schema).graph order ∧
      ∀ key, key ∈ order ↔ HasState document page schema key := by
  obtain ⟨ordered, same⟩ := ReadGraph.order_ok (graph_closed holds) ended
  exact ⟨ordered, fun key => (same key).trans (mem_graph_keys_iff holds)⟩

theorem owner_of_order (holds : document.HoldsPage page) {order : List StateKey}
    (ended : (PageView.of document page schema).graph.order = .ok order) {key : StateKey}
    (state : HasState document page schema key) :
    ∃ owner, (PageView.of document page schema).owner? key = some owner ∧
      OwnedBy document page schema key owner := by
  obtain ⟨ordered, same⟩ := graph_order_ok holds ended
  have inside : order ⊆ (PageView.of document page schema).keys := by
    intro other member
    exact (mem_keys_iff holds).2 ((same other).1 member)
  have bound : order.length ≤ (PageView.of document page schema).keys.length :=
    (ordered.nodup.subperm inside).length_le
  rw [PageView.keys, List.length_map] at bound
  obtain ⟨owner, found⟩ := owner_within_order holds ordered
    (Nat.le_succ_of_le bound) ((same key).2 state) state
  exact ⟨owner, found, owned_by_of_owner holds found⟩

theorem owner_iff (holds : document.HoldsPage page) {order : List StateKey}
    (ended : (PageView.of document page schema).graph.order = .ok order) {key owner : StateKey} :
    (PageView.of document page schema).owner? key = some owner ↔
      OwnedBy document page schema key owner := by
  constructor
  · exact owned_by_of_owner holds
  · intro owned
    have state : HasState document page schema key := by
      rcases ReflTransGen.cases_head owned.way with same | more
      · exact same ▸ owned.state
      · obtain ⟨next, shares, _⟩ := more
        exact (Reads.shared shares).states.1
    obtain ⟨other, found, ends⟩ := owner_of_order holds ended state
    rw [found, owned.unique holds ends]

theorem owner_before (holds : document.HoldsPage page) {before after : List StateKey}
    {key target owner : StateKey}
    (ordered : ReadGraph.Ordered (PageView.of document page schema).graph
      (before ++ key :: after))
    (reads : Reads document page schema key target)
    (owned : OwnedBy document page schema target owner) : owner ∈ before := by
  have first := ordered.reads_before rfl ((graph_reads_iff holds).2 reads)
  apply ordered.of_append.reaches_mem first
  apply ReflTransGen.mono _ target owner owned.way
  intro lower upper shares
  exact (graph_reads_iff holds).2 (.shared shares)

end Document

end PageBuilder
