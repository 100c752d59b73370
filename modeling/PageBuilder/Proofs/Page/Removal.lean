import PageBuilder.Proofs.Page.Compiler

/-!
Removing nodes takes state away from a page and adds none. What is left reads nothing that it did
not read before, also where it shared a pair that is gone, so a page that had a module still has
one.
-/

namespace PageBuilder.Document

open Relation (TransGen)

variable {document next : Document} {page : Node} {schema : PropSchema} {gone : NodeId}

theorem get_of_removed (valid : document.Valid) (removed : document.remove gone = .ok next)
    {id : NodeId} {node : Node} (found : next.get? id = some node) :
    document.get? id = some node :=
  ((get_remove valid.toWellFormed removed).1 found).1

theorem mem_all_nodes_of_removed (valid : document.Valid)
    (removed : document.remove gone = .ok next) {node : Node} (member : node ∈ next.allNodes) :
    node ∈ document.allNodes := by
  obtain ⟨id, found⟩ := mem_all_nodes.1 member
  exact mem_all_nodes.2 ⟨id, get_of_removed valid removed found⟩

theorem shown_of_removed (valid : document.Valid) (removed : document.remove gone = .ok next)
    {id : NodeId} {element : Node} (shown : next.Shown id element) : document.Shown id element := by
  obtain ⟨level, nested⟩ := shown
  refine ⟨level, ?_⟩
  induction nested with
  | top member type =>
      obtain ⟨listed, stands⟩ := mem_children_in.1 member
      have before := mem_all_nodes_of_removed valid removed listed
      exact .top (mem_children_in.2 ⟨before, stands⟩) type
  | inner _ child type ih =>
      obtain ⟨listed, placed⟩ := mem_children.1 child
      have before := mem_all_nodes_of_removed valid removed listed
      exact .inner ih (mem_children.2 ⟨before, placed⟩) type

theorem Controls.of_removed (valid : document.Valid) (removed : document.remove gone = .ok next)
    {element : Node} {component prop : String}
    (controls : Controls next page schema element component prop) :
    Controls document page schema element component prop :=
  { controls with shown := shown_of_removed valid removed controls.shown }

theorem HasState.of_removed (valid : document.Valid) (removed : document.remove gone = .ok next)
    {key : StateKey} (state : HasState next page schema key) :
    HasState document page schema key := by
  cases state with
  | slot held listed => exact .slot held listed
  | node found child type =>
      have parent := parent_id_of_removed valid.toWellFormed removed child
      exact .node (get_of_removed valid removed found) parent type
  | prop controls => exact .prop (controls.of_removed valid removed)

theorem Refers.of_removed (valid : document.Valid) (removed : document.remove gone = .ok next)
    {reference : Reference} {key : StateKey} {path : List PathSegment}
    (refers : Refers next page schema reference key path) :
    Refers document page schema reference key path := by
  cases refers with
  | node found state =>
      exact .node (get_of_removed valid removed found) (state.of_removed valid removed)
  | pair found pair state =>
      exact .pair (get_of_removed valid removed found) pair (state.of_removed valid removed)

theorem ValueReads.of_removed (valid : document.Valid) (removed : document.remove gone = .ok next)
    {value : Bindable} {key : StateKey} (reads : ValueReads next page schema value key) :
    ValueReads document page schema value key := by
  cases reads with
  | binding state address => exact .binding (state.of_removed valid removed) address
  | interpolation written refers => exact .interpolation written (refers.of_removed valid removed)

theorem Shares.of_removed (valid : document.Valid) (removed : document.remove gone = .ok next)
    {key target : StateKey} (shares : Shares next page schema key target) :
    Shares document page schema key target := by
  cases shares with
  | bound controls given state pair address other =>
      exact .bound (controls.of_removed valid removed) given (state.of_removed valid removed) pair
        address other

theorem Shares.eq_of_value_reads (holds : document.HoldsPage page) {element : Node} {prop : String}
    {value : Bindable} {pair target : StateKey}
    (shares : Shares document page schema (.prop element.id prop) pair)
    (shown : document.Shown page.id element) (given : element.Gives prop value)
    (reads : ValueReads document page schema value target) : pair = target := by
  generalize same : StateKey.prop element.id prop = key at shares
  cases shares with
  | @bound other _ name pair id slot controls gives state _ address =>
      obtain ⟨own, rfl⟩ := StateKey.prop.inj same
      cases shown.eq_of_same_id holds.stored controls.shown own
      cases given.unique gives
      cases reads with
      | binding read there =>
          have first := (target_iff holds).2 ⟨state, address⟩
          have second := (target_iff holds).2 ⟨read, there⟩
          exact Option.some.inj (first.symm.trans second)

/-- A prop whose pair is gone may become computed, but what its value still names is the pair. -/
theorem Reads.of_removed (holds : document.HoldsPage page)
    (removed : document.remove gone = .ok next) {key target : StateKey}
    (reads : Reads next page schema key target) : Reads document page schema key target := by
  have valid := holds.valid
  cases reads with
  | shared shares => exact .shared (shares.of_removed valid removed)
  | param found state held listed reads =>
      exact .param (get_of_removed valid removed found) (state.of_removed valid removed) held listed
        (reads.of_removed valid removed)
  | @computed element component prop value target controls given _ reads =>
      have before := controls.of_removed valid removed
      have read := reads.of_removed valid removed
      -- A prop may share a pair before the removal and not after it. Its value names that pair in
      -- both cases, so it is read before as well.
      by_cases shared : ∃ pair, Shares document page schema (.prop element.id prop) pair
      · obtain ⟨pair, shares⟩ := shared
        rw [← shares.eq_of_value_reads holds before.shown given read]
        exact .shared shares
      · exact .computed before given shared read

theorem cycle_of_removed (holds : document.HoldsPage page)
    (removed : document.remove gone = .ok next) {key : StateKey}
    (round : TransGen (Reads next page schema) key key) :
    TransGen (Reads document page schema) key key := by
  have fewer : Reads next page schema ≤ Reads document page schema :=
    fun _ _ reads => Reads.of_removed holds removed reads
  exact TransGen.mono fewer key key round

theorem get_kept (valid : document.Valid) (removed : document.remove gone = .ok next) {id : NodeId}
    {node : Node} (found : document.get? id = some node) (other : gone ≠ id)
    (below : ∀ above ∈ document.ancestors id, above.id ≠ gone) : next.get? id = some node := by
  refine (get_remove valid.toWellFormed removed).2 ⟨found, ?_⟩
  intro distance under
  cases distance with
  | zero => exact other under.eq_of_zero.symm
  | succ distance =>
      obtain ⟨top, _, here, _⟩ := remove_ok removed
      have own : top.id = gone := valid.stored here
      subst own
      have member := (mem_ancestors_iff valid.stored valid.rooted found).2 ⟨here, distance, under⟩
      exact below top member rfl

/-- A page with a module keeps one when nodes are removed, unless it is removed itself; and
whichever pages are left, none of them has state that reads itself because of the removal. -/
theorem compile_page_after_removal (valid : document.Valid)
    (removed : document.remove gone = .ok next) (catalog : Catalog) (options : CompileOptions) :
    (∀ page : Node, next.get? page.id = some page → page.type = .page → ∀ key target,
      (Reads next page catalog.schema key target → Reads document page catalog.schema key target) ∧
      (TransGen (Reads next page catalog.schema) key key →
        TransGen (Reads document page catalog.schema) key key)) ∧
    ∀ (id : NodeId) (compiled : CompiledPage), gone ≠ id →
      (∀ above ∈ document.ancestors id, above.id ≠ gone) →
      document.compilePage id catalog options = .ok compiled →
        ∃ after, next.compilePage id catalog options = .ok after := by
  constructor
  · intro page found type key target
    have holds : document.HoldsPage page := ⟨valid, get_of_removed valid removed found, type⟩
    exact ⟨fun reads => reads.of_removed holds removed, cycle_of_removed holds removed⟩
  · intro id compiled other below done
    have later := valid_remove valid removed
    obtain ⟨page, _, known, _⟩ := compile_page_ok done
    obtain ⟨holds, own⟩ := holds_page valid known
    subst own
    have found := get_kept valid removed holds.found other below
    -- A page that is there can only fail with a cycle, and a cycle would have been there before.
    cases result : next.compilePage page.id catalog options with
    | ok after => exact ⟨after, rfl⟩
    | error fault =>
        rcases (compile_page_error_iff later).1 result with missing | circling
        · obtain ⟨lookup, failure, _⟩ := missing
          rw [node_of_type_ok.2 ⟨found, holds.type⟩] at failure
          cases failure
        · obtain ⟨same, cycle, again, ended, rfl⟩ := circling
          rw [node_of_type_ok.2 ⟨found, holds.type⟩] at again
          cases again
          obtain ⟨key, round⟩ :=
            (graph_order_fails_iff ⟨later, found, holds.type⟩).1 ⟨cycle, ended⟩
          have before := cycle_of_removed holds removed round
          obtain ⟨_, failure⟩ := (compile_page_cycle_iff valid).2
            ⟨page, holds.found, holds.type, key, before⟩
          exact absurd (done.symm.trans failure) (by simp)

/-- The inner field owns the pair that the outer one shares. -/
def borrowingPage : Document :=
  (ofRoot "r").run (sampleFields (.binding "b" "value") (.const .null))

theorem compile_page_after_removal_sample :
    borrowingPage.Valid ∧ ∃ page next compiled after,
      borrowingPage.get? "p" = some page ∧
      ((PageView.of borrowingPage page Catalog.builtin.schema).owner? (.prop "a" "value") =
        some (.prop "b" "value")) ∧
      borrowingPage.remove "b" = .ok next ∧ "b" ≠ "p" ∧
      (∀ above ∈ borrowingPage.ancestors "p", above.id ≠ "b") ∧
      borrowingPage.compilePage "p" Catalog.builtin ⟨false, false, "runtime"⟩ = .ok compiled ∧
      next.compilePage "p" Catalog.builtin ⟨false, false, "runtime"⟩ = .ok after := by
  have valid : borrowingPage.Valid := valid_run (valid_of_root "r") _
  have shared : (borrowingPage.get? "p").bind (fun page =>
      (PageView.of borrowingPage page Catalog.builtin.schema).owner? (.prop "a" "value")) =
        some (.prop "b" "value") := by
    decide +kernel
  obtain ⟨page, found, owner⟩ := Option.bind_eq_some_iff.1 shared
  have goes : (borrowingPage.remove "b").map Document.size = .ok 4 := by decide +kernel
  obtain ⟨next, removed, _⟩ := Outcome.map_eq_ok.1 goes
  have named : (borrowingPage.compilePage "p" Catalog.builtin ⟨false, false, "runtime"⟩).map
      CompiledPage.component = .ok "Home" := by
    decide +kernel
  obtain ⟨compiled, done, _⟩ := Outcome.map_eq_ok.1 named
  have below : ∀ above ∈ borrowingPage.ancestors "p", above.id ≠ "b" := by decide +kernel
  obtain ⟨after, later⟩ := (compile_page_after_removal valid removed Catalog.builtin
    ⟨false, false, "runtime"⟩).2 "p" compiled (by decide) below done
  exact ⟨valid, page, next, compiled, after, found, owner, removed, by decide, below, done, later⟩

end PageBuilder.Document
