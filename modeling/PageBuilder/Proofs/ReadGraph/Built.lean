import PageBuilder.Proofs.ReadGraph

/-!
Graphs that are built from nodes and reads, put in one by one. What their order says is told by what
was put in: there is one unless some node reads itself, be it through others, and nodes stay in the
order in which they came where each came after all that it reads.
-/

namespace PageBuilder

open Relation (TransGen)

universe u

variable {Key : Type u}

inductive GraphStep (Key : Type u) where
  | node (key : Key)
  | read (reader read : Key)

/-- A reader comes before what it reads, if both are new. -/
def GraphStep.keys : GraphStep Key → List Key
  | .node key => [key]
  | .read reader target => [reader, target]

def ReadStep (steps : List (GraphStep Key)) (reader read : Key) : Prop :=
  .read reader read ∈ steps

namespace ReadGraph

variable [DecidableEq Key] {graph : ReadGraph Key}

/-- A walk through nodes, one after another, and through all that they read. It ends with the nodes
that are done by then, or with a cycle. -/
inductive Walk (graph : ReadGraph Key) :
    List Key → List Key → List Key → Except (ReadCycle Key) (List Key) → Prop
  | ended {visiting done : List Key} : Walk graph visiting done [] (.ok done)
  | again {visiting done rest : List Key} {node : Key} (round : node ∈ visiting) :
      Walk graph visiting done (node :: rest) (.error (cycleAt visiting node))
  | known {visiting done rest : List Key} {node : Key}
      {result : Except (ReadCycle Key) (List Key)} (apart : node ∉ visiting)
      (before : node ∈ done) (others : Walk graph visiting done rest result) :
      Walk graph visiting done (node :: rest) result
  | stuck {visiting done rest : List Key} {node : Key} {cycle : ReadCycle Key}
      (apart : node ∉ visiting) (fresh : node ∉ done)
      (reads : Walk graph (node :: visiting) done (graph.reads node) (.error cycle)) :
      Walk graph visiting done (node :: rest) (.error cycle)
  | through {visiting done middle rest : List Key} {node : Key}
      {result : Except (ReadCycle Key) (List Key)} (apart : node ∉ visiting) (fresh : node ∉ done)
      (reads : Walk graph (node :: visiting) done (graph.reads node) (.ok middle))
      (others : Walk graph visiting (middle ++ [node]) rest result) :
      Walk graph visiting done (node :: rest) result

variable {visiting done nodes : List Key} {fuel : Nat}

theorem Walk.unique {first second : Except (ReadCycle Key) (List Key)}
    (left : Walk graph visiting done nodes first)
    (right : Walk graph visiting done nodes second) : first = second := by
  induction left generalizing second with
  | ended =>
      cases right
      rfl
  | again round =>
      cases right with
      | again _ => rfl
      | known apart _ _ => exact absurd round apart
      | stuck apart _ _ => exact absurd round apart
      | through apart _ _ _ => exact absurd round apart
  | known apart before _ ih =>
      cases right with
      | again round => exact absurd round apart
      | known _ _ others => exact ih others
      | stuck _ fresh _ => exact absurd before fresh
      | through _ fresh _ _ => exact absurd before fresh
  | stuck apart fresh _ ih =>
      cases right with
      | again round => exact absurd round apart
      | known _ before _ => exact absurd before fresh
      | stuck _ _ reads => exact ih reads
      | through _ _ reads _ => exact absurd (ih reads) (by simp)
  | through apart fresh _ _ readsIh othersIh =>
      cases right with
      | again round => exact absurd round apart
      | known _ before _ => exact absurd before fresh
      | stuck _ _ reads => exact absurd (readsIh reads) (by simp)
      | through _ _ reads others =>
          cases readsIh reads
          exact othersIh others

/-- The nodes being visited are distinct nodes of the graph, so the fuel outlasts them. -/
theorem walk_of_visits (closed : graph.Closed) (inside : visiting ⊆ graph.keys)
    (distinct : visiting.Nodup) (enough : graph.nodes.length < visiting.length + fuel)
    (members : nodes ⊆ graph.keys) :
    Walk graph visiting done nodes (nodes.foldlM (graph.visit visiting fuel) done) := by
  -- The fuel goes down on the way to what a node reads, and inside of that the list does.
  induction fuel generalizing visiting done nodes with
  | zero =>
      have bound : visiting.length ≤ graph.keys.length := (distinct.subperm inside).length_le
      rw [keys, List.length_map] at bound
      omega
  | succ fuel deeper =>
      induction nodes generalizing done with
      | nil => exact .ended
      | cons node rest next =>
          have here : node ∈ graph.keys := members List.mem_cons_self
          have others := List.subset_of_cons_subset members
          rw [List.foldlM_cons, visit]
          split
          · rename_i round
            exact .again round
          · rename_i apart
            split
            · rename_i before
              exact .known apart before (next others)
            · rename_i fresh
              have reads : Walk graph (node :: visiting) done (graph.reads node)
                  ((graph.reads node).foldlM (graph.visit (node :: visiting) fuel) done) := by
                apply deeper
                · exact List.cons_subset.2 ⟨here, inside⟩
                · exact List.nodup_cons.2 ⟨apart, distinct⟩
                · rw [List.length_cons]
                  omega
                · exact closed node
              cases found :
                  (graph.reads node).foldlM (graph.visit (node :: visiting) fuel) done with
              | error cycle =>
                  rw [found] at reads
                  exact .stuck apart fresh reads
              | ok middle =>
                  rw [found] at reads
                  exact .through apart fresh reads (next others)

theorem walk_iff_order (closed : graph.Closed) {result : Except (ReadCycle Key) (List Key)} :
    Walk graph [] [] graph.keys result ↔ graph.order = result := by
  have walk : Walk graph [] [] graph.keys graph.order := by
    apply walk_of_visits closed (List.nil_subset _) List.nodup_nil
    · simp
    · exact List.Subset.refl _
  constructor
  · intro other
    exact walk.unique other
  · intro same
    rwa [same] at walk

theorem visits_done (apart : ∀ read ∈ nodes, read ∉ visiting) (before : nodes ⊆ done) :
    nodes.foldlM (graph.visit visiting (fuel + 1)) done = .ok done := by
  induction nodes with
  | nil => rfl
  | cons read rest ih =>
      rw [List.foldlM_cons, visit, if_neg (apart read List.mem_cons_self),
        if_pos (before List.mem_cons_self)]
      exact ih (fun other member => apart other (List.mem_cons_of_mem _ member))
        (List.subset_of_cons_subset before)

theorem visit_ready {node : Key} (fresh : node ∉ done) (ready : graph.reads node ⊆ done) :
    graph.visit [] (fuel + 2) done node = .ok (done ++ [node]) := by
  have apart : ∀ read ∈ graph.reads node, read ∉ [node] := by
    intro read member here
    rw [List.mem_singleton.1 here] at member
    exact fresh (ready member)
  rw [visit, if_neg List.not_mem_nil, if_neg fresh, visits_done apart ready]
  rfl

theorem order_of_ready (distinct : graph.keys.Nodup)
    (ready : ∀ before key after, graph.keys = before ++ key :: after →
      graph.reads key ⊆ before) : graph.order = .ok graph.keys := by
  have rest : ∀ after before, graph.keys = before ++ after →
      after.foldlM (graph.visit [] (graph.nodes.length + 1)) before = .ok graph.keys := by
    intro after
    induction after with
    | nil =>
        intro before split
        rw [split, List.append_nil]
        rfl
    | cons key after ih =>
        intro before split
        have fresh : key ∉ before := by
          rw [split, List.nodup_append] at distinct
          exact fun member => distinct.2.2 key member key List.mem_cons_self rfl
        have size : graph.nodes.length = before.length + after.length + 1 := by
          rw [← List.length_map Prod.fst, ← keys, split, List.length_append, List.length_cons]
          omega
        rw [List.foldlM_cons, size, visit_ready fresh (ready before key after split), ← size]
        exact ih (before ++ [key]) (by rw [split, List.append_assoc, List.singleton_append])
  exact rest graph.keys [] rfl

theorem erase_dups_snoc (keys : List Key) (key : Key) :
    (keys ++ [key]).eraseDups =
      if key ∈ keys then keys.eraseDups else keys.eraseDups ++ [key] := by
  rw [List.eraseDups_append]
  by_cases member : key ∈ keys
  · simp [List.removeAll, member]
  · simp [List.removeAll, member, List.eraseDups_cons]

theorem mem_before_iff {order before after : List Key} {earlier later : Key}
    (distinct : order.Nodup) (split : order = before ++ later :: after) :
    earlier ∈ before ↔ order.idxOf earlier < order.idxOf later := by
  have place : order.idxOf later = before.length := by
    have fresh : later ∉ before := by
      rw [split, List.nodup_append] at distinct
      exact fun member => distinct.2.2 later member later List.mem_cons_self rfl
    rw [split, List.idxOf_append_of_notMem fresh, List.idxOf_cons_self, Nat.add_zero]
  rw [place]
  by_cases member : earlier ∈ before
  · have bound := List.idxOf_lt_length_of_mem member
    rw [split, List.idxOf_append_of_mem member]
    exact iff_of_true member bound
  · rw [split, List.idxOf_append_of_notMem member]
    exact iff_of_false member (by omega)

theorem erase_dups_nodup (keys : List Key) : keys.eraseDups.Nodup := by
  induction keys using List.reverseRecOn with
  | nil => exact List.nodup_nil
  | append_singleton keys key ih =>
      rw [erase_dups_snoc]
      split
      · exact ih
      · rename_i fresh
        rw [← List.mem_eraseDups] at fresh
        exact List.nodup_append.2 ⟨ih, List.nodup_singleton key, fun other member last final same =>
          fresh (List.mem_singleton.1 final ▸ same ▸ member)⟩

theorem keys_add_node (graph : ReadGraph Key) (key : Key) :
    (graph.addNode key).keys = if key ∈ graph.keys then graph.keys else graph.keys ++ [key] := by
  rw [addNode, has]
  by_cases member : key ∈ graph.keys
  · rw [if_pos (decide_eq_true member), if_pos member]
  · rw [if_neg (by simpa using member), if_neg member, keys, keys, List.map_append]
    rfl

theorem keys_add_node_of_eq {graph : ReadGraph Key} {earlier : List Key} (key : Key)
    (same : graph.keys = earlier.eraseDups) :
    (graph.addNode key).keys = (earlier ++ [key]).eraseDups := by
  rw [keys_add_node, erase_dups_snoc, same]
  simp only [List.mem_eraseDups]

section Building

variable [Ord Key]

def step (graph : ReadGraph Key) : GraphStep Key → ReadGraph Key
  | .node key => graph.addNode key
  | .read reader read => graph.addRead reader read

def build (steps : List (GraphStep Key)) : ReadGraph Key := steps.foldl step empty

def inserted (steps : List (GraphStep Key)) : List Key := (steps.flatMap GraphStep.keys).eraseDups

theorem build_snoc (steps : List (GraphStep Key)) (last : GraphStep Key) :
    build (steps ++ [last]) = (build steps).step last := by
  rw [build, List.foldl_append, ← build]
  rfl

theorem keys_build (steps : List (GraphStep Key)) : (build steps).keys = inserted steps := by
  induction steps using List.reverseRecOn with
  | nil => rfl
  | append_singleton steps last ih =>
      rw [build_snoc, inserted, List.flatMap_append, List.flatMap_singleton]
      cases last with
      | node key => exact keys_add_node_of_eq key ih
      | read reader read =>
          have both : steps.flatMap GraphStep.keys ++ [reader, read] =
              steps.flatMap GraphStep.keys ++ [reader] ++ [read] := by simp
          rw [GraphStep.keys, both]
          exact keys_add_read.trans (keys_add_node_of_eq read (keys_add_node_of_eq reader ih))

omit [Ord Key] in
/-- Steps in which one new node comes, among others that have come before, put it behind those. -/
theorem inserted_append_one {earlier later : List (GraphStep Key)} {key : Key}
    (comes : key ∈ later.flatMap GraphStep.keys) (fresh : key ∉ inserted earlier)
    (known : ∀ other ∈ later.flatMap GraphStep.keys, other = key ∨ other ∈ inserted earlier) :
    inserted (earlier ++ later) = inserted earlier ++ [key] := by
  rw [inserted, List.mem_eraseDups] at fresh
  simp only [inserted, List.mem_eraseDups] at known
  rw [inserted, inserted, List.flatMap_append, List.eraseDups_append]
  congr 1
  apply List.perm_singleton.1
  apply (List.perm_ext_iff_of_nodup (erase_dups_nodup _) (List.nodup_singleton _)).2
  intro other
  rw [List.mem_eraseDups, List.mem_singleton, List.removeAll, List.mem_filter,
    Bool.not_eq_true', ← Bool.not_eq_true, List.elem_iff]
  constructor
  · rintro ⟨listed, new⟩
    exact (known other listed).resolve_right new
  · rintro rfl
    exact ⟨comes, fresh⟩

omit [DecidableEq Key] [Ord Key] in
theorem mem_reader_keys {reader : Key × List Key} {key : Key} :
    key ∈ (GraphStep.node reader.1 :: reader.2.map (.read reader.1)).flatMap GraphStep.keys ↔
      key = reader.1 ∨ key ∈ reader.2 := by
  simp only [List.flatMap_cons, List.flatMap_map, GraphStep.keys, List.mem_append,
    List.mem_flatMap, List.mem_singleton, List.mem_pair]
  grind

omit [Ord Key] in
/-- Readers that come one by one, each with what it reads, are put in their own order if what is
read stands before its reader. -/
theorem inserted_readers {readers : List (Key × List Key)}
    (distinct : (readers.map Prod.fst).Nodup)
    (earlier : ∀ reader ∈ readers, ∀ read ∈ reader.2,
      (readers.map Prod.fst).idxOf read < (readers.map Prod.fst).idxOf reader.1) :
    inserted (readers.flatMap fun reader => .node reader.1 :: reader.2.map (.read reader.1)) =
      readers.map Prod.fst := by
  induction readers using List.reverseRecOn with
  | nil => rfl
  | append_singleton front last ih =>
      rw [List.map_append, List.map_singleton] at distinct earlier ⊢
      obtain ⟨apart, -, fresh⟩ := List.nodup_append.1 distinct
      -- No reader stands behind the last one, so all that is read stands before it.
      have listed {reader : Key × List Key} (member : reader ∈ front ++ [last]) {read : Key}
          (reads : read ∈ reader.2) : read ∈ front.map Prod.fst := by
        have ahead := earlier reader member read reads
        have held : reader.1 ∈ front.map Prod.fst ++ [last.1] := by
          simpa using List.mem_map_of_mem (f := Prod.fst) member
        have bound := List.idxOf_lt_length_of_mem held
        rw [List.length_append, List.length_singleton] at bound
        by_contra other
        rw [List.idxOf_append_of_notMem other] at ahead
        omega
      have before := ih apart fun reader member read reads => by
        have ahead := earlier reader (List.mem_append_left _ member) read reads
        rwa [List.idxOf_append_of_mem (listed (List.mem_append_left _ member) reads),
          List.idxOf_append_of_mem (List.mem_map_of_mem member)] at ahead
      rw [List.flatMap_append, List.flatMap_singleton, inserted_append_one, before]
      · exact mem_reader_keys.2 (.inl rfl)
      · rw [before]
        exact fun member => fresh _ member _ List.mem_cons_self rfl
      · intro key member
        rw [before]
        exact (mem_reader_keys.1 member).imp_right (listed List.mem_concat_self)

section Reading

variable [Std.LawfulEqOrd Key]

theorem reads_build (steps : List (GraphStep Key)) {reader read : Key} :
    (build steps).Reads reader read ↔ ReadStep steps reader read := by
  induction steps using List.reverseRecOn with
  | nil => simp [build, Reads, reads, empty, ReadStep]
  | append_singleton steps last ih =>
      rw [build_snoc, Reads, ReadStep, List.mem_append, List.mem_singleton]
      rw [Reads, ReadStep] at ih
      cases last with
      | node key =>
          rw [step, reads_add_node, ih]
          simp
      | read other target =>
          rw [step, reads_add_read]
          by_cases same : reader = other
          · rw [if_pos same, mem_insert_key, ih]
            simp [same, or_comm]
          · rw [if_neg same, ih]
            simp [same]

theorem build_closed (steps : List (GraphStep Key)) : (build steps).Closed := by
  intro reader read member
  have put : ReadStep steps reader read := (reads_build steps).1 member
  rw [keys_build, inserted, List.mem_eraseDups, List.mem_flatMap]
  exact ⟨.read reader read, put, List.mem_cons_of_mem _ (List.mem_singleton_self read)⟩

end Reading

end Building

/-- Every node that was put in once, and after all that it reads. -/
structure Sorts (steps : List (GraphStep Key)) (order : List Key) : Prop where
  once : order.Nodup
  whole : ∀ key, key ∈ order ↔ ∃ step ∈ steps, key ∈ step.keys
  after : ∀ reader read, ReadStep steps reader read → order.idxOf read < order.idxOf reader

section Order

variable [Ord Key] [Std.LawfulEqOrd Key]

theorem reads_build_eq (steps : List (GraphStep Key)) : (build steps).Reads = ReadStep steps := by
  funext reader read
  exact propext (reads_build steps)

theorem sorts_of_order {steps : List (GraphStep Key)} {order : List Key}
    (ended : (build steps).order = .ok order) : Sorts steps order := by
  obtain ⟨ordered, same⟩ := order_ok (build_closed steps) ended
  refine ⟨ordered.nodup, ?_, ?_⟩
  · intro key
    rw [same, keys_build, inserted, List.mem_eraseDups, List.mem_flatMap]
  · intro reader read put
    have step := (reads_build steps).2 put
    obtain ⟨before, after, split⟩ := List.append_of_mem ((same reader).2 (mem_keys_of_reads step))
    exact (mem_before_iff ordered.nodup split).1 (ordered.reads_before split step)

theorem order_of_inserted {steps : List (GraphStep Key)}
    (ready : ∀ reader read, ReadStep steps reader read →
      (inserted steps).idxOf read < (inserted steps).idxOf reader) :
    (build steps).order = .ok (inserted steps) := by
  have distinct : (inserted steps).Nodup := erase_dups_nodup _
  rw [← keys_build] at distinct ready ⊢
  apply order_of_ready distinct
  intro before key after split read step
  exact (mem_before_iff distinct split).2 (ready key read ((reads_build steps).1 step))

/-- A graph has an order unless something in it reads itself. The order is found by a walk that ends
by itself, keeps the nodes where they came after what they read, and otherwise tells the way from
some node back to it. -/
theorem build_order (steps : List (GraphStep Key)) (label : Key → String) :
    (∀ result, Walk (build steps) [] [] (inserted steps) result ↔
        (build steps).order = result) ∧
      ((∃ order, (build steps).order = .ok order) ↔ ∀ key, ¬TransGen (ReadStep steps) key key) ∧
      (∀ order, (build steps).order = .ok order → Sorts steps order) ∧
      ((∀ reader read, ReadStep steps reader read →
          (inserted steps).idxOf read < (inserted steps).idxOf reader) →
        (build steps).order = .ok (inserted steps)) ∧
      ∀ told, (build steps).order.mapError (ReadCycle.labelled label) = .error told →
        ∃ node between, (node :: (between ++ [node])).IsChain (ReadStep steps) ∧
          told.node = label node ∧
          told.path = label node :: (between.map label ++ [label node]) := by
  have closed := build_closed steps
  have fails := order_fails_iff closed
  rw [reads_build_eq] at fails
  refine ⟨?_, ?_, ?_, order_of_inserted, ?_⟩
  · intro result
    rw [← keys_build]
    exact walk_iff_order closed
  · constructor
    · intro ended key round
      obtain ⟨order, ended⟩ := ended
      obtain ⟨cycle, failed⟩ := fails.2 ⟨key, round⟩
      cases ended.symm.trans failed
    · intro acyclic
      cases ended : (build steps).order with
      | ok order => exact ⟨order, rfl⟩
      | error cycle =>
          obtain ⟨key, round⟩ := fails.1 ⟨cycle, ended⟩
          exact absurd round (acyclic key)
  · intro order ended
    exact sorts_of_order ended
  · intro told failed
    obtain ⟨cycle, failure, rfl⟩ := Outcome.map_error_eq_error.1 failed
    obtain ⟨⟨between, path⟩, chain⟩ := order_error closed failure
    rw [path, reads_build_eq] at chain
    refine ⟨cycle.node, between, chain, rfl, ?_⟩
    rw [ReadCycle.labelled, path, List.map_cons, List.map_append, List.map_singleton]

/-- Node 3 stands apart, 1 reads 2 and 4, and 4 reads 1 again. -/
def sampleSteps : List (GraphStep Nat) := [.node 3, .read 1 2, .read 1 4, .read 4 1]

theorem build_order_sample : Std.LawfulEqOrd Nat ∧
    (∀ order, (build sampleSteps).order ≠ .ok order) ∧
      ¬∀ key, ¬TransGen (ReadStep sampleSteps) key key := by
  have told := build_order sampleSteps toString
  have failed : (build sampleSteps).order = .error ⟨1, [1, 4, 1]⟩ := by decide
  have unordered : ∀ order, (build sampleSteps).order ≠ .ok order := by
    intro order ended
    cases failed.symm.trans ended
  refine ⟨inferInstance, unordered, ?_⟩
  intro acyclic
  obtain ⟨order, ended⟩ := told.2.1.2 acyclic
  exact unordered order ended

end Order

end ReadGraph

end PageBuilder
