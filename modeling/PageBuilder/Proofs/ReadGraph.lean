import PageBuilder.Proofs.Outcome
import PageBuilder.ReadGraph
import Mathlib.Data.List.Chain
import Mathlib.Data.List.Nodup
import Mathlib.Data.List.Perm.Subperm
import Mathlib.Logic.Relation

/-!
Walks through a graph of reads. A walk that ends gives an order in which every node comes after all
that it reads, and one that fails has found a way round; so it ends exactly where there is none.
-/

namespace PageBuilder

open Relation (ReflTransGen TransGen)

universe u

variable {Key : Type u} [DecidableEq Key] {graph : ReadGraph Key}

namespace ReadGraph

def Closed (graph : ReadGraph Key) : Prop :=
  ∀ reader, ∀ read ∈ graph.reads reader, read ∈ graph.keys

def Reads (graph : ReadGraph Key) (reader read : Key) : Prop := read ∈ graph.reads reader

/-- Each node once, and after all that it reads. -/
inductive Ordered (graph : ReadGraph Key) : List Key → Prop
  | nil : Ordered graph []
  | snoc {done : List Key} {key : Key} (before : Ordered graph done) (fresh : key ∉ done)
      (ready : ∀ read ∈ graph.reads key, read ∈ done) : Ordered graph (done ++ [key])

namespace Ordered

variable {done : List Key} {key read : Key}

theorem nodup (ordered : Ordered graph done) : done.Nodup := by
  induction ordered with
  | nil => exact List.nodup_nil
  | snoc _ fresh _ ih =>
      rw [List.nodup_append]
      refine ⟨ih, List.nodup_singleton _, ?_⟩
      intro earlier member later last same
      rw [List.mem_singleton.1 last] at same
      exact fresh (same ▸ member)

theorem of_append {before after : List Key} (ordered : Ordered graph (before ++ after)) :
    Ordered graph before := by
  induction after using List.reverseRecOn with
  | nil => rwa [List.append_nil] at ordered
  | append_singleton after last ih =>
      apply ih
      generalize whole : before ++ (after ++ [last]) = done at ordered
      cases ordered with
      | nil => simp at whole
      | snoc earlier fresh ready =>
          rw [← List.append_assoc] at whole
          rw [(List.append_inj' whole rfl).1]
          exact earlier

theorem reads_before (ordered : Ordered graph done) {before after : List Key}
    (split : done = before ++ key :: after) (step : graph.Reads key read) : read ∈ before := by
  induction ordered generalizing after with
  | nil => simp at split
  | @snoc done last _ fresh ready ih =>
      rcases List.eq_nil_or_concat after with empty | longer
      · subst empty
        obtain ⟨same, tail⟩ := List.append_inj' split rfl
        cases tail
        exact same ▸ ready read step
      · obtain ⟨after, final, rfl⟩ := longer
        rw [List.concat_eq_append, ← List.cons_append, ← List.append_assoc] at split
        exact ih (List.append_inj' split rfl).1

theorem reads_mem (ordered : Ordered graph done) (member : key ∈ done)
    (step : graph.Reads key read) : read ∈ done := by
  obtain ⟨before, after, split⟩ := List.append_of_mem member
  rw [split]
  exact List.mem_append_left _ (ordered.reads_before split step)

theorem reaches_mem (ordered : Ordered graph done) (member : key ∈ done)
    (steps : ReflTransGen graph.Reads key read) : read ∈ done := by
  induction steps with
  | refl => exact member
  | tail _ step ih => exact ordered.reads_mem ih step

theorem acyclic (ordered : Ordered graph done) (member : key ∈ done) :
    ¬TransGen graph.Reads key key := by
  induction ordered with
  | nil => exact absurd member List.not_mem_nil
  | @snoc done last before fresh ready ih =>
      intro round
      rcases List.mem_append.1 member with earlier | final
      · exact ih earlier round
      · rw [List.mem_singleton.1 final] at round
        obtain ⟨read, step, rest⟩ := TransGen.head'_iff.1 round
        exact fresh (before.reaches_mem (ready read step) rest)

end Ordered

/-- What a walk does to the nodes that are done. -/
structure Grows (graph : ReadGraph Key) (visiting done after : List Key) : Prop where
  ordered : Ordered graph after
  kept : done ⊆ after
  apart : ∀ key ∈ after, key ∈ done ∨ key ∉ visiting
  inside : ∀ key ∈ after, key ∈ done ∨ key ∈ graph.keys

variable {visiting done after nodes : List Key} {node : Key} {fuel : Nat}

theorem Grows.refl (ordered : Ordered graph done) : Grows graph visiting done done :=
  ⟨ordered, List.Subset.refl done, fun _ member => Or.inl member, fun _ member => Or.inl member⟩

theorem Grows.trans {middle : List Key} (first : Grows graph visiting done middle)
    (second : Grows graph visiting middle after) : Grows graph visiting done after := by
  refine ⟨second.ordered, List.Subset.trans first.kept second.kept, ?_, ?_⟩
  · intro key member
    rcases second.apart key member with earlier | new
    · exact first.apart key earlier
    · exact Or.inr new
  · intro key member
    rcases second.inside key member with earlier | new
    · exact first.inside key earlier
    · exact Or.inr new

theorem visits_ok
    (visit : ∀ {done node after}, Ordered graph done → node ∈ graph.keys →
      graph.visit visiting fuel done node = .ok after →
      Grows graph visiting done after ∧ node ∈ after)
    (ordered : Ordered graph done) (inside : nodes ⊆ graph.keys)
    (ended : nodes.foldlM (graph.visit visiting fuel) done = .ok after) :
    Grows graph visiting done after ∧ nodes ⊆ after := by
  induction nodes generalizing done with
  | nil =>
      cases ended
      exact ⟨.refl ordered, List.nil_subset _⟩
  | cons node rest ih =>
      rw [List.foldlM_cons, Outcome.bind_eq_ok] at ended
      obtain ⟨middle, first, others⟩ := ended
      obtain ⟨grows, here⟩ := visit ordered (inside List.mem_cons_self) first
      obtain ⟨further, covered⟩ := ih grows.ordered (List.subset_of_cons_subset inside) others
      exact ⟨grows.trans further, List.cons_subset.2 ⟨further.kept here, covered⟩⟩

theorem visit_ok (closed : graph.Closed) (ordered : Ordered graph done)
    (inside : node ∈ graph.keys) (ended : graph.visit visiting fuel done node = .ok after) :
    Grows graph visiting done after ∧ node ∈ after := by
  induction fuel generalizing visiting done node after with
  | zero =>
      rw [visit] at ended
      cases ended
  | succ fuel ih =>
      rw [visit] at ended
      split at ended
      · cases ended
      · rename_i notVisiting
        split at ended
        · rename_i already
          cases ended
          exact ⟨.refl ordered, already⟩
        · rename_i notDone
          rw [Outcome.bind_eq_ok] at ended
          obtain ⟨middle, reads, last⟩ := ended
          cases last
          obtain ⟨grows, ready⟩ := visits_ok ih ordered (closed node) reads
          -- What a node reads is finished before it, but does not finish the node itself.
          have fresh : node ∉ middle := by
            intro member
            rcases grows.apart node member with earlier | new
            · exact notDone earlier
            · exact new List.mem_cons_self
          refine ⟨⟨.snoc grows.ordered fresh ready, ?_, ?_, ?_⟩,
            List.mem_append_right _ (List.mem_singleton_self node)⟩
          · exact List.Subset.trans grows.kept (List.subset_append_left _ _)
          · intro key member
            rcases List.mem_append.1 member with earlier | final
            · exact (grows.apart key earlier).imp id
                fun new visited => new (List.mem_cons_of_mem _ visited)
            · rw [List.mem_singleton.1 final]
              exact Or.inr notVisiting
          · intro key member
            rcases List.mem_append.1 member with earlier | final
            · exact grows.inside key earlier
            · rw [List.mem_singleton.1 final]
              exact Or.inr inside

theorem order_ok (closed : graph.Closed) {order : List Key} (ended : graph.order = .ok order) :
    Ordered graph order ∧ ∀ key, key ∈ order ↔ key ∈ graph.keys := by
  obtain ⟨grows, covered⟩ :=
    visits_ok (visit_ok closed) .nil (List.Subset.refl graph.keys) ended
  refine ⟨grows.ordered, fun key => ⟨fun member => ?_, fun member => covered member⟩⟩
  exact (grows.inside key member).resolve_left List.not_mem_nil

/-- Steps that lead from the node of a cycle back to it. -/
structure IsCycle (graph : ReadGraph Key) (cycle : ReadCycle Key) : Prop where
  ends : ∃ between, cycle.path = cycle.node :: (between ++ [cycle.node])
  steps : cycle.path.IsChain graph.Reads

theorem IsCycle.round {cycle : ReadCycle Key} (found : IsCycle graph cycle) :
    TransGen graph.Reads cycle.node cycle.node := by
  obtain ⟨between, path⟩ := found.ends
  have steps := found.steps
  rw [path] at steps
  cases between with
  | nil => exact .single (List.isChain_pair.1 steps)
  | cons first rest =>
      have start : graph.Reads cycle.node first := steps.rel
      have last :
          (first :: (rest ++ [cycle.node])).getLast (List.cons_ne_nil _ _) = cycle.node := by
        simp
      have back := List.relationReflTransGen_of_exists_isChain_cons _ steps.tail last
      exact TransGen.head' start back

theorem chain_reads {first last : Key} {rest : List Key}
    (steps : (first :: (rest ++ [last])).IsChain graph.Reads) {key : Key}
    (member : key ∈ first :: rest) : ∃ read, graph.Reads key read := by
  induction rest generalizing first with
  | nil =>
      rw [List.mem_singleton.1 member]
      exact ⟨last, List.isChain_pair.1 steps⟩
  | cons second rest ih =>
      rcases List.mem_cons.1 member with rfl | later
      · exact ⟨second, steps.rel⟩
      · exact ih steps.tail later

theorem IsCycle.reads_of_mem {cycle : ReadCycle Key} (found : IsCycle graph cycle) {key : Key}
    (member : key ∈ cycle.path) : ∃ read, graph.Reads key read := by
  obtain ⟨between, path⟩ := found.ends
  have steps := found.steps
  rw [path] at steps member
  apply chain_reads steps
  rw [List.mem_cons, List.mem_append, List.mem_singleton] at member
  rw [List.mem_cons]
  tauto

/-- The nodes being visited, newest first: each is read by the next one. -/
def Trail (graph : ReadGraph Key) (visiting : List Key) : Prop :=
  visiting.IsChain fun later earlier => graph.Reads earlier later

theorem cycle_at_is_cycle (trail : graph.Trail (node :: visiting)) (again : node ∈ visiting) :
    IsCycle graph (cycleAt visiting node) := by
  refine ⟨⟨_, rfl⟩, ?_⟩
  obtain ⟨before, after, split, fresh⟩ := List.eq_append_cons_of_mem again
  have taken : visiting.takeWhile (fun key => key ≠ node) = before := by
    have others : ∀ key ∈ before, decide (key ≠ node) = true := by
      intro key member
      exact decide_eq_true fun same => fresh (same ▸ member)
    rw [split, List.takeWhile_append_of_pos others, List.takeWhile_cons_of_neg (by simp),
      List.append_nil]
  have path : (cycleAt visiting node).path = (node :: before ++ [node]).reverse := by
    rw [cycleAt, taken]
    simp
  rw [path, List.isChain_reverse]
  rw [Trail, split] at trail
  refine trail.prefix ⟨after, ?_⟩
  simp

theorem visits_error {cycle : ReadCycle Key}
    (failed : nodes.foldlM (graph.visit visiting fuel) done = .error cycle) :
    ∃ node ∈ nodes, ∃ done, graph.visit visiting fuel done node = .error cycle := by
  induction nodes generalizing done with
  | nil => cases failed
  | cons node rest ih =>
      rw [List.foldlM_cons, Outcome.bind_eq_error] at failed
      rcases failed with here | later
      · exact ⟨node, List.mem_cons_self, done, here⟩
      · obtain ⟨middle, _, others⟩ := later
        obtain ⟨other, member, failure⟩ := ih others
        exact ⟨other, List.mem_cons_of_mem _ member, failure⟩

/-- Fuel does not run out: the nodes being visited are distinct nodes of the graph. -/
theorem visit_error (closed : graph.Closed) {cycle : ReadCycle Key}
    (trail : graph.Trail (node :: visiting)) (inside : node :: visiting ⊆ graph.keys)
    (distinct : visiting.Nodup) (enough : graph.nodes.length < visiting.length + fuel)
    (failed : graph.visit visiting fuel done node = .error cycle) : IsCycle graph cycle := by
  induction fuel generalizing visiting done node with
  | zero =>
      have bound : visiting.length ≤ graph.keys.length :=
        (distinct.subperm (List.subset_of_cons_subset inside)).length_le
      rw [keys, List.length_map] at bound
      omega
  | succ fuel ih =>
      rw [visit] at failed
      split at failed
      · rename_i again
        cases failed
        exact cycle_at_is_cycle trail again
      · rename_i notVisiting
        split at failed
        · cases failed
        · rw [Outcome.bind_eq_error] at failed
          rcases failed with reads | last
          · obtain ⟨read, step, done, failure⟩ := visits_error reads
            apply ih _ _ _ _ failure
            · exact trail.cons_cons step
            · exact List.cons_subset.2 ⟨closed node read step, inside⟩
            · exact List.nodup_cons.2 ⟨notVisiting, distinct⟩
            · rw [List.length_cons]
              omega
          · obtain ⟨_, _, absurd⟩ := last
            cases absurd

theorem order_error (closed : graph.Closed) {cycle : ReadCycle Key}
    (failed : graph.order = .error cycle) : IsCycle graph cycle := by
  obtain ⟨node, member, done, failure⟩ := visits_error failed
  apply visit_error closed _ _ List.nodup_nil _ failure
  · exact List.isChain_singleton node
  · exact List.cons_subset.2 ⟨member, List.nil_subset _⟩
  · simp

theorem mem_keys_of_reads {reader read : Key} (step : graph.Reads reader read) :
    reader ∈ graph.keys := by
  rw [Reads, reads] at step
  split at step
  · rename_i entry found
    have same := List.find?_some found
    rw [decide_eq_true_eq] at same
    exact List.mem_map.2 ⟨entry, List.mem_of_find?_eq_some found, same⟩
  · exact absurd step List.not_mem_nil

/-- There is an order unless some node reads itself, be it through others. -/
theorem order_fails_iff (closed : graph.Closed) :
    (∃ cycle, graph.order = .error cycle) ↔ ∃ key, TransGen graph.Reads key key := by
  constructor
  · intro failed
    obtain ⟨cycle, failure⟩ := failed
    exact ⟨cycle.node, (order_error closed failure).round⟩
  · intro round
    obtain ⟨key, steps⟩ := round
    cases ended : graph.order with
    | error cycle => exact ⟨cycle, rfl⟩
    | ok order =>
        obtain ⟨ordered, same⟩ := order_ok closed ended
        obtain ⟨_, step, _⟩ := TransGen.head'_iff.1 steps
        exact absurd steps (ordered.acyclic ((same key).2 (mem_keys_of_reads step)))

theorem mem_keys_add_node {key other : Key} :
    other ∈ (graph.addNode key).keys ↔ other ∈ graph.keys ∨ other = key := by
  rw [addNode]
  split
  · rename_i there
    rw [has, decide_eq_true_eq] at there
    constructor
    · exact Or.inl
    · intro member
      rcases member with earlier | rfl
      · exact earlier
      · exact there
  · rw [keys, List.map_append, List.mem_append, ← keys]
    simp

theorem reads_add_node {key other : Key} : (graph.addNode key).reads other = graph.reads other := by
  rw [addNode]
  split
  · rfl
  · rename_i missing
    rw [reads, reads, List.find?_append]
    cases found : graph.nodes.find? fun node => node.1 = other with
    | some node => rfl
    | none =>
        by_cases same : key = other
        · simp [same]
        · simp [same]

theorem mem_insert_key {Key : Type u} [Ord Key] [Std.LawfulEqOrd Key] {key other : Key}
    {sorted : List Key} : other ∈ insertKey key sorted ↔ other = key ∨ other ∈ sorted := by
  induction sorted with
  | nil => simp [insertKey]
  | cons first rest ih =>
      rw [insertKey]
      split
      · exact List.mem_cons
      · rename_i same
        rw [Std.LawfulEqOrd.eq_of_compare same]
        simp
      · rw [List.mem_cons, ih, List.mem_cons]
        exact or_left_comm

section Reading

variable [Ord Key]

def extend (reader read : Key) (node : Key × List Key) : Key × List Key :=
  if node.1 = reader then (node.1, insertKey read node.2) else node

theorem extend_fst (reader read : Key) (node : Key × List Key) :
    (extend reader read node).1 = node.1 := by
  rw [extend]
  split
  · rfl
  · rfl

theorem keys_add_read {reader read : Key} :
    (graph.addRead reader read).keys = ((graph.addNode reader).addNode read).keys := by
  rw [addRead, keys, List.map_map, keys]
  apply List.map_congr_left
  intro node _
  exact extend_fst reader read node

theorem reads_map_extend {reader read other : Key} (known : reader ∈ graph.keys) :
    (ReadGraph.mk (graph.nodes.map (extend reader read))).reads other =
      if other = reader then insertKey read (graph.reads other) else graph.reads other := by
  have sameKey : (fun node : Key × List Key => decide (node.1 = other)) ∘ extend reader read =
      fun node => decide (node.1 = other) := by
    funext node
    rw [Function.comp_apply, extend_fst]
  rw [reads, reads, List.find?_map, sameKey]
  cases found : graph.nodes.find? fun node => decide (node.1 = other) with
  | some node =>
      have here : node.1 = other := by simpa using List.find?_some found
      by_cases same : other = reader
      · simp [extend, here, same]
      · simp [extend, here, same]
  | none =>
      have missing : other ≠ reader := by
        intro same
        obtain ⟨node, member, key⟩ := List.mem_map.1 known
        have different := List.find?_eq_none.1 found node member
        rw [key, same] at different
        exact different (decide_eq_true rfl)
      rw [if_neg missing]
      rfl

theorem reads_add_read {reader read other : Key} :
    (graph.addRead reader read).reads other =
      if other = reader then insertKey read (graph.reads other) else graph.reads other := by
  have known : reader ∈ ((graph.addNode reader).addNode read).keys :=
    mem_keys_add_node.2 (Or.inl (mem_keys_add_node.2 (Or.inr rfl)))
  apply (reads_map_extend known).trans
  rw [reads_add_node, reads_add_node]

def readAll (graph : ReadGraph Key) (reader : Key) (reads : List Key) : ReadGraph Key :=
  reads.foldl (fun graph read => graph.addRead reader read) (graph.addNode reader)

variable {Item : Type u} {key : Item → Key} {readsOf : Item → List Key}

theorem keys_foldl_add_read {reader other : Key} {reads : List Key} :
    other ∈ (reads.foldl (fun graph read => graph.addRead reader read) graph).keys ↔
      other ∈ graph.keys ∨ ∃ read ∈ reads, other = reader ∨ other = read := by
  induction reads generalizing graph with
  | nil => simp
  | cons read rest ih =>
      rw [List.foldl_cons, ih, keys_add_read, mem_keys_add_node, mem_keys_add_node,
        List.exists_mem_cons_iff]
      simp only [or_assoc]

theorem keys_read_all {reader other : Key} {reads : List Key} :
    other ∈ (graph.readAll reader reads).keys ↔
      other ∈ graph.keys ∨ other = reader ∨ other ∈ reads := by
  rw [readAll, keys_foldl_add_read, mem_keys_add_node]
  constructor
  · intro member
    rcases member with (earlier | here) | ⟨read, inside, here | there⟩
    · exact Or.inl earlier
    · exact Or.inr (Or.inl here)
    · exact Or.inr (Or.inl here)
    · exact Or.inr (Or.inr (there ▸ inside))
  · intro member
    rcases member with earlier | here | inside
    · exact Or.inl (Or.inl earlier)
    · exact Or.inl (Or.inr here)
    · exact Or.inr ⟨other, inside, Or.inr rfl⟩

theorem keys_foldl_read_all {items : List Item} {other : Key} :
    other ∈ (items.foldl (fun graph item => graph.readAll (key item) (readsOf item)) graph).keys ↔
      other ∈ graph.keys ∨ ∃ item ∈ items, other = key item ∨ other ∈ readsOf item := by
  induction items generalizing graph with
  | nil => simp
  | cons item rest ih =>
      rw [List.foldl_cons, ih, keys_read_all, List.exists_mem_cons_iff, or_assoc]

variable [Std.LawfulEqOrd Key]

theorem reads_foldl_add_read {reader other target : Key} {reads : List Key} :
    (reads.foldl (fun graph read => graph.addRead reader read) graph).Reads other target ↔
      graph.Reads other target ∨ other = reader ∧ target ∈ reads := by
  induction reads generalizing graph with
  | nil => simp
  | cons read rest ih =>
      rw [List.foldl_cons, ih, Reads, reads_add_read]
      by_cases same : other = reader
      · rw [if_pos same, mem_insert_key, List.mem_cons, Reads]
        tauto
      · rw [if_neg same, Reads]
        tauto

theorem reads_read_all {reader other target : Key} {reads : List Key} :
    (graph.readAll reader reads).Reads other target ↔
      graph.Reads other target ∨ other = reader ∧ target ∈ reads := by
  rw [readAll, reads_foldl_add_read, Reads, reads_add_node, Reads]

theorem reads_foldl_read_all {items : List Item} {other target : Key} :
    (items.foldl (fun graph item => graph.readAll (key item) (readsOf item)) graph).Reads
        other target ↔
      graph.Reads other target ∨ ∃ item ∈ items, other = key item ∧ target ∈ readsOf item := by
  induction items generalizing graph with
  | nil => simp
  | cons item rest ih =>
      rw [List.foldl_cons, ih, reads_read_all, List.exists_mem_cons_iff, or_assoc]

end Reading

end ReadGraph

end PageBuilder
