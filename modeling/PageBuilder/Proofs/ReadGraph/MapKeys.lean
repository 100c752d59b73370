import PageBuilder.Proofs.ReadGraph.Built
import Mathlib.Data.List.Sort

/-!
Graphs under other keys. Whether there is an order does not depend on the keys, and an order has the
same nodes. Which order it is does depend on them, for what one node reads is visited in the order
of its keys; where that order is kept the whole order is.
-/

namespace PageBuilder

open Relation (TransGen)

universe u

variable {Key : Type u}

def GraphStep.map (change : Key → Key) : GraphStep Key → GraphStep Key
  | .node key => .node (change key)
  | .read reader target => .read (change reader) (change target)

theorem GraphStep.keys_map (change : Key → Key) (step : GraphStep Key) :
    (step.map change).keys = step.keys.map change := by
  cases step <;> rfl

def ReadCycle.map (change : Key → Key) (cycle : ReadCycle Key) : ReadCycle Key :=
  ⟨change cycle.node, cycle.path.map change⟩

namespace ReadGraph

section Steps

variable {change : Key → Key} (injective : Function.Injective change)
  {steps : List (GraphStep Key)}

include injective

theorem read_step_map {reader read : Key} :
    ReadStep (steps.map (GraphStep.map change)) (change reader) (change read) ↔
      ReadStep steps reader read := by
  rw [ReadStep, ReadStep, List.mem_map]
  constructor
  · rintro ⟨step, member, same⟩
    cases step with
    | node key => cases same
    | read other target =>
        obtain ⟨readers, reads⟩ := GraphStep.read.inj same
        rw [← injective readers, ← injective reads]
        exact member
  · exact fun member => ⟨_, member, rfl⟩

omit injective in
theorem read_step_map_cases {reader read : Key}
    (step : ReadStep (steps.map (GraphStep.map change)) reader read) :
    ∃ former target, change former = reader ∧ change target = read ∧
      ReadStep steps former target := by
  obtain ⟨held, member, same⟩ := List.mem_map.1 step
  cases held with
  | node key => cases same
  | read former target =>
      obtain ⟨rfl, rfl⟩ := GraphStep.read.inj same
      exact ⟨former, target, rfl, rfl, member⟩

theorem round_map_iff :
    (∃ key, TransGen (ReadStep (steps.map (GraphStep.map change))) key key) ↔
      ∃ key, TransGen (ReadStep steps) key key := by
  have back {first last : Key}
      (way : TransGen (ReadStep (steps.map (GraphStep.map change))) first last) :
      ∃ former target, change former = first ∧ change target = last ∧
        TransGen (ReadStep steps) former target := by
    induction way with
    | single step =>
        obtain ⟨former, target, rfl, rfl, read⟩ := read_step_map_cases step
        exact ⟨former, target, rfl, rfl, .single read⟩
    | tail _ step ih =>
        obtain ⟨former, middle, rfl, here, way⟩ := ih
        obtain ⟨again, target, same, rfl, read⟩ := read_step_map_cases step
        rw [← here] at same
        rw [injective same] at read
        exact ⟨former, target, rfl, rfl, .tail way read⟩
  constructor
  · rintro ⟨key, way⟩
    obtain ⟨former, target, rfl, same, round⟩ := back way
    rw [injective same] at round
    exact ⟨former, round⟩
  · rintro ⟨key, way⟩
    exact ⟨change key, way.lift change fun _ _ step => (read_step_map injective).2 step⟩

variable [DecidableEq Key]

theorem erase_dups_map (keys : List Key) :
    (keys.map change).eraseDups = keys.eraseDups.map change := by
  induction keys using List.reverseRecOn with
  | nil => rfl
  | append_singleton keys key ih =>
      rw [List.map_append, List.map_singleton, erase_dups_snoc, erase_dups_snoc, ih]
      have same : change key ∈ keys.map change ↔ key ∈ keys := List.mem_map_of_injective injective
      split
      · rename_i member
        rw [if_pos (same.1 member)]
      · rename_i fresh
        rw [if_neg (fun member => fresh (same.2 member)), List.map_append, List.map_singleton]

theorem idx_of_map (keys : List Key) (key : Key) :
    (keys.map change).idxOf (change key) = keys.idxOf key := by
  induction keys with
  | nil => rfl
  | cons first rest ih =>
      rw [List.map_cons, List.idxOf_cons, List.idxOf_cons, ih]
      simp only [beq_iff_eq, injective.eq_iff, Bool.cond_eq_ite]

theorem inserted_map :
    inserted (steps.map (GraphStep.map change)) = (inserted steps).map change := by
  rw [inserted, inserted, ← erase_dups_map injective, List.flatMap_map, List.map_flatMap]
  simp only [GraphStep.keys_map]

theorem cycle_at_map (visiting : List Key) (node : Key) :
    cycleAt (visiting.map change) (change node) = (cycleAt visiting node).map change := by
  have apart : (fun key => decide (key ≠ change node)) ∘ change =
      fun key => decide (key ≠ node) := by
    funext key
    simp only [Function.comp_apply, ne_eq, injective.eq_iff]
  rw [cycleAt, List.takeWhile_map, apart, cycleAt, ReadCycle.map]
  simp

def mapResult (change : Key → Key) :
    Except (ReadCycle Key) (List Key) → Except (ReadCycle Key) (List Key)
  | .ok order => .ok (order.map change)
  | .error cycle => .error (cycle.map change)

/-- Where what is read keeps its order, a walk is the same under other keys. -/
theorem Walk.map {left right : ReadGraph Key}
    (same : ∀ key, right.reads (change key) = (left.reads key).map change)
    {visiting done nodes : List Key} {result : Except (ReadCycle Key) (List Key)}
    (walk : Walk left visiting done nodes result) :
    Walk right (visiting.map change) (done.map change) (nodes.map change)
      (mapResult change result) := by
  have member {key : Key} {keys : List Key} : change key ∈ keys.map change ↔ key ∈ keys :=
    List.mem_map_of_injective injective
  induction walk with
  | ended => exact .ended
  | again round =>
      rw [mapResult, ← cycle_at_map injective]
      exact .again (member.2 round)
  | known apart before _ ih =>
      exact .known (fun round => apart (member.1 round)) (member.2 before) ih
  | stuck apart fresh _ ih =>
      refine .stuck (fun round => apart (member.1 round)) (fun here => fresh (member.1 here)) ?_
      rw [same]
      exact ih
  | @through visiting done middle rest node result apart fresh _ _ ih others =>
      have inside : Walk right ((node :: visiting).map change) (done.map change)
          (right.reads (change node)) (.ok (middle.map change)) := by
        rw [same]
        exact ih
      rw [List.map_append] at others
      exact .through (fun round => apart (member.1 round)) (fun here => fresh (member.1 here))
        inside others

end Steps

section Sorted

variable [Ord Key]

def Before (left right : Key) : Prop := compare left right = .lt

variable [Std.LawfulEqOrd Key] [Std.TransOrd Key]

theorem insert_key_sorted {key : Key} {keys : List Key} (sorted : keys.Pairwise Before) :
    (insertKey key keys).Pairwise Before := by
  induction keys with
  | nil => exact List.pairwise_singleton _ _
  | cons first rest ih =>
      obtain ⟨least, later⟩ := List.pairwise_cons.1 sorted
      rw [insertKey]
      split
      · rename_i less
        refine List.pairwise_cons.2 ⟨fun other member => ?_, sorted⟩
        rcases List.mem_cons.1 member with rfl | inside
        · exact less
        · exact Std.TransCmp.lt_trans less (least other inside)
      · exact sorted
      · rename_i greater
        refine List.pairwise_cons.2 ⟨fun other member => ?_, ih later⟩
        rcases mem_insert_key.1 member with rfl | inside
        · exact Std.OrientedCmp.gt_iff_lt.1 greater
        · exact least other inside

theorem eq_of_sorted {left right : List Key} (first : left.Pairwise Before)
    (second : right.Pairwise Before) (same : ∀ key, key ∈ left ↔ key ∈ right) : left = right := by
  have irreflexive : Std.Irrefl (@Before Key _) := by
    refine ⟨fun key less => ?_⟩
    have same : compare key key = .eq := Std.ReflCmp.compare_self
    cases less.symm.trans same
  have antisymmetric : Std.Antisymm (@Before Key _) := by
    refine ⟨fun left right less more => ?_⟩
    cases less.symm.trans (Std.OrientedCmp.gt_iff_lt.2 more)
  exact first.eq_of_mem_iff second same

variable [DecidableEq Key]

theorem reads_build_sorted (steps : List (GraphStep Key)) (reader : Key) :
    ((build steps).reads reader).Pairwise Before := by
  induction steps using List.reverseRecOn with
  | nil => exact List.Pairwise.nil
  | append_singleton steps last ih =>
      rw [build_snoc]
      cases last with
      | node key =>
          rw [step, reads_add_node]
          exact ih
      | read other target =>
          rw [step, reads_add_read]
          split
          · exact insert_key_sorted ih
          · exact ih

/-- Whatever two keys one node reads, they come in the same order under other keys. -/
def KeepsOrder (change : Key → Key) (steps : List (GraphStep Key)) : Prop :=
  ∀ reader first second, ReadStep steps reader first → ReadStep steps reader second →
    compare first second = .lt → compare (change first) (change second) = .lt

def ReadsEarlier (steps : List (GraphStep Key)) : Prop :=
  ∀ reader read, ReadStep steps reader read →
    (inserted steps).idxOf read < (inserted steps).idxOf reader

variable {change : Key → Key} (injective : Function.Injective change)
  {steps : List (GraphStep Key)}

include injective

theorem reads_build_map (keeps : KeepsOrder change steps) (reader : Key) :
    (build (steps.map (GraphStep.map change))).reads (change reader) =
      ((build steps).reads reader).map change := by
  apply eq_of_sorted (reads_build_sorted _ _)
  · apply List.pairwise_map.2
    refine (reads_build_sorted steps reader).imp_of_mem fun {first second} here there before => ?_
    exact keeps reader first second ((reads_build steps).1 here)
      ((reads_build steps).1 there) before
  · intro key
    rw [List.mem_map]
    constructor
    · intro read
      have step := (reads_build _).1 read
      obtain ⟨former, target, same, rfl, held⟩ := read_step_map_cases step
      rw [injective same] at held
      exact ⟨target, (reads_build steps).2 held, rfl⟩
    · rintro ⟨target, read, rfl⟩
      exact (reads_build _).2 ((read_step_map injective).2 ((reads_build steps).1 read))

theorem order_build_of_keeps (keeps : KeepsOrder change steps) :
    (build (steps.map (GraphStep.map change))).order = mapResult change (build steps).order := by
  have walk := ((walk_iff_order (build_closed steps)).2 rfl).map injective
    (reads_build_map injective keeps)
  rw [keys_build, ← inserted_map injective, ← keys_build] at walk
  exact (walk_iff_order (build_closed _)).1 walk

/-- The order of a graph is the same under other keys if what each node reads keeps its order, and
also if each node came after all that it reads. -/
theorem order_build_map (settled : KeepsOrder change steps ∨ ReadsEarlier steps) :
    (build (steps.map (GraphStep.map change))).order = mapResult change (build steps).order := by
  rcases settled with keeps | earlier
  · exact order_build_of_keeps injective keeps
  · rw [order_of_inserted earlier, mapResult, ← inserted_map injective]
    apply order_of_inserted
    intro reader read step
    obtain ⟨former, target, rfl, rfl, held⟩ := read_step_map_cases step
    rw [inserted_map injective, idx_of_map injective, idx_of_map injective]
    exact earlier former target held

omit [Std.TransOrd Key] in
theorem order_fails_map_iff :
    (∃ cycle, (build (steps.map (GraphStep.map change))).order = .error cycle) ↔
      ∃ cycle, (build steps).order = .error cycle := by
  rw [order_fails_iff (build_closed _), order_fails_iff (build_closed _), reads_build_eq,
    reads_build_eq, round_map_iff injective]

omit [Std.TransOrd Key] in
theorem orders_map_perm {order other : List Key} (ended : (build steps).order = .ok order)
    (again : (build (steps.map (GraphStep.map change))).order = .ok other) :
    other.Perm (order.map change) := by
  have sorts := sorts_of_order ended
  have others := sorts_of_order again
  apply (List.perm_ext_iff_of_nodup others.once (sorts.once.map injective)).2
  intro key
  rw [others.whole, List.mem_map]
  constructor
  · rintro ⟨_, member, inside⟩
    obtain ⟨step, listed, rfl⟩ := List.mem_map.1 member
    rw [GraphStep.keys_map] at inside
    obtain ⟨former, held, rfl⟩ := List.mem_map.1 inside
    exact ⟨former, (sorts.whole former).2 ⟨step, listed, held⟩, rfl⟩
  · rintro ⟨former, held, rfl⟩
    obtain ⟨step, listed, inside⟩ := (sorts.whole former).1 held
    refine ⟨_, List.mem_map.2 ⟨step, listed, rfl⟩, ?_⟩
    rw [GraphStep.keys_map]
    exact List.mem_map_of_mem inside

end Sorted

end ReadGraph

end PageBuilder
