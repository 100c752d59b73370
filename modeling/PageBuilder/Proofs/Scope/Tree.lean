import PageBuilder.Proofs.Scope

/-!
Trees of scopes. A scope is frozen once another one is opened below it, so the names around a scope
stay what they were, and all names along a way from the root down are different.
-/

namespace PageBuilder

/-- A scope, and the place of the one that it stands below. -/
structure ScopeEntry where
  parent : Option Nat
  scope : Scope
  deriving DecidableEq

abbrev ScopeTree := List ScopeEntry

inductive ScopeStep where
  | child (parent : Nat)
  | reserve (place : Nat) (name : String)
  | bindFresh (place : Nat) (wanted : String)
  deriving DecidableEq

inductive ScopeAnswer where
  | opened (place : Nat)
  | reserved (done : Bool)
  | bound (name : String)
  deriving DecidableEq

namespace ScopeTree

def start : ScopeTree := [⟨none, .root⟩]

def open? (tree : ScopeTree) (place : Nat) : Option ScopeEntry :=
  if tree.any fun entry => entry.parent = some place then none else tree[place]?

/-- What a step answers, and the tree after it. Nothing can be bound in a frozen scope. -/
def step (tree : ScopeTree) : ScopeStep → Option (ScopeAnswer × ScopeTree)
  | .child parent => tree[parent]?.map fun entry =>
      (.opened tree.length, tree ++ [⟨some parent, entry.scope.below⟩])
  | .reserve place name => (tree.open? place).map fun entry =>
      match entry.scope.reserve? name with
      | some scope => (.reserved true, tree.set place { entry with scope })
      | none => (.reserved false, tree)
  | .bindFresh place wanted => (tree.open? place).map fun entry =>
      let (name, scope) := entry.scope.bindFresh wanted
      (.bound name, tree.set place { entry with scope })

def run (tree : ScopeTree) : List ScopeStep → Option (List ScopeAnswer × ScopeTree)
  | [] => some ([], tree)
  | step :: rest => do
      let (answer, next) ← tree.step step
      let (answers, last) ← next.run rest
      some (answer :: answers, last)

/-- The names bound in a scope and in those above it. -/
inductive BoundAlong (tree : ScopeTree) : Nat → List String → Prop
  | top {place : Nat} {entry : ScopeEntry} (here : tree[place]? = some entry)
      (first : entry.parent = none) : BoundAlong tree place entry.scope.own
  | under {place parent : Nat} {entry : ScopeEntry} {names : List String}
      (here : tree[place]? = some entry) (step : entry.parent = some parent)
      (above : BoundAlong tree parent names) : BoundAlong tree place (entry.scope.own ++ names)

inductive Inside (tree : ScopeTree) (upper : Nat) : Nat → Prop
  | self : Inside tree upper upper
  | under {place parent : Nat} {entry : ScopeEntry} (here : tree[place]? = some entry)
      (step : entry.parent = some parent) (above : Inside tree upper parent) :
      Inside tree upper place

variable {tree next last : ScopeTree} {place : Nat} {entry : ScopeEntry}

theorem open_eq_some_iff : tree.open? place = some entry ↔
    tree[place]? = some entry ∧ ∀ other ∈ tree, other.parent ≠ some place := by
  rw [open?]
  split
  · rename_i frozen
    obtain ⟨other, member, same⟩ := List.any_eq_true.1 frozen
    constructor
    · intro absurd
      cases absurd
    · intro held
      exact absurd (of_decide_eq_true same) (held.2 other member)
  · rename_i free
    refine ⟨fun here => ⟨here, ?_⟩, And.left⟩
    intro other member same
    exact free (List.any_eq_true.2 ⟨other, member, decide_eq_true same⟩)

/-- A step opens a scope, binds a free name in a scope that has none below it, or does nothing. -/
inductive Change (tree : ScopeTree) : ScopeTree → Prop
  | opened {parent : Nat} {upper : ScopeEntry} (here : tree[parent]? = some upper) :
      Change tree (tree ++ [⟨some parent, upper.scope.below⟩])
  | bound {place : Nat} {entry : ScopeEntry} {name : String} (here : tree.open? place = some entry)
      (free : entry.scope.Free name) :
      Change tree (tree.set place { entry with scope := entry.scope.bind name })
  | refused : Change tree tree

theorem change_of_step {step : ScopeStep} {answer : ScopeAnswer}
    (done : tree.step step = some (answer, next)) : tree.Change next := by
  cases step with
  | child parent =>
      obtain ⟨upper, here, same⟩ := Option.map_eq_some_iff.1 done
      cases same
      exact .opened here
  | reserve place name =>
      obtain ⟨entry, here, same⟩ := Option.map_eq_some_iff.1 done
      cases reserved : entry.scope.reserve? name with
      | none =>
          rw [reserved] at same
          cases same
          exact .refused
      | some scope =>
          obtain ⟨free, rfl⟩ := Scope.reserve_some_iff.1 reserved
          rw [reserved] at same
          cases same
          exact .bound here free
  | bindFresh place wanted =>
      obtain ⟨entry, here, same⟩ := Option.map_eq_some_iff.1 done
      cases same
      exact .bound here (entry.scope.fresh_name_free wanted)

theorem get_append_cases {new : ScopeEntry} (found : (tree ++ [new])[place]? = some entry) :
    tree[place]? = some entry ∨ place = tree.length ∧ entry = new := by
  rcases Nat.lt_or_ge place tree.length with before | behind
  · rw [List.getElem?_append_left before] at found
    exact Or.inl found
  · rw [List.getElem?_append_right behind, List.getElem?_singleton] at found
    split at found
    · rename_i last
      exact Or.inr ⟨by omega, (Option.some.inj found).symm⟩
    · cases found

theorem get_append {new : ScopeEntry} (found : tree[place]? = some entry) :
    (tree ++ [new])[place]? = some entry := by
  obtain ⟨bound, _⟩ := List.getElem?_eq_some_iff.1 found
  rw [List.getElem?_append_left bound, found]

theorem get_set_cases {other : Nat} {new : ScopeEntry}
    (found : (tree.set place new)[other]? = some entry) :
    other = place ∧ entry = new ∨ other ≠ place ∧ tree[other]? = some entry := by
  by_cases same : other = place
  · subst same
    rw [List.getElem?_set_self'] at found
    obtain ⟨_, _, rfl⟩ := Option.map_eq_some_iff.1 found
    exact Or.inl ⟨rfl, rfl⟩
  · rw [List.getElem?_set_ne (Ne.symm same)] at found
    exact Or.inr ⟨same, found⟩

/-- What is around a scope is what is visible in the one above it. -/
structure Nested (tree : ScopeTree) : Prop where
  top : ∀ {place : Nat} {entry : ScopeEntry}, tree[place]? = some entry → entry.parent = none →
    entry.scope.around = []
  under : ∀ {place parent : Nat} {entry : ScopeEntry}, tree[place]? = some entry →
    entry.parent = some parent →
    parent < place ∧ ∃ upper, tree[parent]? = some upper ∧ entry.scope.around = upper.scope.visible
  apart : ∀ {place : Nat} {entry : ScopeEntry}, tree[place]? = some entry →
    entry.scope.visible.Nodup

theorem nested_start : start.Nested := by
  have only {place : Nat} {entry : ScopeEntry} (found : start[place]? = some entry) :
      entry = ⟨none, .root⟩ := List.mem_singleton.1 (List.mem_of_getElem? found)
  refine ⟨?_, ?_, ?_⟩
  · intro place entry found _
    rw [only found]
    rfl
  · intro place parent entry found step
    rw [only found] at step
    cases step
  · intro place entry found
    rw [only found]
    exact List.nodup_nil

theorem Nested.opened (nested : tree.Nested) {parent : Nat} {upper : ScopeEntry}
    (here : tree[parent]? = some upper) :
    Nested (tree ++ [⟨some parent, upper.scope.below⟩]) := by
  refine ⟨?_, ?_, ?_⟩
  · intro place entry found first
    rcases get_append_cases found with before | ⟨_, rfl⟩
    · exact nested.top before first
    · cases first
  · intro place above entry found step
    rcases get_append_cases found with before | ⟨rfl, rfl⟩
    · obtain ⟨less, higher, present, around⟩ := nested.under before step
      exact ⟨less, higher, get_append present, around⟩
    · cases step
      exact ⟨(List.getElem?_eq_some_iff.1 here).1, upper, get_append here, rfl⟩
  · intro place entry found
    rcases get_append_cases found with before | ⟨_, rfl⟩
    · exact nested.apart before
    · rw [Scope.visible_below]
      exact nested.apart here

theorem Nested.bound (nested : tree.Nested) {name : String} (here : tree.open? place = some entry)
    (free : entry.scope.Free name) :
    Nested (tree.set place { entry with scope := entry.scope.bind name }) := by
  obtain ⟨present, unused⟩ := open_eq_some_iff.1 here
  -- No scope stands below the one that changes, so what is above any other is as it was.
  have kept {other parent : Nat} {held : ScopeEntry} (found : tree[other]? = some held)
      (step : held.parent = some parent) : parent < other ∧ ∃ upper,
        (tree.set place { entry with scope := entry.scope.bind name })[parent]? = some upper ∧
          held.scope.around = upper.scope.visible := by
    obtain ⟨less, upper, above, around⟩ := nested.under found step
    refine ⟨less, upper, ?_, around⟩
    rw [List.getElem?_set_ne, above]
    rintro rfl
    exact unused held (List.mem_of_getElem? found) step
  refine ⟨?_, ?_, ?_⟩
  · intro other held found first
    rcases get_set_cases found with ⟨_, rfl⟩ | ⟨_, before⟩
    · have nothing := nested.top present first
      exact nothing
    · exact nested.top before first
  · intro other parent held found step
    rcases get_set_cases found with ⟨rfl, rfl⟩ | ⟨_, before⟩
    · have above := kept present step
      exact above
    · exact kept before step
  · intro other held found
    rcases get_set_cases found with ⟨_, rfl⟩ | ⟨_, before⟩
    · exact List.nodup_cons.2 ⟨free.unbound, nested.apart present⟩
    · exact nested.apart before

theorem Change.nested (change : tree.Change next) (nested : tree.Nested) : next.Nested := by
  cases change with
  | opened here => exact nested.opened here
  | bound here free => exact nested.bound here free
  | refused => exact nested

def Grows (tree next : ScopeTree) : Prop :=
  ∀ (place : Nat) (entry : ScopeEntry), tree[place]? = some entry →
    ∃ later : ScopeEntry, next[place]? = some later ∧
      later.parent = entry.parent ∧ entry.scope.own ⊆ later.scope.own

theorem Grows.refl (tree : ScopeTree) : tree.Grows tree :=
  fun _ entry found => ⟨entry, found, rfl, List.Subset.refl _⟩

theorem Grows.trans (first : tree.Grows next) (second : next.Grows last) : tree.Grows last := by
  intro place entry found
  obtain ⟨middle, there, parent, own⟩ := first place entry found
  obtain ⟨later, here, again, more⟩ := second place middle there
  exact ⟨later, here, again.trans parent, List.Subset.trans own more⟩

theorem Change.grows (change : tree.Change next) : tree.Grows next := by
  intro other held found
  cases change with
  | opened => exact ⟨held, get_append found, rfl, List.Subset.refl _⟩
  | refused => exact ⟨held, found, rfl, List.Subset.refl _⟩
  | @bound place entry name here =>
      obtain ⟨present, _⟩ := open_eq_some_iff.1 here
      by_cases same : other = place
      · subst same
        cases found.symm.trans present
        refine ⟨{ held with scope := held.scope.bind name }, ?_, rfl, List.subset_cons_self _ _⟩
        rw [List.getElem?_set_self (List.getElem?_eq_some_iff.1 present).1]
      · refine ⟨held, ?_, rfl, List.Subset.refl _⟩
        rw [List.getElem?_set_ne (Ne.symm same), found]

theorem run_cons_iff {step : ScopeStep} {rest : List ScopeStep} {answers : List ScopeAnswer} :
    tree.run (step :: rest) = some (answers, last) ↔ ∃ answer next more,
      tree.step step = some (answer, next) ∧ next.run rest = some (more, last) ∧
        answers = answer :: more := by
  simp only [run, Option.bind_eq_bind, Option.bind_eq_some_iff, Prod.exists, Option.some.injEq,
    Prod.mk.injEq]
  constructor
  · rintro ⟨answer, next, done, more, _, on, rfl, rfl⟩
    exact ⟨answer, next, more, done, on, rfl⟩
  · rintro ⟨answer, next, more, done, on, rfl⟩
    exact ⟨answer, next, done, more, last, on, rfl, rfl⟩

theorem run_kept {steps : List ScopeStep} {answers : List ScopeAnswer}
    (done : tree.run steps = some (answers, last)) (nested : tree.Nested) :
    last.Nested ∧ tree.Grows last := by
  induction steps generalizing tree answers with
  | nil =>
      cases done
      exact ⟨nested, Grows.refl _⟩
  | cons step rest ih =>
      obtain ⟨answer, next, more, first, on, _⟩ := run_cons_iff.1 done
      have change := change_of_step first
      obtain ⟨after, grows⟩ := ih on (change.nested nested)
      exact ⟨after, change.grows.trans grows⟩

theorem BoundAlong.present {names : List String} (along : tree.BoundAlong place names) :
    ∃ entry, tree[place]? = some entry := by
  cases along with
  | top here => exact ⟨_, here⟩
  | under here => exact ⟨_, here⟩

theorem BoundAlong.unique {names others : List String} (left : tree.BoundAlong place names)
    (right : tree.BoundAlong place others) : names = others := by
  induction left generalizing others with
  | top here first =>
      cases right with
      | top there => rw [Option.some.inj (here.symm.trans there)]
      | under there step =>
          rw [Option.some.inj (here.symm.trans there), step] at first
          cases first
  | under here step _ ih =>
      cases right with
      | top there first =>
          rw [Option.some.inj (here.symm.trans there), first] at step
          cases step
      | under there other above =>
          cases here.symm.trans there
          cases step.symm.trans other
          rw [ih above]

theorem Nested.bound_along (nested : tree.Nested) (here : tree[place]? = some entry) :
    tree.BoundAlong place entry.scope.visible := by
  induction place using Nat.strongRecOn generalizing entry with
  | ind place ih =>
      cases step : entry.parent with
      | none =>
          have all : entry.scope.visible = entry.scope.own := by
            rw [Scope.visible, nested.top here step, List.append_nil]
          rw [all]
          exact .top here step
      | some parent =>
          obtain ⟨less, upper, above, around⟩ := nested.under here step
          rw [Scope.visible, around]
          exact .under here step (ih parent less above)

theorem Nested.visible_inside (nested : tree.Nested) {upper lower : Nat} {top : ScopeEntry}
    (inside : tree.Inside upper lower) (above : tree[upper]? = some top)
    (here : tree[lower]? = some entry) : top.scope.own ⊆ entry.scope.visible := by
  induction inside generalizing entry with
  | self =>
      cases above.symm.trans here
      exact List.subset_append_left _ _
  | under there step _ ih =>
      cases there.symm.trans here
      obtain ⟨_, middle, present, around⟩ := nested.under there step
      rw [Scope.visible, around]
      exact List.Subset.trans (ih present) (List.subset_append_right _ _)

/-- A name that a scope was asked for: the first free one along the way to it. It is visible there
and in whatever is opened below, and no other scope is touched. -/
structure BoundFresh (tree next : ScopeTree) (place : Nat) (wanted name : String) : Prop where
  first : ∀ names, tree.BoundAlong place names →
    FreshName.FirstFree (Identifier.ofText wanted) (· ∈ names ++ Identifier.reservedWords) name
  few : ∀ names, tree.BoundAlong place names → name = Identifier.ofText wanted ∨
    ∃ number ≤ names.length + Identifier.reservedWords.length,
      name = FreshName.numbered (Identifier.ofText wanted) number
  valid : Identifier.isValid name = true
  added : ∀ names, tree.BoundAlong place names → next.BoundAlong place (name :: names)
  others : ∀ other, other ≠ place → next[other]? = tree[other]?
  stays : ∀ steps answers last, next.run steps = some (answers, last) →
    ∀ lower entry, last.Inside place lower → last[lower]? = some entry →
      entry.scope.has name = true

theorem Nested.bound_fresh (nested : tree.Nested) (here : tree.open? place = some entry)
    (wanted : String) : ∃ name next,
      tree.step (.bindFresh place wanted) = some (.bound name, next) ∧
        BoundFresh tree next place wanted name := by
  obtain ⟨present, _⟩ := open_eq_some_iff.1 here
  have along := nested.bound_along present
  have first := entry.scope.first_free_fresh_name wanted
  have done : tree.step (.bindFresh place wanted) = some (.bound (entry.scope.freshName wanted),
      tree.set place { entry with scope := entry.scope.bind (entry.scope.freshName wanted) }) := by
    rw [step, here]
    rfl
  have after := (change_of_step done).nested nested
  have now : (tree.set place
      { entry with scope := entry.scope.bind (entry.scope.freshName wanted) })[place]? =
        some { entry with scope := entry.scope.bind (entry.scope.freshName wanted) } :=
    List.getElem?_set_self (List.getElem?_eq_some_iff.1 present).1
  refine ⟨_, _, done, ?_⟩
  constructor
  case first =>
    intro names held
    rw [held.unique along]
    exact first
  case few =>
    intro names held
    have bound := first.number_le
    rwa [held.unique along, ← List.length_append]
  case valid => exact (entry.scope.fresh_name_usable wanted).valid
  case added =>
    intro names held
    rw [held.unique along]
    exact after.bound_along now
  case others => exact fun other different => List.getElem?_set_ne (Ne.symm different)
  case stays =>
    intro steps answers last done lower held inside found
    obtain ⟨settled, grows⟩ := run_kept done after
    obtain ⟨later, there, _, own⟩ := grows place _ now
    exact List.contains_iff_mem.2
      (settled.visible_inside inside there found (own List.mem_cons_self))

/-- Any steps on a tree of scopes. What a scope sees is what was bound along the way to it, all of
it different, and a scope that is not frozen can bind one more name close to any text. -/
theorem scopes_nest {steps : List ScopeStep} {answers : List ScopeAnswer}
    (grown : start.run steps = some (answers, tree)) :
    (∀ place entry, tree[place]? = some entry → tree.BoundAlong place entry.scope.visible) ∧
      (∀ place names, tree.BoundAlong place names → names.Nodup) ∧
      ∀ place entry wanted, tree.open? place = some entry → ∃ name next,
        tree.step (.bindFresh place wanted) = some (.bound name, next) ∧
          BoundFresh tree next place wanted name := by
  obtain ⟨nested, _⟩ := run_kept grown nested_start
  refine ⟨fun place entry here => nested.bound_along here, ?_, ?_⟩
  · intro place names along
    obtain ⟨entry, here⟩ := along.present
    rw [along.unique (nested.bound_along here)]
    exact nested.apart here
  · intro place entry wanted here
    exact nested.bound_fresh here wanted

def sampleSteps : List ScopeStep :=
  [.bindFresh 0 "class", .child 0, .child 0, .reserve 1 "class2", .reserve 2 "class1"]

/-- The second scope that was opened could not bind what the root has. -/
def sampleScopes : ScopeTree :=
  [⟨none, ⟨["class1"], []⟩⟩, ⟨some 0, ⟨["class2"], ["class1"]⟩⟩, ⟨some 0, ⟨[], ["class1"]⟩⟩]

/-- The word is reserved, and its first two numbers are taken above and in the scope itself. -/
theorem scopes_nest_sample :
    start.run sampleSteps = some ([.bound "class1", .opened 1, .opened 2, .reserved true,
        .reserved false], sampleScopes) ∧
      sampleScopes.open? 0 = none ∧ sampleScopes.BoundAlong 1 ["class2", "class1"] ∧
      ["class2", "class1"].Nodup ∧
      ∃ next, sampleScopes.step (.bindFresh 1 "class") = some (.bound "class3", next) ∧
        BoundFresh sampleScopes next 1 "class" "class3" := by
  have grown : start.run sampleSteps = some ([.bound "class1", .opened 1, .opened 2,
      .reserved true, .reserved false], sampleScopes) := by decide +kernel
  obtain ⟨along, apart, fresh⟩ := scopes_nest grown
  have names := along 1 ⟨some 0, ⟨["class2"], ["class1"]⟩⟩ rfl
  obtain ⟨name, next, done, bound⟩ :=
    fresh 1 ⟨some 0, ⟨["class2"], ["class1"]⟩⟩ "class" (by decide +kernel)
  have answer : (sampleScopes.step (.bindFresh 1 "class")).map Prod.fst =
      some (.bound "class3") := by decide +kernel
  rw [done] at answer
  cases answer
  exact ⟨grown, by decide +kernel, names, apart 1 _ names, next, done, bound⟩

end ScopeTree

end PageBuilder
