import PageBuilder.Proofs.Page.Order
import PageBuilder.Proofs.Scope

/-!
The names that state gets. Each owner is named once, no name is given twice or taken from the
scope around, and where the state has an order every piece of state has the names of its owner.
-/

namespace PageBuilder

open Relation (ReflTransGen)

def StateNames.all (names : StateNames) : List String := names.value :: names.setter.toList

namespace PageNames

def allGiven (names : PageNames) : List String := names.given.flatMap fun entry => entry.2.all

theorem give_adds (scope : Scope) (wish : Wish) :
    scope.Adds (give scope wish).2 (give scope wish).1.all := by
  have first := scope.adds_bind_fresh wish.base
  rw [give]
  generalize scope.bindFresh wish.base = bound at first
  obtain ⟨value, next⟩ := bound
  have second := next.adds_bind_fresh (setterBase value)
  dsimp only
  split
  · generalize next.bindFresh (setterBase value) = bound at second
    exact first.append second
  · exact first

/-- Owners are named once, with names that are new in the scope around. -/
structure Apart (start : Scope) (names : PageNames) : Prop where
  once : (names.given.map Prod.fst).Nodup
  adds : start.Adds names.scope names.allGiven

theorem mem_of_find {names : PageNames} {key : StateKey} {given : StateNames}
    (found : names.find? key = some given) : (key, given) ∈ names.given := by
  obtain ⟨⟨held, value⟩, first, rfl⟩ := Option.map_eq_some_iff.1 found
  have same : held = key := by simpa using List.find?_some first
  rw [← same]
  exact List.mem_of_find?_eq_some first

theorem find_none_iff {names : PageNames} {key : StateKey} :
    names.find? key = none ↔ key ∉ names.given.map Prod.fst := by
  rw [find?, Option.map_eq_none_iff, List.find?_eq_none]
  constructor
  · intro absent member
    obtain ⟨entry, listed, same⟩ := List.mem_map.1 member
    exact absent entry listed (decide_eq_true same)
  · intro missing entry listed same
    exact missing (List.mem_map.2 ⟨entry, listed, of_decide_eq_true same⟩)

variable {view : PageView} {names : PageNames} {start : Scope}

theorem use_cases (view : PageView) (names : PageNames) (key : StateKey) :
    use view names key = names ∨
    ∃ owner given scope, view.owner? key = some owner ∧ names.find? owner = none ∧
      names.scope.Adds scope given.all ∧
      use view names key = ⟨scope, names.given ++ [(owner, given)]⟩ := by
  rw [use]
  split
  · exact Or.inl rfl
  · rename_i owner found
    split
    · rename_i wish unnamed _
      exact Or.inr ⟨owner, _, _, found, unnamed, give_adds names.scope wish, rfl⟩
    · exact Or.inl rfl

theorem Apart.use (apart : Apart start names) (key : StateKey) :
    Apart start (use view names key) := by
  rcases use_cases view names key with same | given
  · rw [same]
    exact apart
  · obtain ⟨owner, given, scope, _, unnamed, adds, result⟩ := given
    rw [result]
    refine ⟨?_, ?_⟩
    · rw [List.map_append, List.map_singleton]
      apply List.nodup_append.2
      refine ⟨apart.once, List.nodup_singleton _, ?_⟩
      intro earlier member last inside same
      rw [same, List.mem_singleton.1 inside] at member
      exact find_none_iff.1 unnamed member
    · have all : allGiven ⟨scope, names.given ++ [(owner, given)]⟩ =
          names.allGiven ++ given.all := by
        simp [allGiven]
      rw [all]
      exact apart.adds.append adds

theorem apart_of_view (view : PageView) (scope : Scope) : Apart scope (ofView view scope) := by
  have step (keys : List StateKey) {names : PageNames} (apart : Apart scope names) :
      Apart scope (keys.foldl (PageNames.use view) names) := by
    induction keys generalizing names with
    | nil => exact apart
    | cons key rest ih => exact ih (apart.use key)
  apply step
  exact ⟨List.nodup_nil, .nil scope⟩

theorem find_use {key owner : StateKey} {given : StateNames}
    (found : names.find? owner = some given) :
    (use view names key).find? owner = some given := by
  rcases use_cases view names key with same | new
  · rw [same]
    exact found
  · obtain ⟨other, more, scope, _, _, _, result⟩ := new
    rw [result, find?, List.find?_append]
    rw [find?, Option.map_eq_some_iff] at found
    obtain ⟨entry, first, rfl⟩ := found
    rw [first]
    rfl

theorem find_uses {keys : List StateKey} {owner : StateKey} {given : StateNames}
    (found : names.find? owner = some given) :
    (keys.foldl (use view) names).find? owner = some given := by
  induction keys generalizing names with
  | nil => exact found
  | cons key rest ih => exact ih (find_use found)

theorem use_names_owner {key owner : StateKey} {wanted : Wish}
    (found : view.owner? key = some owner)
    (wishes : (view.entryOf? owner).bind (wish owner) = some wanted) :
    ∃ given, (use view names key).find? owner = some given := by
  cases known : names.find? owner with
  | some given => exact ⟨given, find_use known⟩
  | none =>
      have added : use view names key = ⟨(give names.scope wanted).2,
          names.given ++ [(owner, (give names.scope wanted).1)]⟩ := by
        rw [use, found]
        dsimp only
        rw [known, wishes]
      refine ⟨(give names.scope wanted).1, ?_⟩
      rw [added, find?, List.find?_append, Option.map_eq_none_iff.1 known]
      simp

theorem uses_name_owner {keys : List StateKey} {key owner : StateKey} {wanted : Wish}
    (member : key ∈ keys) (found : view.owner? key = some owner)
    (wishes : (view.entryOf? owner).bind (wish owner) = some wanted) :
    ∃ given, (keys.foldl (use view) names).find? owner = some given := by
  induction keys generalizing names with
  | nil => exact absurd member List.not_mem_nil
  | cons first rest ih =>
      rw [List.foldl_cons]
      rcases List.mem_cons.1 member with rfl | later
      · obtain ⟨given, known⟩ := use_names_owner found wishes
        exact ⟨given, find_uses known⟩
      · exact ih later

theorem all_given_use (view : PageView) (names : PageNames) (key : StateKey) :
    names.allGiven ⊆ (use view names key).allGiven := by
  rcases use_cases view names key with same | given
  · rw [same]
    exact List.Subset.refl _
  · obtain ⟨owner, given, scope, _, _, _, result⟩ := given
    rw [result, allGiven, allGiven, List.flatMap_append]
    exact List.subset_append_left _ _

theorem all_given_uses (view : PageView) (keys : List StateKey) (names : PageNames) :
    names.allGiven ⊆ (keys.foldl (use view) names).allGiven := by
  induction keys generalizing names with
  | nil => exact List.Subset.refl _
  | cons key rest ih => exact List.Subset.trans (all_given_use view names key) (ih _)

theorem give_wider {extra : String} {narrow wide : Scope} (wider : narrow.Wider extra wide)
    {wish : Wish} (apart : extra ∉ (give narrow wish).1.all) :
    (give wide wish).1 = (give narrow wish).1 ∧
      (give narrow wish).2.Wider extra (give wide wish).2 := by
  obtain ⟨base, settable⟩ := wish
  cases settable with
  | false =>
      have value : wide.freshName base = narrow.freshName base :=
        wider.fresh_name_eq fun same => apart (List.mem_cons.2 (Or.inl same.symm))
      have names (scope : Scope) : give scope ⟨base, false⟩ =
          (⟨scope.freshName base, none⟩, scope.bind (scope.freshName base)) := rfl
      rw [names, names, value]
      exact ⟨rfl, wider.bind _⟩
  | true =>
      have value : wide.freshName base = narrow.freshName base :=
        wider.fresh_name_eq fun same => apart (List.mem_cons.2 (Or.inl same.symm))
      have next := wider.bind (narrow.freshName base)
      -- The setter is chosen when the name of the value is bound in both scopes.
      have setter : (wide.bind (narrow.freshName base)).freshName
            (setterBase (narrow.freshName base)) =
          (narrow.bind (narrow.freshName base)).freshName
            (setterBase (narrow.freshName base)) :=
        next.fresh_name_eq fun same =>
          apart (List.mem_cons_of_mem _ (List.mem_singleton.2 same.symm))
      have names (scope : Scope) : give scope ⟨base, true⟩ =
          (⟨scope.freshName base, some ((scope.bind (scope.freshName base)).freshName
            (setterBase (scope.freshName base)))⟩,
            (scope.bind (scope.freshName base)).bind
              ((scope.bind (scope.freshName base)).freshName
                (setterBase (scope.freshName base)))) := rfl
      rw [names, names, value, setter]
      exact ⟨rfl, next.bind _⟩

theorem use_wider {extra : String} {wide : PageNames} (same : wide.given = names.given)
    (wider : names.scope.Wider extra wide.scope) {key : StateKey}
    (apart : extra ∉ (use view names key).allGiven) :
    (use view wide key).given = (use view names key).given ∧
      (use view names key).scope.Wider extra (use view wide key).scope := by
  have known (owner : StateKey) : wide.find? owner = names.find? owner := by
    rw [find?, find?, same]
  unfold use at apart ⊢
  split
  · exact ⟨same, wider⟩
  · rename_i owner found
    rw [found] at apart
    dsimp only at apart
    rw [known]
    split
    · rename_i wish unnamed wished
      rw [unnamed, wished] at apart
      have new : extra ∉ (give names.scope wish).1.all := by
        intro member
        apply apart
        rw [allGiven, List.flatMap_append]
        apply List.mem_append_right
        rw [List.flatMap_singleton]
        exact member
      obtain ⟨given, next⟩ := give_wider wider new
      dsimp only
      rw [same, given]
      exact ⟨rfl, next⟩
    · exact ⟨same, wider⟩

/-- State gets the same names, unless one of them is the name that the scope has in addition. -/
theorem of_view_wider {extra : String} {narrow wide : Scope} (wider : narrow.Wider extra wide)
    (apart : extra ∉ (ofView view narrow).allGiven) :
    (ofView view wide).given = (ofView view narrow).given ∧
      (ofView view narrow).scope.Wider extra (ofView view wide).scope := by
  have step (keys : List StateKey) {names wide : PageNames} (same : wide.given = names.given)
      (wider : names.scope.Wider extra wide.scope)
      (apart : extra ∉ (keys.foldl (use view) names).allGiven) :
      (keys.foldl (use view) wide).given = (keys.foldl (use view) names).given ∧
        (keys.foldl (use view) names).scope.Wider extra (keys.foldl (use view) wide).scope := by
    -- Names are never taken back, so what is not given at the end is not given by any step.
    induction keys generalizing names wide with
    | nil => exact ⟨same, wider⟩
    | cons key rest ih =>
        have first : extra ∉ (use view names key).allGiven := fun member =>
          apart (all_given_uses view rest _ member)
        obtain ⟨given, next⟩ := use_wider same wider first
        exact ih given next apart
  exact step (uses view) rfl wider apart

theorem wish_of_given {scope : Scope} {entry : StateKey × StateNames}
    (member : entry ∈ (ofView view scope).given) :
    ∃ wanted, (view.entryOf? entry.1).bind (wish entry.1) = some wanted := by
  have step (names : PageNames) (key : StateKey) (member : entry ∈ (use view names key).given) :
      entry ∈ names.given ∨
        ∃ wanted, (view.entryOf? entry.1).bind (wish entry.1) = some wanted := by
    unfold use at member
    split at member
    · exact Or.inl member
    · split at member
      · rename_i wanted unnamed wished
        rcases List.mem_append.1 member with before | new
        · exact Or.inl before
        · rw [List.mem_singleton.1 new]
          exact Or.inr ⟨wanted, wished⟩
      · exact Or.inl member
  have run (keys : List StateKey) (names : PageNames)
      (member : entry ∈ (keys.foldl (use view) names).given) :
      entry ∈ names.given ∨
        ∃ wanted, (view.entryOf? entry.1).bind (wish entry.1) = some wanted := by
    induction keys generalizing names with
    | nil => exact Or.inl member
    | cons key rest ih =>
        rcases ih (use view names key) member with inside | wished
        · exact step names key inside
        · exact Or.inr wished
  rcases run (uses view) ⟨scope, []⟩ member with absent | wished
  · exact absurd absent List.not_mem_nil
  · exact wished

end PageNames

namespace Document

variable {document : Document} {page : Node} {schema : PropSchema}

open PageNames

theorem owner_named (holds : document.HoldsPage page) (scope : Scope) {order : List StateKey}
    (ended : (PageView.of document page schema).graph.order = .ok order) {key : StateKey}
    (state : HasState document page schema key)
    (owns : ¬∃ target, Shares document page schema key target) :
    ∃ given, (ofView (PageView.of document page schema) scope).find? key = some given := by
  obtain ⟨entry, entered⟩ := has_state_iff.1 state
  have unshared : ∀ target, entry ≠ .shared target := by
    intro target same
    rw [same] at entered
    exact owns ⟨target, (shares_iff holds).1 entered⟩
  have member : key ∈ uses (PageView.of document page schema) := by
    rw [uses, List.mem_flatMap]
    refine ⟨(key, entry), (mem_entries_iff holds).2 entered, ?_⟩
    cases entry with
    | shared target => exact absurd rfl (unshared target)
    | pageSlot | node | owned | computed => exact List.mem_cons_self
  have wishes : ∃ wanted, ((PageView.of document page schema).entryOf? key).bind (wish key) =
      some wanted := by
    rw [(entry_iff holds).2 entered]
    cases entry with
    | shared target => exact absurd rfl (unshared target)
    | pageSlot | node | owned | computed => exact ⟨_, rfl⟩
  obtain ⟨wanted, wishes⟩ := wishes
  exact uses_name_owner member ((owner_iff holds ended).2 (.self state owns)) wishes

theorem names_of_state (holds : document.HoldsPage page) (scope : Scope) {order : List StateKey}
    (ended : (PageView.of document page schema).graph.order = .ok order) {key owner : StateKey}
    (owned : OwnedBy document page schema key owner) :
    (owner, (ofView (PageView.of document page schema) scope).of
        (PageView.of document page schema) key) ∈
      (ofView (PageView.of document page schema) scope).given := by
  obtain ⟨given, known⟩ := owner_named holds scope ended owned.state owned.owns
  rw [PageNames.of, (owner_iff holds ended).2 owned, Option.bind_some, known]
  exact mem_of_find known

end Document

end PageBuilder
