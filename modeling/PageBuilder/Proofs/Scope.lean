import PageBuilder.Proofs.FreshName
import PageBuilder.Scope

/-!
Names that scopes give. A fresh name is bound nowhere around, and generated code can bind it: it is
an identifier and no reserved word.
-/

namespace PageBuilder

namespace Identifier

/-- What generated code can bind. -/
structure Usable (name : String) : Prop where
  valid : isValid name = true
  free : isReserved name = false

theorem is_part_of_valid {name : String} (valid : isValid name = true) {char : Char}
    (member : char ∈ name.toList) : isPart char = true := by
  rw [isValid] at valid
  split at valid
  · cases valid
  · rename_i first rest shape
    obtain ⟨start, parts⟩ := Bool.and_eq_true_iff.1 valid
    rw [shape] at member
    rcases List.mem_cons.1 member with rfl | later
    · rw [isPart, start, Bool.true_or]
    · exact List.all_eq_true.1 parts char later

theorem is_digit_of_digit {char : Char} (digit : char.isDigit = true) : isDigit char = true := by
  rw [Char.isDigit, Bool.and_eq_true] at digit
  rw [isDigit, Bool.and_eq_true]
  exact digit

theorem is_part_of_digit {char : Char} (digit : char.isDigit = true) : isPart char = true := by
  rw [isPart, is_digit_of_digit digit, Bool.or_true]

theorem is_valid_numbered {base : String} (valid : isValid base = true) (number : Nat) :
    isValid (FreshName.numbered base number) = true := by
  have digits : (toString number).toList.all isPart = true := by
    rw [Nat.toString_eq_repr, Nat.repr_eq_ofList_toDigits, String.toList_ofList, List.all_eq_true]
    intro char member
    apply is_part_of_digit
    exact Nat.isDigit_of_mem_toDigits (by omega) (by omega) member
  rw [isValid] at valid ⊢
  rw [FreshName.numbered, String.toList_append]
  cases chars : base.toList with
  | nil =>
      rw [chars] at valid
      cases valid
  | cons first rest =>
      rw [chars] at valid
      obtain ⟨start, parts⟩ := Bool.and_eq_true_iff.1 valid
      rw [List.cons_append, Bool.and_eq_true, List.all_append, parts, digits]
      exact ⟨start, rfl⟩

end Identifier

namespace Scope

variable {scope : Scope}

theorem first_free_fresh_name (scope : Scope) (wanted : String) :
    FreshName.FirstFree (Identifier.ofText wanted) (· ∈ scope.visible ++ Identifier.reservedWords)
      (scope.freshName wanted) :=
  FreshName.first_free_choose _ _

theorem fresh_name_not_visible (scope : Scope) (wanted : String) :
    scope.freshName wanted ∉ scope.visible := by
  intro visible
  exact (scope.first_free_fresh_name wanted).free (List.mem_append_left _ visible)

theorem fresh_name_usable (scope : Scope) (wanted : String) :
    Identifier.Usable (scope.freshName wanted) := by
  have first := scope.first_free_fresh_name wanted
  refine ⟨?_, ?_⟩
  · have base := Identifier.is_valid_of_text wanted
    generalize scope.freshName wanted = name at first
    cases first with
    | itself => exact base
    | withNumber => exact Identifier.is_valid_numbered base _
  · rw [Identifier.isReserved, Bool.eq_false_iff]
    intro contained
    exact first.free (List.mem_append_right _ (List.contains_iff_mem.1 contained))

structure Free (scope : Scope) (name : String) : Prop where
  unbound : name ∉ scope.visible
  unreserved : Identifier.isReserved name = false

theorem reserve_some_iff {next : Scope} {name : String} :
    scope.reserve? name = some next ↔ scope.Free name ∧ next = scope.bind name := by
  rw [reserve?]
  split
  · rename_i taken
    constructor
    · intro absurd
      cases absurd
    · intro held
      obtain ⟨⟨unbound, unreserved⟩, _⟩ := held
      rw [unreserved, Bool.or_false] at taken
      exact absurd (List.contains_iff_mem.1 taken) unbound
  · rename_i free
    rw [Bool.or_eq_true, not_or] at free
    constructor
    · intro same
      refine ⟨⟨?_, ?_⟩, (Option.some.inj same).symm⟩
      · exact fun member => free.1 (List.contains_iff_mem.2 member)
      · exact Bool.eq_false_iff.2 free.2
    · intro held
      rw [held.2]

theorem reserve_none_iff {name : String} : scope.reserve? name = none ↔ ¬scope.Free name := by
  rw [Option.eq_none_iff_forall_ne_some]
  constructor
  · intro refused free
    exact refused _ (reserve_some_iff.2 ⟨free, rfl⟩)
  · intro taken next same
    exact taken (reserve_some_iff.1 same).1

theorem fresh_name_free (scope : Scope) (wanted : String) :
    scope.Free (scope.freshName wanted) :=
  ⟨scope.fresh_name_not_visible wanted, (scope.fresh_name_usable wanted).free⟩

/-- Names are new in a scope, and bound in the next one. -/
structure Adds (scope next : Scope) (names : List String) : Prop where
  apart : names.Nodup
  fresh : ∀ name ∈ names, name ∉ scope.visible
  usable : ∀ name ∈ names, Identifier.Usable name
  bound : names ⊆ next.visible
  kept : scope.visible ⊆ next.visible

theorem Adds.nil (scope : Scope) : scope.Adds scope [] where
  apart := List.nodup_nil
  fresh := fun _ member => absurd member List.not_mem_nil
  usable := fun _ member => absurd member List.not_mem_nil
  bound := List.nil_subset _
  kept := List.Subset.refl _

theorem adds_bind_fresh (scope : Scope) (wanted : String) :
    scope.Adds (scope.bindFresh wanted).2 [(scope.bindFresh wanted).1] where
  apart := List.nodup_singleton _
  fresh := by
    intro name member
    rw [List.mem_singleton.1 member]
    exact scope.fresh_name_not_visible wanted
  usable := by
    intro name member
    rw [List.mem_singleton.1 member]
    exact scope.fresh_name_usable wanted
  bound := List.cons_subset.2 ⟨List.mem_cons_self, List.nil_subset _⟩
  kept := List.subset_cons_self _ _

theorem Adds.append {middle next : Scope} {earlier later : List String}
    (first : scope.Adds middle earlier) (second : middle.Adds next later) :
    scope.Adds next (earlier ++ later) where
  apart := by
    apply List.nodup_append.2
    refine ⟨first.apart, second.apart, ?_⟩
    intro name member other inside same
    exact second.fresh other inside (first.bound (same ▸ member))
  fresh := by
    intro name member visible
    rcases List.mem_append.1 member with before | after
    · exact first.fresh name before visible
    · exact second.fresh name after (first.kept visible)
  usable := by
    intro name member
    rcases List.mem_append.1 member with before | after
    · exact first.usable name before
    · exact second.usable name after
  bound := List.append_subset.2 ⟨List.Subset.trans first.bound second.kept, second.bound⟩
  kept := List.Subset.trans first.kept second.kept

theorem Adds.of_below {next : Scope} {names : List String} (adds : scope.below.Adds next names) :
    scope.Adds next names :=
  ⟨adds.apart, adds.fresh, adds.usable, adds.bound, adds.kept⟩

theorem Adds.of_subperm {next : Scope} {names fewer : List String} (adds : scope.Adds next names)
    (among : fewer.Subperm names) : scope.Adds next fewer := by
  have inside : fewer ⊆ names := among.subset
  obtain ⟨chosen, same, within⟩ := among
  refine ⟨same.nodup_iff.1 (adds.apart.sublist within), ?_, ?_, ?_, adds.kept⟩
  · exact fun name member => adds.fresh name (inside member)
  · exact fun name member => adds.usable name (inside member)
  · exact List.Subset.trans inside adds.bound

/-- A scope that shows one more name. -/
structure Wider (extra : String) (narrow wide : Scope) : Prop where
  kept : narrow.visible ⊆ wide.visible
  only : ∀ name ∈ wide.visible, name = extra ∨ name ∈ narrow.visible

namespace Wider

variable {extra : String} {narrow wide : Scope}

theorem of_bind (scope : Scope) (extra : String) : Wider extra scope (scope.bind extra) :=
  ⟨List.subset_cons_self _ _, fun _ member => List.mem_cons.1 member⟩

theorem below (wider : Wider extra narrow wide) : Wider extra narrow.below wide.below :=
  ⟨wider.kept, wider.only⟩

theorem bind (wider : Wider extra narrow wide) (name : String) :
    Wider extra (narrow.bind name) (wide.bind name) := by
  refine ⟨List.cons_subset_cons name wider.kept, ?_⟩
  intro other member
  rcases List.mem_cons.1 member with rfl | before
  · exact Or.inr List.mem_cons_self
  · exact (wider.only other before).imp_right (List.mem_cons_of_mem name)

/-- The wider scope gives the same fresh names, but for the one that it has. -/
theorem fresh_name_eq (wider : Wider extra narrow wide) {wanted : String}
    (other : narrow.freshName wanted ≠ extra) :
    wide.freshName wanted = narrow.freshName wanted := by
  apply FreshName.choose_more
  · exact List.append_subset.2 ⟨List.Subset.trans wider.kept (List.subset_append_left _ _),
      List.subset_append_right _ _⟩
  · intro member
    rcases List.mem_append.1 member with visible | reserved
    · rcases wider.only _ visible with same | before
      · exact other same
      · exact narrow.fresh_name_not_visible wanted before
    · exact FreshName.choose_not_mem _ _ (List.mem_append_right _ reserved)

end Wider

end Scope

end PageBuilder
