import PageBuilder.FreshName
import Mathlib.Data.List.Nodup
import Mathlib.Data.List.Perm.Subperm

/-!
The chosen name is free, and it is the first free one in the order in which names are tried.
-/

namespace PageBuilder.FreshName

theorem to_string_injective {left right : Nat} (same : toString left = toString right) :
    left = right := by
  have digits : Nat.toDigits 10 left = Nat.toDigits 10 right := by
    rw [Nat.toString_eq_repr, Nat.toString_eq_repr, Nat.repr_eq_ofList_toDigits,
      Nat.repr_eq_ofList_toDigits] at same
    exact String.ofList_injective same
  calc
    left = Nat.ofDigitChars 10 (Nat.toDigits 10 left) 0 := Nat.ofDigitChars_ten_toDigits.symm
    _ = Nat.ofDigitChars 10 (Nat.toDigits 10 right) 0 := by rw [digits]
    _ = right := Nat.ofDigitChars_ten_toDigits

theorem numbered_injective (base : String) {left right : Nat}
    (same : numbered base left = numbered base right) : left = right := by
  apply to_string_injective
  rw [numbered, numbered] at same
  have lists := congrArg String.toList same
  rw [String.toList_append, String.toList_append] at lists
  exact String.toList_injective (List.append_cancel_left lists)

/-- The search ends at the first free number, or after `count` numbers that are taken. -/
theorem search_stops (base : String) (taken : List String) (number count : Nat) :
    ∃ tried ≤ count, search base taken number count = numbered base (number + tried) ∧
      (∀ earlier < tried, numbered base (number + earlier) ∈ taken) ∧
      (tried < count → numbered base (number + tried) ∉ taken) := by
  induction count generalizing number with
  | zero =>
      refine ⟨0, Nat.le_refl 0, rfl, ?_, ?_⟩
      · intro earlier before
        exact absurd before (Nat.not_lt_zero earlier)
      · intro before
        exact absurd before (Nat.lt_irrefl 0)
  | succ count ih =>
      rw [search]
      by_cases used : numbered base number ∈ taken
      · rw [if_pos (List.contains_iff_mem.2 used)]
        obtain ⟨tried, bound, found, before, free⟩ := ih (number + 1)
        have shift (step : Nat) : number + 1 + step = number + (step + 1) := by omega
        refine ⟨tried + 1, by omega, by rw [found, shift], ?_, ?_⟩
        · intro earlier smaller
          cases earlier with
          | zero => exact used
          | succ earlier =>
              rw [← shift]
              exact before earlier (by omega)
        · intro inside
          rw [← shift]
          exact free (by omega)
      · rw [if_neg (fun contained => used (List.contains_iff_mem.1 contained))]
        refine ⟨0, Nat.zero_le _, rfl, ?_, fun _ => used⟩
        intro earlier before
        exact absurd before (Nat.not_lt_zero earlier)

/-- Distinct numbers give distinct names, so no more of them are taken than names are. -/
theorem numbers_le {base : String} {taken : List String} {number count : Nat}
    (used : ∀ step < count, numbered base (number + step) ∈ taken) : count ≤ taken.length := by
  let names := (List.range count).map fun step => numbered base (number + step)
  have distinct : names.Nodup := by
    apply List.Nodup.map _ List.nodup_range
    intro left right same
    have numbers := numbered_injective base same
    omega
  have subset : names ⊆ taken := by
    intro name member
    obtain ⟨step, inRange, rfl⟩ := List.mem_map.1 member
    exact used step (List.mem_range.1 inRange)
  have size : names.length ≤ taken.length := (distinct.subperm subset).length_le
  rwa [List.length_map, List.length_range] at size

theorem exists_free_number (base : String) (taken : List String) (number : Nat) :
    ∃ step ≤ taken.length, numbered base (number + step) ∉ taken := by
  by_contra all
  have used : ∀ step < taken.length + 1, numbered base (number + step) ∈ taken := by
    intro step bound
    by_contra free
    exact all ⟨step, Nat.le_of_lt_succ bound, free⟩
  exact absurd (numbers_le used) (Nat.not_succ_le_self _)

/-- A name that is taken gets the least positive number that makes it free. -/
theorem choose_numbered {base : String} {taken : List String} (used : base ∈ taken) :
    ∃ number, 1 ≤ number ∧ choose base taken = numbered base number ∧
      numbered base number ∉ taken ∧
      ∀ smaller, 1 ≤ smaller → smaller < number → numbered base smaller ∈ taken := by
  obtain ⟨tried, bound, found, before, free⟩ := search_stops base taken 1 taken.length
  have unused : numbered base (1 + tried) ∉ taken := by
    by_cases inside : tried < taken.length
    · exact free inside
    · obtain ⟨step, stepBound, stepFree⟩ := exists_free_number base taken 1
      have last : step = tried := by
        by_contra other
        exact stepFree (before step (by omega))
      rw [← last]
      exact stepFree
  refine ⟨1 + tried, by omega, ?_, unused, ?_⟩
  · rw [choose, if_pos (List.contains_iff_mem.2 used), found]
  · intro smaller positive less
    have place := before (smaller - 1) (by omega)
    rwa [show 1 + (smaller - 1) = smaller by omega] at place

theorem choose_free {base : String} {taken : List String} (free : base ∉ taken) :
    choose base taken = base := by
  rw [choose, if_neg (fun contained => free (List.contains_iff_mem.1 contained))]

/-- The first free name in the order in which names are tried. -/
inductive FirstFree (base : String) (Taken : String → Prop) : String → Prop
  | itself (free : ¬Taken base) : FirstFree base Taken base
  | withNumber {number : Nat} (positive : 1 ≤ number) (used : Taken base)
      (before : ∀ smaller, 1 ≤ smaller → smaller < number → Taken (numbered base smaller))
      (free : ¬Taken (numbered base number)) : FirstFree base Taken (numbered base number)

namespace FirstFree

variable {base name other : String} {Taken : String → Prop}

theorem free (first : FirstFree base Taken name) : ¬Taken name := by
  cases first with
  | itself free => exact free
  | withNumber _ _ _ free => exact free

theorem unique (left : FirstFree base Taken name) (right : FirstFree base Taken other) :
    name = other := by
  cases left with
  | itself unused =>
      cases right with
      | itself => rfl
      | withNumber _ used => exact absurd used unused
  | @withNumber number positive used before free =>
      cases right with
      | itself unused => exact absurd used unused
      | @withNumber later otherPositive _ otherBefore otherFree =>
          rcases Nat.lt_trichotomy number later with less | same | more
          · exact absurd (otherBefore number positive less) free
          · rw [same]
          · exact absurd (before later otherPositive more) otherFree

/-- More taken names change nothing unless the first free one is among them. -/
theorem more {More : String → Prop} (first : FirstFree base Taken name)
    (kept : ∀ name, Taken name → More name) (free : ¬More name) : FirstFree base More name := by
  cases first with
  | itself => exact .itself free
  | withNumber positive used before _ =>
      exact .withNumber positive (kept base used)
        (fun smaller least less => kept _ (before smaller least less)) free

end FirstFree

theorem first_free_choose (base : String) (taken : List String) :
    FirstFree base (· ∈ taken) (choose base taken) := by
  by_cases used : base ∈ taken
  · obtain ⟨number, positive, found, free, before⟩ := choose_numbered used
    rw [found]
    exact .withNumber positive used before free
  · rw [choose_free used]
    exact .itself used

theorem numbered_ne (base : String) (number : Nat) : numbered base number ≠ base := by
  intro same
  have lists := congrArg String.toList same
  rw [numbered, String.toList_append, List.append_right_eq_self, Nat.toString_eq_repr,
    Nat.repr_eq_ofList_toDigits, String.toList_ofList] at lists
  exact Nat.toDigits_ne_nil lists

/-- Each number that is tried in vain meets a taken name of its own, and so does the base. -/
theorem FirstFree.number_le {base name : String} {taken : List String}
    (first : FirstFree base (· ∈ taken) name) :
    name = base ∨ ∃ number ≤ taken.length, name = numbered base number := by
  cases first with
  | itself => exact Or.inl rfl
  | @withNumber number positive used before _ =>
      refine Or.inr ⟨number, ?_, rfl⟩
      have others : ∀ step < number - 1, numbered base (1 + step) ∈ taken.erase base := by
        intro step bound
        rw [List.mem_erase_of_ne (numbered_ne base _)]
        exact before (1 + step) (by omega) (by omega)
      have size := numbers_le others
      have inhabited := List.length_pos_of_mem used
      rw [List.length_erase_of_mem used] at size
      omega

theorem choose_not_mem (base : String) (taken : List String) : choose base taken ∉ taken :=
  (first_free_choose base taken).free

/-- More taken names change nothing unless the choice is among them. -/
theorem choose_more {base : String} {taken more : List String} (kept : taken ⊆ more)
    (free : choose base taken ∉ more) : choose base more = choose base taken := by
  have before := (first_free_choose base taken).more (fun name member => kept member) free
  exact (first_free_choose base more).unique before

theorem propose_not_mem (wanted : String) (taken : List String) :
    propose wanted taken ∉ taken :=
  choose_not_mem _ taken

end PageBuilder.FreshName
