import PageBuilder.SortedMap
import Mathlib.Data.List.Sort

/-!
What a sorted map holds after it was made from a list or changed entry by entry.
-/

namespace PageBuilder.SortedMap

universe u

variable {Value : Type u}

theorem find_entry_append (name : String) (left right : List (String × Value)) :
    findEntry name (left ++ right) = (findEntry name left).or (findEntry name right) := by
  induction left with
  | nil => rfl
  | cons first rest ih =>
      rw [List.cons_append, findEntry, findEntry]
      split
      · rfl
      · exact ih

theorem get_foldl_insert (entries : List (String × Value)) (map : SortedMap Value)
    (name : String) :
    (entries.foldl (fun map entry => map.insert entry.1 entry.2) map).get? name =
      (findEntry name entries.reverse).or (map.get? name) := by
  induction entries generalizing map with
  | nil => rfl
  | cons first rest ih =>
      rw [List.foldl_cons, ih, List.reverse_cons, find_entry_append, get_insert]
      cases found : findEntry name rest.reverse with
      | some value => rfl
      | none =>
          by_cases same : first.1 = name
          · simp [findEntry, same]
          · simp [findEntry, same, Ne.symm same]

theorem get_of_list (entries : List (String × Value)) (name : String) :
    (ofList entries).get? name = findEntry name entries.reverse := by
  rw [ofList, get_foldl_insert, get_empty, Option.or_none]

theorem find_entry_map_keys {change : String → String} (injective : Function.Injective change)
    (entries : List (String × Value)) (name : String) :
    findEntry (change name) (entries.map fun entry => (change entry.1, entry.2)) =
      findEntry name entries := by
  induction entries with
  | nil => rfl
  | cons first rest ih =>
      rw [List.map_cons, findEntry, findEntry, ih]
      simp only [injective.eq_iff]

theorem get_of_list_map_keys {change : String → String} (injective : Function.Injective change)
    (entries : List (String × Value)) (name : String) :
    (ofList (entries.map fun entry => (change entry.1, entry.2))).get? (change name) =
      (ofList entries).get? name := by
  rw [get_of_list, get_of_list, ← List.map_reverse, find_entry_map_keys injective]

theorem mem_of_get_of_list {entries : List (String × Value)} {name : String} {value : Value}
    (found : (ofList entries).get? name = some value) : (name, value) ∈ entries := by
  rw [get_of_list] at found
  exact List.mem_reverse.1 (mem_of_find_entry found)

theorem find_entry_is_some {entries : List (String × Value)} {name : String} {value : Value}
    (member : (name, value) ∈ entries) : (findEntry name entries).isSome := by
  induction entries with
  | nil => exact absurd member List.not_mem_nil
  | cons first rest ih =>
      rw [findEntry]
      split
      · rfl
      · rename_i different
        rcases List.mem_cons.1 member with same | later
        · exact absurd (congrArg Prod.fst same).symm different
        · exact ih later

theorem get_of_list_iff {entries : List (String × Value)}
    (unique : ∀ name left right, (name, left) ∈ entries → (name, right) ∈ entries → left = right)
    {name : String} {value : Value} :
    (ofList entries).get? name = some value ↔ (name, value) ∈ entries := by
  constructor
  · exact mem_of_get_of_list
  · intro member
    have present := find_entry_is_some (List.mem_reverse.2 member)
    obtain ⟨other, found⟩ := Option.isSome_iff_exists.1 present
    have same : other = value :=
      unique name other value (List.mem_reverse.1 (mem_of_find_entry found)) member
    rw [get_of_list, found, same]

theorem mem_keys_iff (map : SortedMap Value) {name : String} :
    name ∈ map.keys ↔ ∃ value, map.get? name = some value := by
  rw [keys, List.mem_map]
  constructor
  · intro held
    obtain ⟨⟨key, value⟩, member, rfl⟩ := held
    exact ⟨value, map.mem_entries_iff.1 member⟩
  · intro held
    obtain ⟨value, found⟩ := held
    exact ⟨(name, value), map.mem_entries_iff.2 found, rfl⟩

theorem ext_get {left right : SortedMap Value}
    (same : ∀ name, left.get? name = right.get? name) : left = right := by
  have irreflexive : Std.Irrefl fun first second : String × Value => first.1 < second.1 :=
    ⟨fun _ => String.lt_irrefl _⟩
  have antisymmetric : Std.Antisymm fun first second : String × Value => first.1 < second.1 :=
    ⟨fun _ _ less more => absurd more (String.lt_asymm less)⟩
  refine ext_entries (List.Pairwise.eq_of_mem_iff left.sorted right.sorted ?_)
  rintro ⟨name, value⟩
  rw [left.mem_entries_iff, right.mem_entries_iff, same]

theorem insert_known {map : SortedMap Value} {name : String} {value : Value}
    (known : map.get? name = some value) : map.insert name value = map := by
  refine ext_get fun other => ?_
  rw [get_insert]
  split
  · rename_i same
    rw [same, known]
  · rfl

theorem of_list_entries (map : SortedMap Value) : ofList map.entries = map := by
  refine ext_get fun name => Option.ext fun value => ?_
  rw [get_of_list_iff, map.mem_entries_iff]
  intro name left right first second
  rw [map.mem_entries_iff] at first second
  exact Option.some.inj (first.symm.trans second)

theorem entries_of_list {entries : List (String × Value)} (sorted : NamesIncrease entries) :
    (ofList entries).entries = entries :=
  congrArg SortedMap.entries (of_list_entries ⟨entries, sorted⟩)

theorem entries_insert_new {map : SortedMap Value} {name : String} (new : map.get? name = none)
    (value : Value) :
    ∃ front back, map.entries = front ++ back ∧
      (map.insert name value).entries = front ++ (name, value) :: back := by
  obtain ⟨entries, sorted⟩ := map
  have step (entries : List (String × Value)) (new : findEntry name entries = none) :
      ∃ front back, entries = front ++ back ∧
        insertEntry name value entries = front ++ (name, value) :: back := by
    induction entries with
    | nil => exact ⟨[], [], rfl, rfl⟩
    | cons entry rest ih =>
        rw [findEntry] at new
        split at new
        · cases new
        · rename_i different
          rw [insertEntry]
          split
          · exact ⟨[], entry :: rest, rfl, rfl⟩
          · obtain ⟨front, back, rfl, inserted⟩ := ih new
            rw [if_neg (Ne.symm different), inserted]
            exact ⟨entry :: front, back, rfl, rfl⟩
  exact step entries new

theorem keys_eq_of_mem {Other : Type u} {left : SortedMap Value} {right : SortedMap Other}
    (same : ∀ name, name ∈ left.keys ↔ name ∈ right.keys) : left.keys = right.keys := by
  have irreflexive : Std.Irrefl fun first second : String => first < second := ⟨String.lt_irrefl⟩
  have antisymmetric : Std.Antisymm fun first second : String => first < second :=
    ⟨fun _ _ less more => absurd more (String.lt_asymm less)⟩
  exact left.keys_increase.eq_of_mem_iff right.keys_increase same

theorem mem_values_iff (map : SortedMap Value) {value : Value} :
    value ∈ map.values ↔ ∃ name, map.get? name = some value := by
  rw [values, List.mem_map]
  constructor
  · intro held
    obtain ⟨⟨key, value⟩, member, rfl⟩ := held
    exact ⟨key, map.mem_entries_iff.1 member⟩
  · intro held
    obtain ⟨name, found⟩ := held
    exact ⟨(name, value), map.mem_entries_iff.2 found, rfl⟩

theorem mem_keys_of_list {entries : List (String × Value)} {name : String} :
    name ∈ (ofList entries).keys ↔ ∃ value, (name, value) ∈ entries := by
  rw [mem_keys_iff]
  constructor
  · intro held
    obtain ⟨value, found⟩ := held
    exact ⟨value, mem_of_get_of_list found⟩
  · intro held
    obtain ⟨value, member⟩ := held
    rw [get_of_list]
    exact Option.isSome_iff_exists.1 (find_entry_is_some (List.mem_reverse.2 member))

theorem contains_iff (map : SortedMap Value) {name : String} :
    map.contains name = true ↔ ∃ value, map.get? name = some value := by
  rw [contains, Option.isSome_iff_exists]

theorem get_erase (map : SortedMap Value) (name other : String) :
    (map.erase name).get? other = if other = name then none else map.get? other := by
  split
  · rename_i same
    rw [same, get_erase_self]
  · rename_i different
    exact map.get_erase_ne different

theorem get_foldl_erase {Item : Type u} (nameOf : Item → String) (items : List Item)
    (map : SortedMap Value) (name : String) :
    (items.foldl (fun map item => map.erase (nameOf item)) map).get? name =
      if name ∈ items.map nameOf then none else map.get? name := by
  induction items generalizing map with
  | nil => rfl
  | cons first rest ih =>
      rw [List.foldl_cons, ih, get_erase, List.map_cons]
      by_cases later : name ∈ rest.map nameOf
      · rw [if_pos later, if_pos (List.mem_cons_of_mem _ later)]
      · by_cases same : name = nameOf first
        · rw [if_neg later, if_pos same, if_pos (same ▸ List.mem_cons_self)]
        · rw [if_neg later, if_neg same, if_neg]
          intro member
          rcases List.mem_cons.1 member with here | there
          · exact same here
          · exact later there

def mapValues {Other : Type u} (change : Value → Other) (map : SortedMap Value) :
    SortedMap Other :=
  ⟨map.entries.map fun entry => (entry.1, change entry.2), by
    rw [NamesIncrease, List.pairwise_map]
    exact map.sorted⟩

theorem find_entry_map_values {Other : Type u} (change : Value → Other)
    (entries : List (String × Value)) (name : String) :
    findEntry name (entries.map fun entry => (entry.1, change entry.2)) =
      (findEntry name entries).map change := by
  induction entries with
  | nil => rfl
  | cons entry rest ih =>
      rw [List.map_cons, findEntry, findEntry]
      split
      · rfl
      · exact ih

theorem get_map_values {Other : Type u} (change : Value → Other) (map : SortedMap Value)
    (name : String) : (map.mapValues change).get? name = (map.get? name).map change :=
  find_entry_map_values change map.entries name

theorem of_list_map_values {Other : Type u} (change : Value → Other)
    (entries : List (String × Value)) :
    ofList (entries.map fun entry => (entry.1, change entry.2)) =
      (ofList entries).mapValues change := by
  refine ext_get fun name => ?_
  rw [get_map_values, get_of_list, get_of_list, ← List.map_reverse, find_entry_map_values]

end PageBuilder.SortedMap
