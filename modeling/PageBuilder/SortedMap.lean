/-!
Maps from names to values, kept in the code point order of their names. The order is part of the
type, so two maps with the same contents are the same map, and a listing needs no further sorting.
-/

namespace PageBuilder

universe u

variable {Value : Type u}

def NamesIncrease (entries : List (String × Value)) : Prop :=
  entries.Pairwise fun first second => first.1 < second.1

namespace SortedMap

def insertEntry (name : String) (value : Value) :
    List (String × Value) → List (String × Value)
  | [] => [(name, value)]
  | entry :: rest =>
      if name < entry.1 then (name, value) :: entry :: rest
      else if name = entry.1 then (name, value) :: rest
      else entry :: insertEntry name value rest

def eraseEntry (name : String) (entries : List (String × Value)) : List (String × Value) :=
  entries.filter fun entry => entry.1 ≠ name

def findEntry (name : String) : List (String × Value) → Option Value
  | [] => none
  | entry :: rest => if entry.1 = name then some entry.2 else findEntry name rest

theorem mem_insert_entry {name : String} {value : Value} {entries : List (String × Value)}
    {entry : String × Value} (member : entry ∈ insertEntry name value entries) :
    entry = (name, value) ∨ entry ∈ entries := by
  induction entries with
  | nil => simpa [insertEntry] using member
  | cons first rest ih =>
      rw [insertEntry] at member
      split at member
      · simpa using member
      · split at member
        · rcases List.mem_cons.1 member with same | old
          · exact Or.inl same
          · exact Or.inr (List.mem_cons_of_mem _ old)
        · rcases List.mem_cons.1 member with same | new
          · exact Or.inr (same ▸ List.mem_cons_self)
          · exact (ih new).imp id (List.mem_cons_of_mem _)

theorem names_increase_insert (name : String) (value : Value)
    {entries : List (String × Value)} (sorted : NamesIncrease entries) :
    NamesIncrease (insertEntry name value entries) := by
  induction entries with
  | nil => exact List.pairwise_singleton _ _
  | cons first rest ih =>
      have tail : NamesIncrease rest := (List.pairwise_cons.1 sorted).2
      have below := (List.pairwise_cons.1 sorted).1
      rw [insertEntry]
      split
      · rename_i smaller
        refine List.pairwise_cons.2 ⟨fun entry member => ?_, sorted⟩
        rcases List.mem_cons.1 member with same | later
        · exact same ▸ smaller
        · exact String.lt_trans smaller (below entry later)
      · split
        · rename_i _ same
          exact List.pairwise_cons.2 ⟨fun entry member => same ▸ below entry member, tail⟩
        · rename_i notSmaller different
          refine List.pairwise_cons.2 ⟨fun entry member => ?_, ih tail⟩
          rcases mem_insert_entry member with same | later
          · subst same
            exact Decidable.byContradiction fun notLarger =>
              different (String.le_antisymm notLarger notSmaller)
          · exact below entry later

theorem names_increase_erase (name : String) {entries : List (String × Value)}
    (sorted : NamesIncrease entries) : NamesIncrease (eraseEntry name entries) :=
  sorted.sublist List.filter_sublist

theorem find_entry_insert_self (name : String) (value : Value)
    (entries : List (String × Value)) :
    findEntry name (insertEntry name value entries) = some value := by
  induction entries with
  | nil => simp [insertEntry, findEntry]
  | cons first rest ih =>
      rw [insertEntry]
      split
      · simp [findEntry]
      · split
        · simp [findEntry]
        · rename_i _ different
          simp [findEntry, Ne.symm different, ih]

theorem find_entry_insert_ne {name other : String} (value : Value) (different : other ≠ name)
    (entries : List (String × Value)) :
    findEntry other (insertEntry name value entries) = findEntry other entries := by
  induction entries with
  | nil => simp [insertEntry, findEntry, Ne.symm different]
  | cons first rest ih =>
      rw [insertEntry]
      split
      · simp [findEntry, Ne.symm different]
      · split
        · rename_i _ same
          simp [findEntry, Ne.symm different, ← same]
        · simp [findEntry, ih]

theorem find_entry_erase_self (name : String) (entries : List (String × Value)) :
    findEntry name (eraseEntry name entries) = none := by
  induction entries with
  | nil => rfl
  | cons first rest ih =>
      by_cases same : first.1 = name
      · simpa [eraseEntry, same] using ih
      · simpa [eraseEntry, same, findEntry] using ih

theorem find_entry_erase_ne {name other : String} (different : other ≠ name)
    (entries : List (String × Value)) :
    findEntry other (eraseEntry name entries) = findEntry other entries := by
  induction entries with
  | nil => rfl
  | cons first rest ih =>
      by_cases same : first.1 = name
      · simpa [eraseEntry, same, findEntry, Ne.symm different] using ih
      · by_cases found : first.1 = other
        · simp [eraseEntry, findEntry, found, different]
        · simpa [eraseEntry, same, findEntry, found] using ih

theorem mem_of_find_entry {name : String} {value : Value} {entries : List (String × Value)}
    (found : findEntry name entries = some value) : (name, value) ∈ entries := by
  induction entries with
  | nil => simp [findEntry] at found
  | cons first rest ih =>
      rw [findEntry] at found
      split at found
      · rename_i same
        cases found
        exact same ▸ List.mem_cons_self
      · exact List.mem_cons_of_mem _ (ih found)

theorem find_entry_of_mem {name : String} {value : Value} {entries : List (String × Value)}
    (sorted : NamesIncrease entries) (member : (name, value) ∈ entries) :
    findEntry name entries = some value := by
  induction entries with
  | nil => simp at member
  | cons first rest ih =>
      have below := (List.pairwise_cons.1 sorted).1
      rcases List.mem_cons.1 member with same | later
      · simp [findEntry, ← same]
      · have different : first.1 ≠ name := by
          intro same
          have smaller : first.1 < name := below (name, value) later
          exact String.lt_irrefl name (same ▸ smaller)
        simp [findEntry, different, ih (List.pairwise_cons.1 sorted).2 later]

end SortedMap

structure SortedMap (Value : Type u) where
  entries : List (String × Value)
  sorted : NamesIncrease entries
  deriving DecidableEq

namespace SortedMap

def empty : SortedMap Value := ⟨[], List.Pairwise.nil⟩

instance : EmptyCollection (SortedMap Value) := ⟨empty⟩
instance : Inhabited (SortedMap Value) := ⟨empty⟩

instance [BEq Value] : BEq (SortedMap Value) := ⟨fun left right => left.entries == right.entries⟩

def get? (map : SortedMap Value) (name : String) : Option Value := findEntry name map.entries

def contains (map : SortedMap Value) (name : String) : Bool := (map.get? name).isSome

def insert (map : SortedMap Value) (name : String) (value : Value) : SortedMap Value :=
  ⟨insertEntry name value map.entries, names_increase_insert name value map.sorted⟩

def erase (map : SortedMap Value) (name : String) : SortedMap Value :=
  ⟨eraseEntry name map.entries, names_increase_erase name map.sorted⟩

/-- Of two entries of one name the later counts. -/
def ofList (entries : List (String × Value)) : SortedMap Value :=
  entries.foldl (fun map entry => map.insert entry.1 entry.2) empty

def keys (map : SortedMap Value) : List String := map.entries.map Prod.fst

def values (map : SortedMap Value) : List Value := map.entries.map Prod.snd

def size (map : SortedMap Value) : Nat := map.entries.length

def isEmpty (map : SortedMap Value) : Bool := map.entries.isEmpty

@[simp] theorem get_empty (name : String) : (empty : SortedMap Value).get? name = none := rfl

@[simp] theorem get_insert_self (map : SortedMap Value) (name : String) (value : Value) :
    (map.insert name value).get? name = some value :=
  find_entry_insert_self name value map.entries

theorem get_insert_ne (map : SortedMap Value) {name other : String} (value : Value)
    (different : other ≠ name) : (map.insert name value).get? other = map.get? other :=
  find_entry_insert_ne value different map.entries

theorem get_insert (map : SortedMap Value) (name other : String) (value : Value) :
    (map.insert name value).get? other = if other = name then some value else map.get? other := by
  split
  · rename_i same
    rw [same, get_insert_self]
  · rename_i different
    exact map.get_insert_ne value different

@[simp] theorem get_erase_self (map : SortedMap Value) (name : String) :
    (map.erase name).get? name = none :=
  find_entry_erase_self name map.entries

theorem get_erase_ne (map : SortedMap Value) {name other : String} (different : other ≠ name) :
    (map.erase name).get? other = map.get? other :=
  find_entry_erase_ne different map.entries

theorem mem_entries_iff (map : SortedMap Value) {name : String} {value : Value} :
    (name, value) ∈ map.entries ↔ map.get? name = some value :=
  ⟨find_entry_of_mem map.sorted, mem_of_find_entry⟩

theorem ext_entries {left right : SortedMap Value} (same : left.entries = right.entries) :
    left = right := by
  cases left
  cases right
  cases same
  rfl

theorem keys_increase (map : SortedMap Value) : map.keys.Pairwise (· < ·) :=
  List.pairwise_map.2 map.sorted

theorem keys_nodup (map : SortedMap Value) : map.keys.Nodup :=
  map.keys_increase.imp fun {first second} (smaller : first < second) (same : first = second) =>
    String.lt_irrefl second (same ▸ smaller)

end SortedMap

end PageBuilder
