import PageBuilder.Proofs.Json.Decode

/-!
How deep values nest that decoders take. A decoder takes no more arrays and objects in each other
than its place allows, and so what it gives nests no deeper when it is written again.
-/

namespace PageBuilder

namespace JsonTree

theorem levels_of_fields_le {fields : List (String × JsonTree)} {limit : Nat} :
    levelsOfFields fields ≤ limit ↔ ∀ field ∈ fields, field.2.levels ≤ limit := by
  induction fields with
  | nil => simp [levelsOfFields]
  | cons field rest ih => rw [levelsOfFields, Nat.max_le, ih, List.forall_mem_cons]

theorem levels_of_items_le {items : List JsonTree} {limit : Nat} :
    levelsOfItems items ≤ limit ↔ ∀ item ∈ items, item.levels ≤ limit := by
  induction items with
  | nil => simp [levelsOfItems]
  | cons item rest ih => rw [levelsOfItems, Nat.max_le, ih, List.forall_mem_cons]

mutual

/-- A tree has a value only where it nests no deeper than it may. -/
theorem fits_of_json : ∀ (tree : JsonTree) (limit : Nat) {value : Json},
    (Written.ofTree tree).json? limit = some value → tree.levels ≤ limit
  | .null, _, _, _ | .bool _, _, _, _ | .number _, _, _, _ | .string _, _, _, _ => Nat.zero_le _
  | .array items, 0, _, read => by
      rw [Written.ofTree, Written.json?, if_pos rfl] at read
      cases read
  | .array items, limit + 1, _, read => by
      rw [Written.ofTree, Written.json?, if_neg (Nat.succ_ne_zero limit)] at read
      obtain ⟨values, inner, _⟩ := Option.map_eq_some_iff.1 read
      exact Nat.succ_le_succ (fits_of_json_items items limit inner)
  | .object fields, 0, _, read => by
      rw [Written.ofTree, Written.json?, if_pos rfl] at read
      cases read
  | .object fields, limit + 1, _, read => by
      rw [Written.ofTree, Written.json?, if_neg (Nat.succ_ne_zero limit)] at read
      obtain ⟨values, inner, _⟩ := Option.map_eq_some_iff.1 read
      exact Nat.succ_le_succ (fits_of_json_fields fields limit inner)

theorem fits_of_json_items : ∀ (items : List JsonTree) (limit : Nat) {values : List Json},
    Written.jsonItems? limit (Written.ofItems items) = some values → levelsOfItems items ≤ limit
  | [], _, _, _ => Nat.zero_le _
  | item :: rest, limit, _, read => by
      rw [Written.ofItems, Written.jsonItems?] at read
      split at read
      · rename_i first others
        exact Nat.max_le.2 ⟨fits_of_json item limit first, fits_of_json_items rest limit others⟩
      · cases read

theorem fits_of_json_fields : ∀ (fields : List (String × JsonTree)) (limit : Nat)
    {values : List (String × Json)},
    Written.jsonFields? limit (Written.ofFields fields) = some values →
      levelsOfFields fields ≤ limit
  | [], _, _, _ => Nat.zero_le _
  | (_, value) :: rest, limit, _, read => by
      simp only [Written.ofFields, Written.jsonFields?] at read
      split at read
      · rename_i first others
        exact Nat.max_le.2 ⟨fits_of_json value limit first, fits_of_json_fields rest limit others⟩
      · cases read

end

end JsonTree

namespace Written

open JsonTree

mutual

/-- What is taken as a value nests no deeper than it may. -/
theorem levels_of_json : ∀ (written : Written) (limit : Nat) {value : Json},
    written.json? limit = some value → value.tree.levels ≤ limit
  | .null, _, _, read => by
      cases read
      exact Nat.zero_le _
  | .bool _, _, _, read => by
      cases read
      exact Nat.zero_le _
  | .number _, _, _, read => by
      obtain ⟨number, _, rfl⟩ := Option.map_eq_some_iff.1 read
      exact Nat.zero_le _
  | .string _, _, _, read => by
      obtain ⟨text, _, rfl⟩ := Option.map_eq_some_iff.1 read
      exact Nat.zero_le _
  | .array items, 0, _, read => by
      rw [json?, if_pos rfl] at read
      cases read
  | .array items, limit + 1, _, read => by
      rw [json?, if_neg (Nat.succ_ne_zero limit)] at read
      obtain ⟨values, inner, rfl⟩ := Option.map_eq_some_iff.1 read
      apply Nat.succ_le_succ
      apply levels_of_items_le.2
      intro item member
      obtain ⟨value, inside, rfl⟩ := List.mem_map.1 member
      exact levels_of_json_items items limit inner value inside
  | .object fields, 0, _, read => by
      rw [json?, if_pos rfl] at read
      cases read
  | .object fields, limit + 1, _, read => by
      rw [json?, if_neg (Nat.succ_ne_zero limit)] at read
      obtain ⟨values, inner, rfl⟩ := Option.map_eq_some_iff.1 read
      apply Nat.succ_le_succ
      apply levels_of_fields_le.2
      intro field member
      obtain ⟨entry, inside, rfl⟩ := List.mem_map.1 member
      have listed := SortedMap.mem_of_get_of_list ((SortedMap.mem_entries_iff _).1 inside)
      exact levels_of_json_fields fields limit inner entry listed

theorem levels_of_json_items : ∀ (items : List Written) (limit : Nat) {values : List Json},
    jsonItems? limit items = some values → ∀ value ∈ values, value.tree.levels ≤ limit
  | [], _, _, read => by
      cases read
      exact fun value member => absurd member List.not_mem_nil
  | item :: rest, limit, _, read => by
      rw [jsonItems?] at read
      split at read
      · rename_i first others
        cases read
        exact List.forall_mem_cons.2 ⟨levels_of_json item limit first,
          levels_of_json_items rest limit others⟩
      · cases read

theorem levels_of_json_fields : ∀ (fields : List (Option String × Written)) (limit : Nat)
    {entries : List (String × Json)},
    jsonFields? limit fields = some entries → ∀ entry ∈ entries, entry.2.tree.levels ≤ limit
  | [], _, _, read => by
      cases read
      exact fun entry member => absurd member List.not_mem_nil
  | (name, field) :: rest, limit, _, read => by
      simp only [jsonFields?] at read
      split at read
      · rename_i first others
        cases read
        exact List.forall_mem_cons.2 ⟨levels_of_json field limit first,
          levels_of_json_fields rest limit others⟩
      · cases read

end

end Written

namespace Decode

open JsonTree

variable {Value : Type} {decode : Decoder Value} {tree : Value → JsonTree}

/-- What a decoder takes nests no deeper than its place allows, when it is written again. -/
def Bounded (decode : Decoder Value) (tree : Value → JsonTree) : Prop :=
  ∀ place written value, decode place written = some value → (tree value).levels ≤ place.levels

/-- A decoder takes the tree of a value only where this fits. -/
def Fits (decode : Decoder Value) (tree : Value → JsonTree) : Prop :=
  ∀ place value other, decode place (.ofTree (tree value)) = some other →
    (tree value).levels ≤ place.levels

theorem bounded_json : Bounded json Json.tree := fun place written _ read =>
  written.levels_of_json place.levels read

theorem map_eq_some {Item Made : Type} {read : Item → Option Made} {items : List Item}
    {values : List Made} (made : items.mapM read = some values) :
    items.map read = values.map some := by
  induction items generalizing values with
  | nil =>
      cases made
      rfl
  | cons item rest ih =>
      rw [List.mapM_cons, Option.bind_eq_bind, Option.bind_eq_some_iff] at made
      obtain ⟨value, first, made⟩ := made
      rw [Option.bind_eq_bind, Option.bind_eq_some_iff] at made
      obtain ⟨others, later, same⟩ := made
      cases same
      rw [List.map_cons, List.map_cons, first, ih later]

theorem item_of_value {Item Made : Type} {read : Item → Option Made} {items : List Item}
    {values : List Made} (made : items.mapM read = some values) {value : Made}
    (member : value ∈ values) : ∃ item ∈ items, read item = some value := by
  have listed : some value ∈ values.map some := List.mem_map_of_mem member
  rw [← map_eq_some made] at listed
  exact List.mem_map.1 listed

theorem value_of_item {Item Made : Type} {read : Item → Option Made} {items : List Item}
    {values : List Made} (made : items.mapM read = some values) {item : Item}
    (member : item ∈ items) : ∃ value, read item = some value := by
  have listed : read item ∈ items.map read := List.mem_map_of_mem member
  rw [map_eq_some made] at listed
  obtain ⟨value, _, same⟩ := List.mem_map.1 listed
  exact ⟨value, same.symm⟩

theorem entry_eq_some_iff {place : Place} {field : Option String × Written}
    {made : String × Value} : entry decode place field = some made ↔
      field.1 = some made.1 ∧ decode place field.2 = some made.2 := by
  obtain ⟨name, written⟩ := field
  obtain ⟨other, value⟩ := made
  cases name with
  | none => simp [entry]
  | some name => simp [entry, Option.bind_eq_some_iff, and_comm]

/-- A map nests one level deeper than its values. -/
theorem levels_of_map_le {values : SortedMap Value} {limit : Nat} :
    (mapTree tree values).levels ≤ limit + 1 ↔
      ∀ name value, values.get? name = some value → (tree value).levels ≤ limit := by
  rw [mapTree, levels, Nat.add_le_add_iff_right, levels_of_fields_le]
  constructor
  · intro within name value found
    exact within (name, tree value)
      (List.mem_map.2 ⟨(name, value), (values.mem_entries_iff).2 found, rfl⟩)
  · intro within field member
    obtain ⟨entry, inside, rfl⟩ := List.mem_map.1 member
    exact within entry.1 entry.2 ((values.mem_entries_iff).1 inside)

/-- A map stays within a limit as long as what is new in it does. -/
theorem levels_of_changed {values changed : SortedMap Value} {limit : Nat}
    (within : (mapTree tree values).levels < limit)
    (each : ∀ name value, changed.get? name = some value →
      values.get? name = some value ∨ (tree value).levels + 1 < limit) :
    (mapTree tree changed).levels < limit := by
  have opens : 1 < limit := Nat.lt_of_le_of_lt (Nat.le_add_left 1 _) within
  obtain ⟨inner, rfl⟩ : ∃ inner, limit = inner + 2 := Nat.exists_eq_add_of_le' opens
  apply Nat.lt_succ_of_le
  apply levels_of_map_le.2
  intro name value found
  rcases each name value found with old | shallow
  · exact levels_of_map_le.1 (Nat.le_of_lt_succ within) name value old
  · exact Nat.le_of_lt_succ (Nat.lt_of_succ_lt_succ shallow)

theorem levels_of_insert {values : SortedMap Value} {name : String} {value : Value} {limit : Nat}
    (within : (mapTree tree values).levels < limit) (own : (tree value).levels + 1 < limit) :
    (mapTree tree (values.insert name value)).levels < limit := by
  apply levels_of_changed within
  intro other held found
  rw [SortedMap.get_insert] at found
  split at found
  · cases found
    exact Or.inr own
  · exact Or.inl found

theorem levels_of_erase {values : SortedMap Value} {name : String} {limit : Nat}
    (within : (mapTree tree values).levels < limit) :
    (mapTree tree (values.erase name)).levels < limit := by
  apply levels_of_changed within
  intro other held found
  rw [SortedMap.get_erase] at found
  split at found
  · cases found
  · exact Or.inl found

theorem bounded_map (bounded : Bounded decode tree) : Bounded (map decode) (mapTree tree) := by
  intro place written values read
  cases written with
  | null | bool | number | string | array => cases read
  | object fields =>
      rw [map] at read
      split at read
      · cases read
      · rename_i opens
        obtain ⟨entries, made, rfl⟩ := Option.map_eq_some_iff.1 read
        rw [← Nat.succ_pred_eq_of_ne_zero opens]
        apply levels_of_map_le.2
        intro name value found
        obtain ⟨field, _, taken⟩ := item_of_value made (SortedMap.mem_of_get_of_list found)
        exact bounded place.inside field.2 value (entry_eq_some_iff.1 taken).2

theorem fits_map (fits : Fits decode tree) : Fits (map decode) (mapTree tree) := by
  intro place values other read
  rw [mapTree, Written.ofTree, map] at read
  split at read
  · cases read
  · rename_i opens
    obtain ⟨entries, made, _⟩ := Option.map_eq_some_iff.1 read
    rw [← Nat.succ_pred_eq_of_ne_zero opens]
    apply levels_of_map_le.2
    intro name value found
    have inside : (name, tree value) ∈ values.entries.map fun entry => (entry.1, tree entry.2) :=
      List.mem_map.2 ⟨(name, value), (values.mem_entries_iff).2 found, rfl⟩
    have listed : ((some name, .ofTree (tree value)) : Option String × Written) ∈
        Written.ofFields (values.entries.map fun entry => (entry.1, tree entry.2)) := by
      rw [of_fields_eq]
      exact List.mem_map_of_mem inside
    obtain ⟨taken, made⟩ := value_of_item made listed
    exact fits place.inside value taken.2 (entry_eq_some_iff.1 made).2

theorem some_of_optional {place : Place} {written : Option Written} {value : Value}
    (read : optional decode place written = some (some value)) :
    ∃ found, decode place found = some value := by
  cases written with
  | none => cases read
  | some found =>
      cases found with
      | null => cases read
      | bool | number | string | array | object =>
          obtain ⟨made, taken, same⟩ := Option.map_eq_some_iff.1 read
          cases same
          exact ⟨_, taken⟩

theorem opens_of_record {place : Place} {written : Written} {names : List String}
    {picked : List (Option Written)} (read : record? place written names = some picked) :
    0 < place.levels := by
  rw [record?] at read
  split at read
  · cases read
  · omega

theorem opens_of_tagged {place : Place} {written : Written} {names : List String}
    {made : Nat × Body} (read : tagged? names place written = some made) :
    0 < place.levels := by
  rw [tagged?, Option.bind_eq_bind, Option.bind_eq_some_iff] at read
  obtain ⟨value, whole, read⟩ := read
  rw [Option.bind_eq_bind, Option.bind_eq_some_iff] at read
  obtain ⟨body, shape, _⟩ := read
  apply Nat.pos_of_ne_zero
  intro closed
  rw [closed] at whole
  cases written with
  | null | bool | number | string => cases shape
  | array items | object fields => cases whole

theorem whole_of_tagged {place : Place} {written : Written} {names : List String}
    {made : Nat × Body} (read : tagged? names place written = some made) :
    ∃ value, written.json? place.levels = some value := by
  rw [tagged?, Option.bind_eq_bind, Option.bind_eq_some_iff] at read
  obtain ⟨value, whole, _⟩ := read
  exact ⟨value, whole⟩

end Decode

end PageBuilder
