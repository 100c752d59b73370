import PageBuilder.Json.Decode
import PageBuilder.Proofs.SortedMap

/-!
What was written as a tree is decoded from it. Trees nest, and a decoder takes what nests no deeper
than its place allows; within that, every decoder of a part gives one of the whole.
-/

namespace PageBuilder

namespace JsonTree

mutual

/-- How many arrays and objects lie in each other. -/
def levels : JsonTree → Nat
  | .array items => levelsOfItems items + 1
  | .object fields => levelsOfFields fields + 1
  | _ => 0

def levelsOfItems : List JsonTree → Nat
  | [] => 0
  | item :: rest => max (levels item) (levelsOfItems rest)

def levelsOfFields : List (String × JsonTree) → Nat
  | [] => 0
  | (_, value) :: rest => max (levels value) (levelsOfFields rest)

end

theorem levels_le_of_mem {fields : List (String × JsonTree)} {field : String × JsonTree}
    (member : field ∈ fields) : field.2.levels ≤ levelsOfFields fields := by
  induction fields with
  | nil => exact absurd member List.not_mem_nil
  | cons first rest ih =>
      rw [levelsOfFields]
      rcases List.mem_cons.1 member with rfl | later
      · exact Nat.le_max_left _ _
      · exact Nat.le_trans (ih later) (Nat.le_max_right _ _)

mutual

/-- Each tree has a value as long as it nests no deeper than it may, and that of an ordered tree is
the tree. -/
theorem json_of_tree : ∀ (tree : JsonTree) (limit : Nat), tree.levels ≤ limit →
    ∃ value, (Written.ofTree tree).json? limit = some value ∧ (tree.Ordered → value.tree = tree)
  | .null, _, _ => ⟨.null, rfl, fun _ => rfl⟩
  | .bool value, _, _ => ⟨.bool value, rfl, fun _ => rfl⟩
  | .number value, _, _ => ⟨.number value, rfl, fun _ => rfl⟩
  | .string value, _, _ => ⟨.string value, rfl, fun _ => rfl⟩
  | .array items, 0, fits => absurd fits (Nat.not_succ_le_zero _)
  | .array items, limit + 1, fits => by
      obtain ⟨values, read, same⟩ := json_items_of_tree items limit (Nat.le_of_succ_le_succ fits)
      refine ⟨.array values, ?_, ?_⟩
      · rw [Written.ofTree, Written.json?, if_neg (Nat.succ_ne_zero limit)]
        exact congrArg (Option.map Json.array) read
      · intro ordered
        exact congrArg JsonTree.array (same ordered)
  | .object fields, 0, fits => absurd fits (Nat.not_succ_le_zero _)
  | .object fields, limit + 1, fits => by
      obtain ⟨entries, read, names, same⟩ :=
        json_fields_of_tree fields limit (Nat.le_of_succ_le_succ fits)
      refine ⟨.object (.ofList entries), ?_, ?_⟩
      · rw [Written.ofTree, Written.json?, if_neg (Nat.succ_ne_zero limit)]
        exact congrArg (Option.map fun entries => Json.object (.ofList entries)) read
      · rintro ⟨increase, ordered⟩
        have sorted : NamesIncrease entries := by
          have byName := List.pairwise_map.2 increase
          rw [← names] at byName
          exact List.pairwise_map.1 byName
        have whole : SortedMap.ofList entries = ⟨entries, sorted⟩ :=
          SortedMap.of_list_entries ⟨entries, sorted⟩
        rw [whole]
        exact congrArg JsonTree.object (same ordered)

theorem json_items_of_tree : ∀ (items : List JsonTree) (limit : Nat),
    levelsOfItems items ≤ limit →
      ∃ values, Written.jsonItems? limit (Written.ofItems items) = some values ∧
        (OrderedItems items → values.map Json.tree = items)
  | [], _, _ => ⟨[], rfl, fun _ => rfl⟩
  | item :: rest, limit, fits => by
      obtain ⟨first, others⟩ := Nat.max_le.1 fits
      obtain ⟨value, read, same⟩ := json_of_tree item limit first
      obtain ⟨values, readRest, sameRest⟩ := json_items_of_tree rest limit others
      refine ⟨value :: values, ?_, ?_⟩
      · rw [Written.ofItems, Written.jsonItems?, read, readRest]
      · rintro ⟨ordered, orderedRest⟩
        rw [List.map_cons, same ordered, sameRest orderedRest]

theorem json_fields_of_tree : ∀ (fields : List (String × JsonTree)) (limit : Nat),
    levelsOfFields fields ≤ limit →
      ∃ entries, Written.jsonFields? limit (Written.ofFields fields) = some entries ∧
        entries.map Prod.fst = fields.map Prod.fst ∧
        (OrderedFields fields → (entries.map fun entry => (entry.1, entry.2.tree)) = fields)
  | [], _, _ => ⟨[], rfl, rfl, fun _ => rfl⟩
  | (name, tree) :: rest, limit, fits => by
      obtain ⟨first, others⟩ := Nat.max_le.1 fits
      obtain ⟨value, read, same⟩ := json_of_tree tree limit first
      obtain ⟨entries, readRest, names, sameRest⟩ := json_fields_of_tree rest limit others
      refine ⟨(name, value) :: entries, ?_, ?_, ?_⟩
      · simp only [Written.ofFields, Written.jsonFields?, read, readRest]
      · rw [List.map_cons, List.map_cons, names]
      · rintro ⟨ordered, orderedRest⟩
        rw [List.map_cons, same ordered, sameRest orderedRest]

end

end JsonTree

namespace Decode

open JsonTree

variable {Value : Type} {place : Place}

/-- A decoder gives back every value from its tree, wherever the tree may stand. -/
def Inverts (decode : Decoder Value) (tree : Value → JsonTree) : Prop :=
  ∀ place value, (tree value).levels ≤ place.levels →
    decode place (.ofTree (tree value)) = some value

theorem inverts_string : Inverts string JsonTree.string := fun _ _ _ => rfl

theorem inverts_json : Inverts json Json.tree := by
  intro place value fits
  obtain ⟨read, found, same⟩ := json_of_tree value.tree place.levels fits
  rw [json, found, Json.ext_tree (same value.ordered)]

variable {fields : List (String × JsonTree)}

/-- What lies in an object that fits fits one level further in. -/
theorem fits_inside (fits : (JsonTree.object fields).levels ≤ place.levels)
    {field : String × JsonTree} (member : field ∈ fields) :
    field.2.levels ≤ place.levels - 1 :=
  Nat.le_sub_of_add_le (Nat.le_trans (Nat.succ_le_succ (levels_le_of_mem member)) fits)

def writtenFields (fields : List (String × JsonTree)) : List (String × Written) :=
  fields.map fun field => (field.1, .ofTree field.2)

theorem of_fields_eq (fields : List (String × JsonTree)) :
    Written.ofFields fields = fields.map fun field => (some field.1, .ofTree field.2) := by
  induction fields with
  | nil => rfl
  | cons field rest ih => rw [Written.ofFields, ih, List.map_cons]

theorem all_read {Item Made : Type} {read : Item → Option Made} {give : Item → Made}
    {items : List Item} (reads : ∀ item ∈ items, read item = some (give item)) :
    items.mapM read = some (items.map give) := by
  induction items with
  | nil => rfl
  | cons item rest ih =>
      obtain ⟨first, others⟩ := List.forall_mem_cons.1 reads
      rw [List.mapM_cons, first, ih others]
      rfl

theorem map_field : (Written.ofFields fields).mapM field = some (writtenFields fields) := by
  rw [of_fields_eq, List.mapM_map]
  exact all_read fun _ _ => rfl

theorem values_of_fields {limit : Nat} (fit : ∀ field ∈ fields, field.2.levels ≤ limit) :
    ∃ values, (writtenFields fields).mapM (fun field => field.2.json? limit) = some values := by
  induction fields with
  | nil => exact ⟨[], rfl⟩
  | cons first rest ih =>
      obtain ⟨value, read, _⟩ := json_of_tree first.2 limit (fit first List.mem_cons_self)
      obtain ⟨values, others⟩ := ih fun field member => fit field (List.mem_cons_of_mem _ member)
      refine ⟨value :: values, ?_⟩
      rw [writtenFields, List.map_cons, ← writtenFields, List.mapM_cons, read, others]
      rfl

theorem body_of_tree : body? (.ofTree (.object fields)) = some (.named (writtenFields fields)) := by
  rw [Written.ofTree, body?, map_field]
  rfl

theorem filter_written_fields (keep : String → Bool) :
    (writtenFields fields).filter (fun field => keep field.1) =
      writtenFields (fields.filter fun field => keep field.1) := by
  rw [writtenFields, List.filter_map]
  rfl

theorem named_field_absent {name : String} (absent : name ∉ fields.map Prod.fst) :
    (writtenFields fields).filter (fun field => field.1 = name) = [] := by
  rw [filter_written_fields fun other => decide (other = name)]
  refine List.map_eq_nil_iff.2 (List.filter_eq_nil_iff.2 fun field member same => absent ?_)
  exact of_decide_eq_true same ▸ List.mem_map_of_mem member

/-- Where no name is repeated, a field is found as it was written, or there is none. -/
theorem named_field_eq (distinct : (fields.map Prod.fst).Nodup) (name : String) :
    namedField? (writtenFields fields) name = some ((fields.lookup name).map .ofTree) := by
  induction fields with
  | nil => rfl
  | cons first rest ih =>
      obtain ⟨fresh, others⟩ := List.nodup_cons.1 distinct
      rw [namedField?, writtenFields, List.map_cons, ← writtenFields, List.lookup_cons]
      by_cases same : first.1 = name
      · rw [List.filter_cons_of_pos (by simpa using same), named_field_absent (same ▸ fresh)]
        simp [same]
      · rw [List.filter_cons_of_neg (by simpa using same)]
        have different : (name == first.1) = false := by simpa using Ne.symm same
        rw [different]
        exact ih others

theorem pick_eq (distinct : (fields.map Prod.fst).Nodup) (names : List String) :
    (Body.named (writtenFields fields)).pick? names =
      some (names.map fun name => (fields.lookup name).map .ofTree) := by
  rw [Body.pick?]
  exact all_read fun name _ => named_field_eq distinct name

theorem record_of_fields (opens : place.levels ≠ 0) (distinct : (fields.map Prod.fst).Nodup)
    (names : List String) : record? place (.ofTree (.object fields)) names =
      some (names.map fun name => (fields.lookup name).map .ofTree) := by
  rw [record?, if_neg opens, body_of_tree]
  exact pick_eq distinct names

theorem record_of_tree (fits : (JsonTree.object fields).levels ≤ place.levels)
    (distinct : (fields.map Prod.fst).Nodup) (names : List String) :
    record? place (.ofTree (.object fields)) names =
      some (names.map fun name => (fields.lookup name).map .ofTree) := by
  have opens : place.levels ≠ 0 := by
    rw [levels] at fits
    omega
  exact record_of_fields opens distinct names

theorem tagged_of_tree {names : List String} {name : String} {number : Nat}
    (fits : (JsonTree.object ((tagName, .string name) :: fields)).levels ≤ place.levels)
    (distinct : (((tagName, JsonTree.string name) :: fields).map Prod.fst).Nodup)
    (listed : names.idxOf? name = some number) :
    tagged? names place (.ofTree (.object ((tagName, .string name) :: fields))) =
      some (number, .named (writtenFields fields)) := by
  obtain ⟨value, whole, _⟩ := json_of_tree _ _ fits
  have fresh : tagName ∉ fields.map Prod.fst := (List.nodup_cons.1 distinct).1
  have kept : (fields.filter fun field => decide (field.1 ≠ tagName)) = fields := by
    refine List.filter_eq_self.2 fun field member => decide_eq_true fun same => fresh ?_
    exact same ▸ List.mem_map_of_mem member
  have others : (writtenFields ((tagName, JsonTree.string name) :: fields)).filter
      (fun field => decide (field.1 ≠ tagName)) = writtenFields fields := by
    rw [filter_written_fields fun other => decide (other ≠ tagName),
      List.filter_cons_of_neg (by simp), kept]
  rw [tagged?, whole, body_of_tree]
  dsimp only [bind, Option.bind]
  rw [named_field_eq distinct, List.lookup_cons_self]
  dsimp only [Option.map_some]
  rw [Written.ofTree, caseNumber?, listed]
  dsimp only
  rw [others]

def mapTree (tree : Value → JsonTree) (map : SortedMap Value) : JsonTree :=
  .object (map.entries.map fun entry => (entry.1, tree entry.2))

theorem levels_of_entry {tree : Value → JsonTree} {map : SortedMap Value}
    {entry : String × Value} (member : entry ∈ map.entries) :
    (tree entry.2).levels + 1 ≤ (mapTree tree map).levels :=
  Nat.succ_le_succ (levels_le_of_mem
    (List.mem_map_of_mem (f := fun entry : String × Value => (entry.1, tree entry.2)) member))

/-- A map is read entry by entry, also where the entries come back changed. -/
theorem map_changed {decode : Decoder Value} {tree : Value → JsonTree} {change : Value → Value}
    (reads : ∀ place value, (tree value).levels ≤ place.levels →
      decode place (.ofTree (tree value)) = some (change value))
    (values : SortedMap Value) (fits : (mapTree tree values).levels ≤ place.levels) :
    map decode place (.ofTree (mapTree tree values)) = some (values.mapValues change) := by
  have opens : place.levels ≠ 0 := by
    rw [mapTree, levels] at fits
    omega
  have entries : (Written.ofFields (values.entries.map fun entry => (entry.1, tree entry.2))).mapM
      (entry decode place.inside) = some (values.mapValues change).entries := by
    rw [of_fields_eq, List.map_map, List.mapM_map]
    refine all_read fun held member => ?_
    have fit : (tree held.2).levels ≤ place.inside.levels :=
      Nat.le_sub_of_add_le (Nat.le_trans (levels_of_entry member) fits)
    dsimp only [Function.comp, entry, bind, Option.bind]
    rw [reads place.inside held.2 fit]
  rw [mapTree, Written.ofTree, map, if_neg opens, entries, Option.map_some,
    SortedMap.of_list_entries]

theorem inverts_map {decode : Decoder Value} {tree : Value → JsonTree}
    (inverts : Inverts decode tree) : Inverts (map decode) (mapTree tree) := by
  intro place values fits
  have read : map decode place _ = some (values.mapValues id) := map_changed inverts values fits
  have same : values.mapValues id = values := SortedMap.ext_get fun name => by
    rw [SortedMap.get_map_values, Option.map_id, id_eq]
  rw [read, same]

/-- A value that is not written as null, or null for none. -/
def optionTree (tree : Value → JsonTree) : Option Value → JsonTree
  | some value => tree value
  | none => .null

theorem inverts_option {decode : Decoder Value} {tree : Value → JsonTree}
    (inverts : Inverts decode tree) (visible : ∀ value, tree value ≠ .null) :
    Inverts (option decode) (optionTree tree) := by
  intro place value fits
  cases value with
  | none => rfl
  | some value =>
      have read := inverts place value fits
      rw [optionTree, option]
      · rw [read]
        rfl
      · intro null
        refine visible value ?_
        cases written : tree value with
        | null => rfl
        | bool | number | string | array | object =>
            rw [written] at null
            cases null

theorem inverts_choice {names : List (String × Value)} {name : Value → String}
    (listed : ∀ value, names.lookup (name value) = some value) :
    Inverts (choice names) fun value => .string (name value) :=
  fun _ value _ => listed value

end Decode

end PageBuilder
