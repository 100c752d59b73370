import PageBuilder.Decimal.Binary64
import PageBuilder.SortedMap

/-!
JSON values. A tree keeps the order of its fields, as a text does; a value is a tree whose objects
list their names in increasing order, so equal values are equal trees.
-/

namespace PageBuilder

open Decimal (Binary64)

/-- Whole numbers of 64 bits, with or without a sign, are exact. All other numbers are of double
precision. -/
inductive JsonNumber where
  | int (value : Int) (inRange : -0x8000000000000000 ≤ value ∧ value < 0x10000000000000000)
  | float (value : Binary64)
  deriving DecidableEq

inductive JsonTree where
  | null
  | bool (value : Bool)
  | number (value : JsonNumber)
  | string (value : String)
  | array (items : List JsonTree)
  | object (fields : List (String × JsonTree))

namespace JsonNumber

def ofInt? (value : Int) : Option JsonNumber :=
  if inRange : -0x8000000000000000 ≤ value ∧ value < 0x10000000000000000 then
    some (.int value inRange)
  else none

def same : JsonNumber → JsonNumber → Bool
  | .int left _, .int right _ => left = right
  | .float left, .float right => left.same right
  | _, _ => false

end JsonNumber

namespace JsonTree

mutual

def Ordered : JsonTree → Prop
  | .array items => OrderedItems items
  | .object fields => NamesIncrease fields ∧ OrderedFields fields
  | _ => True

def OrderedItems : List JsonTree → Prop
  | [] => True
  | item :: rest => Ordered item ∧ OrderedItems rest

def OrderedFields : List (String × JsonTree) → Prop
  | [] => True
  | (_, value) :: rest => Ordered value ∧ OrderedFields rest

end

mutual

/-- The two zeros of double precision count as one number. -/
def same : JsonTree → JsonTree → Bool
  | .null, .null => true
  | .bool left, .bool right => left == right
  | .number left, .number right => left.same right
  | .string left, .string right => left == right
  | .array left, .array right => sameItems left right
  | .object left, .object right => sameFields left right
  | _, _ => false

def sameItems : List JsonTree → List JsonTree → Bool
  | [], [] => true
  | left :: lefts, right :: rights => same left right && sameItems lefts rights
  | _, _ => false

def sameFields : List (String × JsonTree) → List (String × JsonTree) → Bool
  | [], [] => true
  | (leftName, left) :: lefts, (rightName, right) :: rights =>
      leftName == rightName && same left right && sameFields lefts rights
  | _, _ => false

end

theorem ordered_items_iff (items : List JsonTree) :
    OrderedItems items ↔ ∀ item ∈ items, Ordered item := by
  induction items with
  | nil => simp [OrderedItems]
  | cons item rest ih => simp [OrderedItems, ih]

theorem ordered_fields_iff (fields : List (String × JsonTree)) :
    OrderedFields fields ↔ ∀ field ∈ fields, Ordered field.2 := by
  induction fields with
  | nil => simp [OrderedFields]
  | cons field rest ih => simp [OrderedFields, ih]

end JsonTree

structure Json where
  tree : JsonTree
  ordered : tree.Ordered

namespace Json

instance : BEq Json := ⟨fun left right => left.tree.same right.tree⟩

def null : Json := ⟨.null, by simp [JsonTree.Ordered]⟩

def bool (value : Bool) : Json := ⟨.bool value, by simp [JsonTree.Ordered]⟩

def number (value : JsonNumber) : Json := ⟨.number value, by simp [JsonTree.Ordered]⟩

def string (value : String) : Json := ⟨.string value, by simp [JsonTree.Ordered]⟩

def array (items : List Json) : Json :=
  ⟨.array (items.map Json.tree), by
    simp only [JsonTree.Ordered, JsonTree.ordered_items_iff, List.mem_map]
    rintro item ⟨value, _, rfl⟩
    exact value.ordered⟩

def object (fields : SortedMap Json) : Json :=
  ⟨.object (fields.entries.map fun field => (field.1, field.2.tree)), by
    simp only [JsonTree.Ordered, JsonTree.ordered_fields_iff, List.mem_map]
    refine ⟨List.pairwise_map.2 fields.sorted, ?_⟩
    rintro field ⟨entry, _, rfl⟩
    exact entry.2.ordered⟩

def asString? (value : Json) : Option String :=
  match value.tree with
  | .string text => some text
  | _ => none

theorem ext_tree {left right : Json} (same : left.tree = right.tree) : left = right := by
  cases left
  cases right
  cases same
  rfl

end Json

end PageBuilder
