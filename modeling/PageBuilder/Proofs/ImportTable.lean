import PageBuilder.ImportTable
import PageBuilder.Proofs.Scope
import PageBuilder.Proofs.SortedMap
import Mathlib.Data.List.Nodup

/-!
Aliases of imports. No alias stands for two imports, all of them are bound in the scope of the
module, and so what a module imports has distinct names.
-/

namespace PageBuilder

def Import.source : Import → String
  | .named source _ => source
  | .whole source => source

namespace ImportTable

variable {table : ImportTable}

def alias? (table : ImportTable) : Import → Option String
  | .named source name => table.aliasOf? source name
  | .whole source => table.wholeOf? source

def localNames (table : ImportTable) : List String :=
  table.modules.entries.flatMap fun entry => entry.2.whole.toList ++ entry.2.named.values

theorem module_of_record_named (source name localName other : String) :
    (table.recordNamed source name localName).moduleOf other =
      if other = source then
        { table.moduleOf source with
          named := (table.moduleOf source).named.insert name localName }
      else table.moduleOf other := by
  rw [recordNamed, moduleOf]
  dsimp only
  rw [SortedMap.get_insert]
  split
  · rfl
  · rfl

/-- A new alias is that of the import that it is recorded for. -/
theorem alias_record_named (source name localName : String) (imported : Import) :
    (table.recordNamed source name localName).alias? imported =
      if imported = .named source name then some localName else table.alias? imported := by
  cases imported with
  | named from_ taken =>
      rw [alias?, aliasOf?, module_of_record_named]
      by_cases same : from_ = source
      · rw [if_pos same, SortedMap.get_insert, same]
        by_cases again : taken = name
        · rw [if_pos again, if_pos (by rw [again])]
        · rw [if_neg again, if_neg (fun equal => again (Import.named.inj equal).2)]
          rfl
      · rw [if_neg same, if_neg (fun equal => same (Import.named.inj equal).1)]
        rfl
  | whole from_ =>
      have other : Import.whole from_ ≠ .named source name := by
        intro equal
        cases equal
      rw [alias?, wholeOf?, module_of_record_named, if_neg other]
      split
      · rename_i same
        rw [same]
        rfl
      · rfl

theorem module_of_record_whole (source localName other : String) :
    (table.recordWhole source localName).moduleOf other =
      if other = source then { table.moduleOf source with whole := some localName }
      else table.moduleOf other := by
  rw [recordWhole, moduleOf]
  dsimp only
  rw [SortedMap.get_insert]
  split
  · rfl
  · rfl

theorem alias_record_whole (source localName : String) (imported : Import) :
    (table.recordWhole source localName).alias? imported =
      if imported = .whole source then some localName else table.alias? imported := by
  cases imported with
  | named from_ taken =>
      have other : Import.named from_ taken ≠ .whole source := by
        intro equal
        cases equal
      rw [alias?, aliasOf?, module_of_record_whole, if_neg other]
      split
      · rename_i same
        rw [same]
        rfl
      · rfl
  | whole from_ =>
      rw [alias?, wholeOf?, module_of_record_whole]
      by_cases same : from_ = source
      · rw [if_pos same, if_pos (by rw [same])]
      · rw [if_neg same, if_neg (fun equal => same (Import.whole.inj equal))]
        rfl

/-- Different imports have different aliases, all bound in the scope and fit for it. -/
structure Sound (table : ImportTable) : Prop where
  apart : ∀ {left right : Import} {localName : String}, table.alias? left = some localName →
    table.alias? right = some localName → left = right
  bound : ∀ {imported : Import} {localName : String}, table.alias? imported = some localName →
    localName ∈ table.scope.visible
  usable : ∀ {imported : Import} {localName : String}, table.alias? imported = some localName →
    Identifier.Usable localName

theorem Sound.import_named (sound : table.Sound) (source name : String) :
    (table.importNamed source name).2.Sound := by
  rw [importNamed]
  split
  · exact sound
  · rename_i unknown
    have adds := table.scope.adds_bind_fresh name
    generalize table.scope.bindFresh name = bound at adds
    obtain ⟨localName, next⟩ := bound
    have known {imported : Import} {other : String}
        (found : ({ table with scope := next }.recordNamed source name localName).alias?
          imported = some other) :
        imported = .named source name ∧ localName = other ∨
          imported ≠ .named source name ∧ table.alias? imported = some other := by
      rw [alias_record_named] at found
      split at found
      · rename_i same
        exact Or.inl ⟨same, Option.some.inj found⟩
      · rename_i different
        exact Or.inr ⟨different, found⟩
    have fresh {other : Import} (found : table.alias? other = some localName) : False :=
      adds.fresh localName (List.mem_singleton_self _) (sound.bound found)
    refine ⟨?_, ?_, ?_⟩
    · intro left right other first second
      rcases known first with ⟨here, rfl⟩ | ⟨_, before⟩
      · rcases known second with ⟨again, _⟩ | ⟨_, before⟩
        · rw [here, again]
        · exact (fresh before).elim
      · rcases known second with ⟨_, rfl⟩ | ⟨_, after⟩
        · exact (fresh before).elim
        · exact sound.apart before after
    · intro imported other found
      rcases known found with ⟨_, rfl⟩ | ⟨_, before⟩
      · exact adds.bound (List.mem_singleton_self _)
      · exact adds.kept (sound.bound before)
    · intro imported other found
      rcases known found with ⟨_, rfl⟩ | ⟨_, before⟩
      · exact adds.usable localName (List.mem_singleton_self _)
      · exact sound.usable before

/-- A table after one import: it was known, or it has a fresh alias now. -/
theorem import_named_cases (table : ImportTable) (source name : String) :
    (∃ localName, table.aliasOf? source name = some localName ∧
        (table.importNamed source name).2 = table) ∨
      table.aliasOf? source name = none ∧
        (table.importNamed source name).2 =
          { table with scope := table.scope.bind (table.scope.freshName name) }.recordNamed
            source name (table.scope.freshName name) := by
  rw [importNamed]
  split
  · rename_i localName known
    exact Or.inl ⟨localName, known, rfl⟩
  · rename_i unknown
    exact Or.inr ⟨unknown, rfl⟩

def Aliased (imported : Import) (localName : String) (table : ImportTable) : Prop :=
  table.alias? imported = some localName

/-- What is imported keeps its alias. -/
theorem Aliased.import_named {imported : Import} {localName : String}
    (known : table.Aliased imported localName) (source name : String) :
    (table.importNamed source name).2.Aliased imported localName := by
  rcases table.import_named_cases source name with ⟨_, _, same⟩ | ⟨unknown, added⟩
  · rw [same]
    exact known
  · rw [Aliased, added, alias_record_named, if_neg]
    · exact known
    · rintro rfl
      rw [Aliased, alias?, unknown] at known
      cases known

theorem aliased_import_named (table : ImportTable) (source name : String) :
    ∃ localName, (table.importNamed source name).2.Aliased (.named source name) localName := by
  rcases table.import_named_cases source name with ⟨localName, known, same⟩ | ⟨_, added⟩
  · exact ⟨localName, by rw [same]; exact known⟩
  · refine ⟨table.scope.freshName name, ?_⟩
    have recorded := @alias_record_named
      { table with scope := table.scope.bind (table.scope.freshName name) } source name
      (table.scope.freshName name) (.named source name)
    rw [if_pos rfl] at recorded
    rw [Aliased, added, recorded]

def dropNamed (table : ImportTable) (source name : String) : ImportTable :=
  let imports := table.moduleOf source
  { table with
    modules := table.modules.insert source { imports with named := imports.named.erase name } }

theorem render_insert_empty {modules : SortedMap ModuleImports} {source : String}
    (new : modules.get? source = none) :
    String.join ((modules.insert source .empty).entries.map fun entry => entry.2.render entry.1) =
      String.join (modules.entries.map fun entry => entry.2.render entry.1) := by
  obtain ⟨front, back, before, after⟩ := SortedMap.entries_insert_new new ModuleImports.empty
  have nothing : ModuleImports.empty.render source = "" := rfl
  rw [before, after]
  simp only [List.map_append, List.map_cons, String.join_append, String.join_cons, nothing,
    String.empty_append]

theorem render_insert_module (table : ImportTable) (source : String) :
    String.join ((table.modules.insert source (table.moduleOf source)).entries.map
      fun entry => entry.2.render entry.1) = table.render := by
  rw [moduleOf]
  cases found : table.modules.get? source with
  | none => exact render_insert_empty found
  | some imports =>
      rw [Option.getD_some, SortedMap.insert_known found]
      rfl

theorem named_erase {source name : String} (unknown : table.aliasOf? source name = none) :
    (table.moduleOf source).named.erase name = (table.moduleOf source).named := by
  apply SortedMap.ext_get
  intro other
  rw [SortedMap.get_erase]
  split
  · rename_i same
    rw [same]
    exact unknown.symm
  · rfl

theorem render_drop_unknown {source name : String}
    (unknown : table.aliasOf? source name = none) :
    (table.dropNamed source name).render = table.render := by
  rw [render, dropNamed]
  dsimp only
  rw [named_erase unknown]
  exact table.render_insert_module source

theorem render_drop_recorded {source name : String}
    (unknown : table.aliasOf? source name = none) (localName : String) :
    ((table.recordNamed source name localName).dropNamed source name).render = table.render := by
  have module := table.module_of_record_named source name localName source
  rw [if_pos rfl] at module
  have named : ((table.moduleOf source).named.insert name localName).erase name =
      (table.moduleOf source).named := by
    apply SortedMap.ext_get
    intro other
    rw [SortedMap.get_erase, SortedMap.get_insert]
    split
    · rename_i same
      rw [same]
      exact unknown.symm
    · rfl
  have modules : ((table.recordNamed source name localName).dropNamed source name).modules =
      table.modules.insert source (table.moduleOf source) := by
    rw [dropNamed]
    dsimp only
    rw [module, named]
    apply SortedMap.ext_get
    intro other
    rw [SortedMap.get_insert, SortedMap.get_insert, recordNamed]
    split
    · rfl
    · rename_i different
      exact table.modules.get_insert_ne _ different
  rw [render, modules]
  exact table.render_insert_module source

theorem module_of_entry {source : String} {imports : ModuleImports}
    (member : (source, imports) ∈ table.modules.entries) : table.moduleOf source = imports := by
  rw [moduleOf, (table.modules.mem_entries_iff).1 member]
  rfl

/-- The local names of one module are the aliases of what is imported from it. -/
theorem alias_of_entry {source localName : String} {imports : ModuleImports}
    (member : (source, imports) ∈ table.modules.entries) :
    (localName ∈ imports.whole.toList ↔ table.alias? (.whole source) = some localName) ∧
      (localName ∈ imports.named.values ↔
        ∃ name, table.alias? (.named source name) = some localName) := by
  rw [alias?, wholeOf?, module_of_entry member, Option.mem_toList, SortedMap.mem_values_iff]
  refine ⟨Iff.rfl, ?_⟩
  simp only [alias?, aliasOf?, module_of_entry member]

theorem alias_of_local_name {source localName : String} {imports : ModuleImports}
    (member : (source, imports) ∈ table.modules.entries)
    (inside : localName ∈ imports.whole.toList ++ imports.named.values) :
    ∃ imported, table.alias? imported = some localName ∧ imported.source = source := by
  rcases List.mem_append.1 inside with whole | named
  · exact ⟨.whole source, (alias_of_entry member).1.1 whole, rfl⟩
  · obtain ⟨name, found⟩ := (alias_of_entry member).2.1 named
    exact ⟨.named source name, found, rfl⟩

theorem Sound.entry_nodup (sound : table.Sound) {source : String} {imports : ModuleImports}
    (member : (source, imports) ∈ table.modules.entries) :
    (imports.whole.toList ++ imports.named.values).Nodup := by
  apply List.nodup_append.2
  refine ⟨?_, ?_, ?_⟩
  · cases imports.whole with
    | none => exact List.nodup_nil
    | some localName => exact List.nodup_singleton localName
  · apply List.Nodup.map_on _ imports.named.keys_nodup.of_map
    intro left here right there same
    obtain ⟨name, value⟩ := left
    obtain ⟨other, again⟩ := right
    cases same
    have first : table.alias? (.named source name) = some value := by
      rw [alias?, aliasOf?, module_of_entry member]
      exact imports.named.mem_entries_iff.1 here
    have second : table.alias? (.named source other) = some value := by
      rw [alias?, aliasOf?, module_of_entry member]
      exact imports.named.mem_entries_iff.1 there
    cases sound.apart first second
    rfl
  · intro whole first named second same
    obtain ⟨name, found⟩ := (alias_of_entry member).2.1 second
    have other := (alias_of_entry member).1.1 first
    rw [same] at other
    cases sound.apart other found

/-- What a module imports has distinct local names. -/
theorem Sound.local_names_nodup (sound : table.Sound) : table.localNames.Nodup := by
  unfold localNames
  apply List.nodup_flatMap.2
  refine ⟨fun entry member => sound.entry_nodup member, ?_⟩
  apply table.modules.sorted.imp_of_mem
  intro left right here there smaller localName first second
  obtain ⟨one, foundOne, fromOne⟩ := alias_of_local_name here first
  obtain ⟨two, foundTwo, fromTwo⟩ := alias_of_local_name there second
  rw [← fromOne, ← fromTwo, sound.apart foundOne foundTwo] at smaller
  exact String.lt_irrefl _ smaller

/-- The imports of a table that started empty bind nothing but their local names. -/
theorem Sound.adds (sound : table.Sound) : Scope.root.Adds table.scope table.localNames := by
  have known {localName : String} (member : localName ∈ table.localNames) :
      ∃ imported, table.alias? imported = some localName := by
    obtain ⟨entry, listed, inside⟩ := List.mem_flatMap.1 member
    obtain ⟨imported, found, _⟩ := alias_of_local_name listed inside
    exact ⟨imported, found⟩
  constructor
  case apart => exact sound.local_names_nodup
  case fresh => exact fun name _ visible => List.not_mem_nil visible
  case usable =>
    intro localName member
    obtain ⟨imported, found⟩ := known member
    exact sound.usable found
  case bound =>
    intro localName member
    obtain ⟨imported, found⟩ := known member
    exact sound.bound found
  case kept => exact List.nil_subset _

end ImportTable

end PageBuilder
