import PageBuilder.Proofs.ImportTable

/-!
The statements that a table is written as. Each import of the table is in one of them, with its
alias, and they go by their modules.
-/

namespace PageBuilder

namespace ImportTable

variable {table : ImportTable}

/-- An import statement, with the local names beside what they stand for. -/
inductive Statement where
  | whole (source localName : String)
  | named (source : String) (specifiers : List (String × String))

namespace Statement

def text : Statement → String
  | .whole source localName => s!"import * as {localName} from {Text.quoted source};\n"
  | .named source specifiers =>
      let specifiers := ", ".intercalate (specifiers.map ModuleImports.specifier)
      s!"import \x7b {specifiers} \x7d from {Text.quoted source};\n"

def source : Statement → String
  | .whole source _ => source
  | .named source _ => source

def imports : Statement → List (Import × String)
  | .whole source localName => [(.whole source, localName)]
  | .named source specifiers =>
      specifiers.map fun specifier => (.named source specifier.1, specifier.2)

/-- Statements go by their module, and that for the whole module is the first of two. -/
inductive Before : Statement → Statement → Prop
  | source {first second : Statement} (smaller : first.source < second.source) :
      Before first second
  | whole (source localName : String) (specifiers : List (String × String)) :
      Before (.whole source localName) (.named source specifiers)

/-- The specifiers of a statement, if it has any, go by the names that are taken. -/
inductive Proper : Statement → Prop
  | whole (source localName : String) : Proper (.whole source localName)
  | named (source : String) {specifiers : List (String × String)} (nonempty : specifiers ≠ [])
      (sorted : NamesIncrease specifiers) : Proper (.named source specifiers)

theorem source_of_mem {statement : Statement} {entry : Import × String}
    (member : entry ∈ statement.imports) : entry.1.source = statement.source := by
  cases statement with
  | whole source localName =>
      cases List.mem_singleton.1 member
      rfl
  | named source specifiers =>
      obtain ⟨specifier, _, rfl⟩ := List.mem_map.1 member
      rfl

theorem Proper.imports_nodup {statement : Statement} (proper : statement.Proper) :
    (statement.imports.map Prod.fst).Nodup := by
  cases proper with
  | whole source localName => exact List.nodup_singleton _
  | named source nonempty sorted =>
      rw [imports, List.map_map, List.Nodup, List.pairwise_map]
      apply sorted.imp
      intro first second smaller same
      cases first
      cases second
      cases same
      exact String.lt_irrefl _ smaller

theorem Before.disjoint {first second : Statement} (before : first.Before second) :
    (first.imports.map Prod.fst).Disjoint (second.imports.map Prod.fst) := by
  intro imported here there
  obtain ⟨one, member, rfl⟩ := List.mem_map.1 here
  obtain ⟨two, again, same⟩ := List.mem_map.1 there
  cases before with
  | source smaller =>
      rw [← source_of_mem member, ← source_of_mem again, same] at smaller
      exact String.lt_irrefl _ smaller
  | whole source localName specifiers =>
      cases List.mem_singleton.1 member
      obtain ⟨specifier, _, rfl⟩ := List.mem_map.1 again
      cases same

end Statement

def statementsOf (source : String) (imports : ModuleImports) : List Statement :=
  imports.whole.toList.map (Statement.whole source) ++
    if imports.named.isEmpty then [] else [.named source imports.named.entries]

def statements (table : ImportTable) : List Statement :=
  table.modules.entries.flatMap fun entry => statementsOf entry.1 entry.2

/-- All imports are written, each in one place and with its alias. -/
structure Written (table : ImportTable) (statements : List Statement) : Prop where
  text : table.render = String.join (statements.map Statement.text)
  sorted : statements.Pairwise Statement.Before
  proper : ∀ statement ∈ statements, statement.Proper
  listed : ∀ imported localName, (imported, localName) ∈ statements.flatMap Statement.imports ↔
    table.alias? imported = some localName
  once : ((statements.flatMap Statement.imports).map Prod.fst).Nodup

theorem render_statements_of (source : String) (imports : ModuleImports) :
    imports.render source = String.join ((statementsOf source imports).map Statement.text) := by
  rw [ModuleImports.render, statementsOf, List.map_append, String.join_append]
  cases imports.whole with
  | none =>
      dsimp only
      split <;> simp [Statement.text]
  | some localName =>
      dsimp only
      split <;> simp [Statement.text]

theorem cases_of_statement {source : String} {imports : ModuleImports} {statement : Statement}
    (member : statement ∈ statementsOf source imports) :
    (∃ localName, imports.whole = some localName ∧ statement = .whole source localName) ∨
      imports.named.entries ≠ [] ∧ statement = .named source imports.named.entries := by
  rcases List.mem_append.1 member with whole | named
  · obtain ⟨localName, known, rfl⟩ := List.mem_map.1 whole
    exact Or.inl ⟨localName, Option.mem_toList.1 known, rfl⟩
  · split at named
    · cases named
    · rename_i nonempty
      rw [SortedMap.isEmpty, List.isEmpty_iff] at nonempty
      exact Or.inr ⟨nonempty, List.mem_singleton.1 named⟩

theorem statements_of_sorted (source : String) (imports : ModuleImports) :
    (statementsOf source imports).Pairwise Statement.Before := by
  rw [statementsOf]
  cases imports.whole with
  | none =>
      dsimp only [Option.toList_none, List.map_nil, List.nil_append]
      split
      · exact List.Pairwise.nil
      · exact List.pairwise_singleton _ _
  | some localName =>
      dsimp only [Option.toList_some, List.map_cons, List.map_nil, List.singleton_append]
      split
      · exact List.pairwise_singleton _ _
      · apply List.pairwise_pair.2
        exact .whole source localName _

theorem statement_source {source : String} {imports : ModuleImports} {statement : Statement}
    (member : statement ∈ statementsOf source imports) : statement.source = source := by
  rcases cases_of_statement member with ⟨_, _, rfl⟩ | ⟨_, rfl⟩
  · rfl
  · rfl

theorem statements_sorted (table : ImportTable) : table.statements.Pairwise Statement.Before := by
  apply List.pairwise_flatMap.2
  refine ⟨fun entry _ => statements_of_sorted entry.1 entry.2, ?_⟩
  apply table.modules.sorted.imp
  intro one two smaller first here second there
  apply Statement.Before.source
  rw [statement_source here, statement_source there]
  exact smaller

theorem statements_proper {statement : Statement} (member : statement ∈ table.statements) :
    statement.Proper := by
  obtain ⟨entry, _, inside⟩ := List.mem_flatMap.1 member
  rcases cases_of_statement inside with ⟨_, _, rfl⟩ | ⟨nonempty, rfl⟩
  · exact .whole _ _
  · exact .named _ nonempty entry.2.named.sorted

theorem whole_mem_statements_of {source localName : String} {imports : ModuleImports}
    (known : imports.whole = some localName) :
    Statement.whole source localName ∈ statementsOf source imports := by
  rw [statementsOf, known]
  exact List.mem_append_left _ (List.mem_singleton_self _)

theorem named_mem_statements_of {source : String} {imports : ModuleImports}
    {entry : String × String} (member : entry ∈ imports.named.entries) :
    Statement.named source imports.named.entries ∈ statementsOf source imports := by
  have nonempty : imports.named.isEmpty = false := by
    rw [SortedMap.isEmpty, List.isEmpty_eq_false_iff]
    exact List.ne_nil_of_mem member
  rw [statementsOf, nonempty]
  exact List.mem_append_right _ (List.mem_singleton_self _)

theorem entry_of_module {source : String} (known : table.moduleOf source ≠ .empty) :
    (source, table.moduleOf source) ∈ table.modules.entries := by
  rw [moduleOf] at known ⊢
  cases found : table.modules.get? source with
  | none =>
      rw [found] at known
      exact absurd rfl known
  | some imports => exact table.modules.mem_entries_iff.2 found

theorem mem_statements_iff (table : ImportTable) (imported : Import) (localName : String) :
    (imported, localName) ∈ table.statements.flatMap Statement.imports ↔
      table.alias? imported = some localName := by
  constructor
  · intro member
    obtain ⟨statement, listed, inside⟩ := List.mem_flatMap.1 member
    obtain ⟨⟨source, imports⟩, entry, here⟩ := List.mem_flatMap.1 listed
    rcases cases_of_statement here with ⟨other, known, rfl⟩ | ⟨_, rfl⟩
    · cases List.mem_singleton.1 inside
      rw [alias?, wholeOf?, module_of_entry entry]
      exact known
    · obtain ⟨⟨name, other⟩, taken, same⟩ := List.mem_map.1 inside
      cases same
      rw [alias?, aliasOf?, module_of_entry entry]
      exact imports.named.mem_entries_iff.1 taken
  · intro known
    cases imported with
    | named source name =>
        have taken : (name, localName) ∈ (table.moduleOf source).named.entries :=
          (table.moduleOf source).named.mem_entries_iff.2 known
        have entry : (source, table.moduleOf source) ∈ table.modules.entries := by
          apply entry_of_module
          intro nothing
          rw [nothing] at taken
          cases taken
        apply List.mem_flatMap.2
        refine ⟨.named source (table.moduleOf source).named.entries, ?_, ?_⟩
        · exact List.mem_flatMap.2 ⟨_, entry, named_mem_statements_of taken⟩
        · exact List.mem_map.2 ⟨_, taken, rfl⟩
    | whole source =>
        have whole : (table.moduleOf source).whole = some localName := known
        have entry : (source, table.moduleOf source) ∈ table.modules.entries := by
          apply entry_of_module
          intro nothing
          rw [nothing] at whole
          cases whole
        apply List.mem_flatMap.2
        refine ⟨.whole source localName, ?_, List.mem_singleton_self _⟩
        exact List.mem_flatMap.2 ⟨_, entry, whole_mem_statements_of whole⟩

theorem written (table : ImportTable) : table.Written table.statements := by
  refine ⟨?_, table.statements_sorted, fun _ => statements_proper, table.mem_statements_iff, ?_⟩
  · rw [render, statements]
    induction table.modules.entries with
    | nil => rfl
    | cons entry rest ih =>
        rw [List.map_cons, String.join_cons, ih, render_statements_of, List.flatMap_cons,
          List.map_append, String.join_append]
  · rw [List.map_flatMap]
    apply List.nodup_flatMap.2
    exact ⟨fun statement member => (statements_proper member).imports_nodup,
      table.statements_sorted.imp Statement.Before.disjoint⟩

end ImportTable

end PageBuilder
