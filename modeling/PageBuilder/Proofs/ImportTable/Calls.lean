import PageBuilder.Proofs.ImportTable.Statements

/-!
Runs of calls on an import table. An import has the alias of its first call as long as the table
lasts, that alias stands for nothing else, and it is written once.
-/

namespace PageBuilder

inductive ImportCall where
  | named (source name : String)
  | namedAs (source name localName : String)
  | whole (source localName : String)
  | reserve (name : String)
  | declare (wanted : String)
  deriving DecidableEq

inductive ImportAnswer where
  | aliased (imported : Import) (localName : String)
  /-- A name of the module that is no import. -/
  | bound (name : String)
  | refused (name : String)
  | failed (error : ImportError)
  deriving DecidableEq

namespace ImportTable

variable {table : ImportTable}

/-- A call works on the table in place, so what it changed before an error stays. -/
abbrev InPlace := ExceptT ImportError (StateM ImportTable)

namespace InPlace

def claim (localName : String) (requested : Import) : InPlace Unit := do
  let table ← get
  match table.aliases.get? localName with
  | some holder =>
      if holder = requested then pure ()
      else throw (.aliasTaken localName (some holder) requested)
  | none =>
      match table.scope.reserve? localName with
      | some scope => set { table with scope }
      | none => throw (.aliasTaken localName none requested)

def importNamedAs (source name localName : String) : InPlace String := do
  if Identifier.ofText localName ≠ localName then throw (.notIdentifier localName)
  else
    match (← get).aliasOf? source name with
    | some kept =>
        if kept = localName then pure localName
        else throw (.aliasKept kept (.named source name) localName)
    | none =>
        claim localName (.named source name)
        modify (·.recordNamed source name localName)
        pure localName

def importWhole (source localName : String) : InPlace String := do
  match (← get).wholeOf? source with
  | some kept => pure kept
  | none =>
      claim localName (.whole source)
      modify (·.recordWhole source localName)
      pure localName

end InPlace

def call (table : ImportTable) : ImportCall → ImportAnswer × ImportTable
  | .named source name =>
      let (localName, next) := table.importNamed source name
      (.aliased (.named source name) localName, next)
  | .namedAs source name localName =>
      match (InPlace.importNamedAs source name localName).run.run table with
      | (.ok given, next) => (.aliased (.named source name) given, next)
      | (.error error, next) => (.failed error, next)
  | .whole source localName =>
      match (InPlace.importWhole source localName).run.run table with
      | (.ok given, next) => (.aliased (.whole source) given, next)
      | (.error error, next) => (.failed error, next)
  | .reserve name =>
      match table.reserve? name with
      | some next => (.bound name, next)
      | none => (.refused name, table)
  | .declare wanted =>
      let (name, next) := table.declare wanted
      (.bound name, next)

/-- What a call in place comes to where an error leaves the table as it was. -/
def settled {Value : Type} (table : ImportTable) :
    Except ImportError (Value × ImportTable) → Except ImportError Value × ImportTable
  | .ok (value, next) => (.ok value, next)
  | .error error => (.error error, table)

theorem claim_run (table : ImportTable) (localName : String) (requested : Import) :
    (InPlace.claim localName requested).run.run table =
      table.settled ((table.bindAlias localName requested).map fun next => ((), next)) := by
  change (match table.aliases.get? localName with
    | some holder =>
        if holder = requested then pure ()
        else throw (.aliasTaken localName (some holder) requested)
    | none =>
        match table.scope.reserve? localName with
        | some scope => set { table with scope }
        | none => throw (.aliasTaken localName none requested) : InPlace Unit).run.run table = _
  rw [bindAlias]
  cases table.aliases.get? localName with
  | some holder =>
      dsimp only
      split <;> rfl
  | none =>
      dsimp only
      cases table.scope.reserve? localName <;> rfl

theorem claim_bind_run (table : ImportTable) (localName : String) (requested : Import)
    (record : ImportTable → ImportTable) :
    (do InPlace.claim localName requested; modify record; pure localName :
        InPlace String).run.run table =
      table.settled ((table.bindAlias localName requested).map fun next =>
        (localName, record next)) := by
  rw [ExceptT.run_bind, StateT.run_bind, claim_run]
  cases table.bindAlias localName requested <;> rfl

/-- A call that fails has not changed the table: an alias is bound before anything is recorded. -/
theorem import_named_as_run (table : ImportTable) (source name localName : String) :
    (InPlace.importNamedAs source name localName).run.run table =
      table.settled (table.importNamedAs source name localName) := by
  rw [InPlace.importNamedAs, importNamedAs]
  by_cases fits : Identifier.ofText localName = localName
  · rw [if_neg (not_not.2 fits), if_neg (not_not.2 fits)]
    change (match table.aliasOf? source name with
      | some kept =>
          if kept = localName then pure localName
          else throw (.aliasKept kept (.named source name) localName)
      | none => do
          InPlace.claim localName (.named source name)
          modify (·.recordNamed source name localName)
          pure localName : InPlace String).run.run table = _
    cases table.aliasOf? source name with
    | some kept =>
        dsimp only
        split <;> rfl
    | none =>
        dsimp only
        rw [claim_bind_run]
        cases table.bindAlias localName (.named source name) <;> rfl
  · rw [if_pos fits, if_pos fits]
    rfl

theorem import_whole_run (table : ImportTable) (source localName : String) :
    (InPlace.importWhole source localName).run.run table =
      table.settled (table.importWhole source localName) := by
  rw [importWhole]
  change (match table.wholeOf? source with
    | some kept => pure kept
    | none => do
        InPlace.claim localName (.whole source)
        modify (·.recordWhole source localName)
        pure localName : InPlace String).run.run table = _
  cases table.wholeOf? source with
  | some kept => rfl
  | none =>
      dsimp only
      rw [claim_bind_run]
      cases table.bindAlias localName (.whole source) <;> rfl

def run (table : ImportTable) : List ImportCall → List ImportAnswer × ImportTable
  | [] => ([], table)
  | call :: rest =>
      let (answer, next) := table.call call
      let (answers, last) := next.run rest
      (answer :: answers, last)

theorem run_cons (table : ImportTable) (call : ImportCall) (rest : List ImportCall) :
    table.run (call :: rest) =
      ((table.call call).1 :: ((table.call call).2.run rest).1, ((table.call call).2.run rest).2) :=
  rfl

/-- A table in which an import has a new alias. -/
def adding (table : ImportTable) (imported : Import) (localName : String) : ImportTable :=
  match imported with
  | .named source name =>
      { table with scope := table.scope.bind localName }.recordNamed source name localName
  | .whole source =>
      { table with scope := table.scope.bind localName }.recordWhole source localName

def binding (table : ImportTable) (name : String) : ImportTable :=
  { table with scope := table.scope.bind name }

theorem alias_adding (table : ImportTable) (imported other : Import) (localName : String) :
    (table.adding imported localName).alias? other =
      if other = imported then some localName else table.alias? other := by
  cases imported with
  | named source name =>
      rw [adding, alias_record_named]
      cases other <;> rfl
  | whole source =>
      rw [adding, alias_record_whole]
      cases other <;> rfl

theorem alias_adding_iff {imported : Import} (new : table.alias? imported = none)
    {other : Import} {localName name : String} :
    (table.adding imported localName).alias? other = some name ↔
      other = imported ∧ name = localName ∨ table.alias? other = some name := by
  rw [alias_adding]
  by_cases same : other = imported
  · rw [if_pos same, same, new, Option.some.injEq, eq_comm]
    simp
  · rw [if_neg same]
    simp [same]

theorem aliases_adding (table : ImportTable) (imported : Import) (localName other : String) :
    (table.adding imported localName).aliases.get? other =
      if other = localName then some imported else table.aliases.get? other := by
  cases imported with
  | named source name => exact table.aliases.get_insert _ _ _
  | whole source => exact table.aliases.get_insert _ _ _

theorem visible_adding (table : ImportTable) (imported : Import) (localName : String) :
    (table.adding imported localName).scope.visible = localName :: table.scope.visible := by
  cases imported <;> rfl

theorem alias_binding (table : ImportTable) (name : String) (imported : Import) :
    (table.binding name).alias? imported = table.alias? imported := by
  cases imported <;> rfl

theorem visible_binding (table : ImportTable) (name : String) :
    (table.binding name).scope.visible = name :: table.scope.visible := rfl

/-- The two maps of a table say the same. -/
def Inverse (table : ImportTable) : Prop :=
  ∀ imported localName, table.aliases.get? localName = some imported ↔
    table.alias? imported = some localName

theorem Inverse.adding (inverse : table.Inverse) {imported : Import} {localName : String}
    (new : table.alias? imported = none)
    (unused : ∀ other, table.alias? other ≠ some localName) :
    (table.adding imported localName).Inverse := by
  intro other name
  rw [aliases_adding, alias_adding_iff new]
  by_cases same : name = localName
  · subst same
    rw [if_pos rfl, Option.some.injEq, eq_comm]
    simp [unused other]
  · rw [if_neg same, inverse other name]
    simp [same]

/-- All that a call can do. An alias that is asked for is free, or the import has it already. -/
inductive Effect (table : ImportTable) : ImportCall → ImportAnswer → ImportTable → Prop
  | named {source name localName : String}
      (known : table.alias? (.named source name) = some localName) :
      Effect table (.named source name) (.aliased (.named source name) localName) table
  | newNamed {source name localName : String} (new : table.alias? (.named source name) = none)
      (free : table.scope.Free localName) :
      Effect table (.named source name) (.aliased (.named source name) localName)
        (table.adding (.named source name) localName)
  | namedAs {source name localName : String} (fits : Identifier.ofText localName = localName)
      (known : table.alias? (.named source name) = some localName) :
      Effect table (.namedAs source name localName) (.aliased (.named source name) localName) table
  | newNamedAs {source name localName : String} (fits : Identifier.ofText localName = localName)
      (new : table.alias? (.named source name) = none) (free : table.scope.Free localName) :
      Effect table (.namedAs source name localName) (.aliased (.named source name) localName)
        (table.adding (.named source name) localName)
  | notNamedAs {source name localName : String} (error : ImportError)
      (stands : Identifier.ofText localName ≠ localName ∨
        (∃ kept, table.alias? (.named source name) = some kept ∧ kept ≠ localName) ∨
        table.alias? (.named source name) = none ∧ ¬table.scope.Free localName) :
      Effect table (.namedAs source name localName) (.failed error) table
  | whole {source localName kept : String} (known : table.alias? (.whole source) = some kept) :
      Effect table (.whole source localName) (.aliased (.whole source) kept) table
  | newWhole {source localName : String} (new : table.alias? (.whole source) = none)
      (free : table.scope.Free localName) :
      Effect table (.whole source localName) (.aliased (.whole source) localName)
        (table.adding (.whole source) localName)
  | notWhole {source localName : String} (error : ImportError)
      (new : table.alias? (.whole source) = none) (taken : ¬table.scope.Free localName) :
      Effect table (.whole source localName) (.failed error) table
  | reserve {name : String} (free : table.scope.Free name) :
      Effect table (.reserve name) (.bound name) (table.binding name)
  | notReserve {name : String} (taken : ¬table.scope.Free name) :
      Effect table (.reserve name) (.refused name) table
  | declare {wanted name : String} (free : table.scope.Free name) :
      Effect table (.declare wanted) (.bound name) (table.binding name)

/-- An alias for an import without one is bound if it is free. That it could stand for the import
already is ruled out by the maps saying the same. -/
theorem bind_alias_cases (inverse : table.Inverse)
    (bound : ∀ imported localName, table.alias? imported = some localName →
      localName ∈ table.scope.visible) {requested : Import}
    (new : table.alias? requested = none) (localName : String) :
    (table.scope.Free localName ∧
        table.bindAlias localName requested = .ok (table.binding localName)) ∨
      ¬table.scope.Free localName ∧
        ∃ error, table.bindAlias localName requested = .error error := by
  rw [bindAlias]
  cases held : table.aliases.get? localName with
  | some holder =>
      have known := (inverse holder localName).1 held
      refine Or.inr ⟨fun free => free.unbound (bound holder localName known), ?_⟩
      have other : holder ≠ requested := by
        intro same
        rw [same, new] at known
        cases known
      exact ⟨_, if_neg other⟩
  | none =>
      cases reserved : table.scope.reserve? localName with
      | some next =>
          obtain ⟨free, rfl⟩ := Scope.reserve_some_iff.1 reserved
          exact Or.inl ⟨free, rfl⟩
      | none => exact Or.inr ⟨Scope.reserve_none_iff.1 reserved, _, rfl⟩

theorem call_effect (inverse : table.Inverse)
    (bound : ∀ imported localName, table.alias? imported = some localName →
      localName ∈ table.scope.visible) (call : ImportCall) :
    table.Effect call (table.call call).1 (table.call call).2 := by
  cases call with
  | named source name =>
      rw [ImportTable.call, importNamed]
      cases known : table.aliasOf? source name with
      | some localName => exact .named known
      | none => exact .newNamed known (table.scope.fresh_name_free name)
  | namedAs source name localName =>
      rw [ImportTable.call, import_named_as_run, importNamedAs]
      by_cases fits : Identifier.ofText localName = localName
      · rw [if_neg (not_not.2 fits)]
        cases known : table.aliasOf? source name with
        | some kept =>
            dsimp only
            by_cases same : kept = localName
            · rw [if_pos same]
              exact .namedAs fits (same ▸ known)
            · rw [if_neg same]
              exact .notNamedAs _ (Or.inr (Or.inl ⟨kept, known, same⟩))
        | none =>
            have new : table.alias? (.named source name) = none := known
            rcases bind_alias_cases inverse bound new localName with
              ⟨free, done⟩ | ⟨taken, error, done⟩
            · rw [done]
              exact .newNamedAs fits new free
            · rw [done]
              exact .notNamedAs error (Or.inr (Or.inr ⟨new, taken⟩))
      · rw [if_pos fits]
        exact .notNamedAs _ (Or.inl fits)
  | whole source localName =>
      rw [ImportTable.call, import_whole_run, importWhole]
      cases known : table.wholeOf? source with
      | some kept => exact .whole known
      | none =>
          have new : table.alias? (.whole source) = none := known
          rcases bind_alias_cases inverse bound new localName with
            ⟨free, done⟩ | ⟨taken, error, done⟩
          · rw [done]
            exact .newWhole new free
          · rw [done]
            exact .notWhole error new taken
  | reserve name =>
      rw [ImportTable.call, reserve?]
      cases reserved : table.scope.reserve? name with
      | some next =>
          obtain ⟨free, rfl⟩ := Scope.reserve_some_iff.1 reserved
          exact .reserve free
      | none => exact .notReserve (Scope.reserve_none_iff.1 reserved)
  | declare wanted => exact .declare (table.scope.fresh_name_free wanted)

inductive Change (table : ImportTable) : ImportAnswer → ImportTable → Prop
  | known {imported : Import} {localName : String}
      (known : table.alias? imported = some localName) :
      Change table (.aliased imported localName) table
  | added {imported : Import} {localName : String} (new : table.alias? imported = none)
      (free : table.scope.Free localName) :
      Change table (.aliased imported localName) (table.adding imported localName)
  | bound {name : String} (free : table.scope.Free name) :
      Change table (.bound name) (table.binding name)
  | refused (name : String) : Change table (.refused name) table
  | failed (error : ImportError) : Change table (.failed error) table

theorem Effect.change {call : ImportCall} {answer : ImportAnswer} {next : ImportTable}
    (effect : table.Effect call answer next) : table.Change answer next := by
  cases effect with
  | named known => exact .known known
  | newNamed new free => exact .added new free
  | namedAs _ known => exact .known known
  | newNamedAs _ new free => exact .added new free
  | notNamedAs error _ => exact .failed error
  | whole known => exact .known known
  | newWhole new free => exact .added new free
  | notWhole error _ _ => exact .failed error
  | reserve free => exact .bound free
  | notReserve _ => exact .refused _
  | declare free => exact .bound free

/-- A table that started over a scope and gave some answers. -/
structure Tracked (start : Scope) (answers : List ImportAnswer) (table : ImportTable) : Prop where
  inverse : table.Inverse
  given : ∀ imported localName, table.alias? imported = some localName ↔
    ImportAnswer.aliased imported localName ∈ answers
  bound : ∀ imported localName, table.alias? imported = some localName →
    localName ∈ table.scope.visible
  unreserved : ∀ imported localName, table.alias? imported = some localName →
    Identifier.isReserved localName = false
  own : ∀ name, name ∈ start.visible ∨ ImportAnswer.bound name ∈ answers →
    name ∈ table.scope.visible ∧ ∀ imported, table.alias? imported ≠ some name

theorem alias_of_scope (scope : Scope) (imported : Import) :
    (ofScope scope).alias? imported = none := by
  cases imported <;> rfl

theorem tracked_start (scope : Scope) : Tracked scope [] (ofScope scope) where
  inverse imported localName := by
    rw [alias_of_scope]
    exact ⟨nofun, nofun⟩
  given imported localName := by
    rw [alias_of_scope]
    exact ⟨nofun, nofun⟩
  bound imported localName known := by
    rw [alias_of_scope] at known
    cases known
  unreserved imported localName known := by
    rw [alias_of_scope] at known
    cases known
  own name mine := by
    rcases mine with around | answered
    · refine ⟨around, fun imported => ?_⟩
      rw [alias_of_scope]
      exact nofun
    · cases answered

section Step

variable {start : Scope} {answers : List ImportAnswer} (tracked : Tracked start answers table)
include tracked

/-- An answer that says nothing new leaves all as it was. -/
theorem Tracked.same {answer : ImportAnswer}
    (known : ∀ imported localName, answer = .aliased imported localName →
      table.alias? imported = some localName)
    (bound : ∀ name, answer ≠ .bound name) : Tracked start (answers ++ [answer]) table where
  inverse := tracked.inverse
  given imported localName := by
    rw [List.mem_append, List.mem_singleton]
    constructor
    · exact fun known => Or.inl ((tracked.given imported localName).1 known)
    · rintro (before | now)
      · exact (tracked.given imported localName).2 before
      · exact known imported localName now.symm
  bound := tracked.bound
  unreserved := tracked.unreserved
  own name mine := by
    rcases mine with around | answered
    · exact tracked.own name (Or.inl around)
    · rcases List.mem_append.1 answered with before | now
      · exact tracked.own name (Or.inr before)
      · exact absurd (List.mem_singleton.1 now).symm (bound name)

theorem Tracked.adding {imported : Import} {localName : String}
    (new : table.alias? imported = none) (free : table.scope.Free localName) :
    Tracked start (answers ++ [.aliased imported localName])
      (table.adding imported localName) where
  inverse := by
    apply tracked.inverse.adding new
    exact fun other known => free.unbound (tracked.bound other localName known)
  given other name := by
    rw [alias_adding_iff new, tracked.given, List.mem_append, List.mem_singleton, or_comm,
      ImportAnswer.aliased.injEq]
  bound other name found := by
    rw [visible_adding]
    rcases (alias_adding_iff new).1 found with ⟨_, rfl⟩ | before
    · exact List.mem_cons_self
    · exact List.mem_cons_of_mem _ (tracked.bound other name before)
  unreserved other name found := by
    rcases (alias_adding_iff new).1 found with ⟨_, rfl⟩ | before
    · exact free.unreserved
    · exact tracked.unreserved other name before
  own name mine := by
    have before : name ∈ start.visible ∨ ImportAnswer.bound name ∈ answers := by
      simpa using mine
    obtain ⟨visible, unaliased⟩ := tracked.own name before
    rw [visible_adding]
    refine ⟨List.mem_cons_of_mem _ visible, fun other found => ?_⟩
    rcases (alias_adding_iff new).1 found with ⟨_, rfl⟩ | known
    · exact free.unbound visible
    · exact unaliased other known

theorem Tracked.binding {name : String} (free : table.scope.Free name) :
    Tracked start (answers ++ [.bound name]) (table.binding name) where
  inverse imported localName := by
    rw [alias_binding]
    exact tracked.inverse imported localName
  given imported localName := by
    rw [alias_binding, tracked.given]
    simp
  bound imported localName found := by
    rw [alias_binding] at found
    rw [visible_binding]
    exact List.mem_cons_of_mem _ (tracked.bound imported localName found)
  unreserved imported localName found := by
    rw [alias_binding] at found
    exact tracked.unreserved imported localName found
  own other mine := by
    have before : other = name ∨ other ∈ start.visible ∨ ImportAnswer.bound other ∈ answers := by
      rw [List.mem_append, List.mem_singleton, ImportAnswer.bound.injEq, ← or_assoc] at mine
      exact mine.symm
    rw [visible_binding]
    simp only [alias_binding]
    rcases before with rfl | before
    · exact ⟨List.mem_cons_self, fun imported found =>
        free.unbound (tracked.bound imported other found)⟩
    · obtain ⟨visible, unaliased⟩ := tracked.own other before
      exact ⟨List.mem_cons_of_mem _ visible, unaliased⟩

theorem Tracked.change {answer : ImportAnswer} {next : ImportTable}
    (change : table.Change answer next) : Tracked start (answers ++ [answer]) next := by
  cases change with
  | known known =>
      refine tracked.same ?_ (fun name => by intro absurd; cases absurd)
      intro imported localName same
      cases same
      exact known
  | added new free => exact tracked.adding new free
  | bound free => exact tracked.binding free
  | refused name =>
      exact tracked.same (fun _ _ absurd => by cases absurd) fun _ absurd => by cases absurd
  | failed error =>
      exact tracked.same (fun _ _ absurd => by cases absurd) fun _ absurd => by cases absurd

theorem Tracked.effect (call : ImportCall) :
    table.Effect call (table.call call).1 (table.call call).2 :=
  call_effect tracked.inverse tracked.bound call

end Step

theorem Tracked.run {start : Scope} {answers : List ImportAnswer}
    (tracked : Tracked start answers table) (calls : List ImportCall) :
    Tracked start (answers ++ (table.run calls).1) (table.run calls).2 := by
  induction calls generalizing answers table with
  | nil =>
      rw [ImportTable.run, List.append_nil]
      exact tracked
  | cons call rest ih =>
      have stepped := tracked.change (tracked.effect call).change
      rw [run_cons, ← List.singleton_append, ← List.append_assoc]
      exact ih stepped

/-- What holds of a table after any calls. -/
structure Kept (start : Scope) (answers : List ImportAnswer) (table : ImportTable) : Prop where
  given : ∀ imported localName, table.alias? imported = some localName ↔
    ImportAnswer.aliased imported localName ∈ answers
  apart : ∀ left right localName, table.alias? left = some localName →
    table.alias? right = some localName → left = right
  own : ∀ imported localName, table.alias? imported = some localName →
    localName ∉ start.visible ∧ ImportAnswer.bound localName ∉ answers ∧
      Identifier.isReserved localName = false
  written : ∃ statements, table.Written statements
  next : ∀ call, table.Effect call (table.call call).1 (table.call call).2
  failed : ∀ call error, (table.call call).1 = .failed error → (table.call call).2 = table
  refused : ∀ call name, (table.call call).1 = .refused name → (table.call call).2 = table

theorem Tracked.kept {start : Scope} {answers : List ImportAnswer}
    (tracked : Tracked start answers table) : table.Kept start answers where
  given := tracked.given
  apart left right localName first second := by
    have held := (tracked.inverse left localName).2 first
    rw [(tracked.inverse right localName).2 second] at held
    exact (Option.some.inj held).symm
  own imported localName known := by
    refine ⟨?_, ?_, tracked.unreserved imported localName known⟩
    · exact fun around => (tracked.own localName (Or.inl around)).2 imported known
    · exact fun answered => (tracked.own localName (Or.inr answered)).2 imported known
  written := ⟨_, table.written⟩
  next := tracked.effect
  failed call error failed := by
    have change := (tracked.effect call).change
    rw [failed] at change
    generalize (table.call call).2 = next at change ⊢
    cases change
    rfl
  refused call name refused := by
    have change := (tracked.effect call).change
    rw [refused] at change
    generalize (table.call call).2 = next at change ⊢
    cases change
    rfl

end ImportTable

end PageBuilder
