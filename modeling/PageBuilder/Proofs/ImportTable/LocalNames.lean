import PageBuilder.Proofs.ImportTable.Calls
import Mathlib.Data.List.Forall2

/-!
Which local names a table gives. Each name that it makes or checks is one that generated code can
bind. Only the name of a whole module is taken as it was asked for, and is no more than free.
-/

namespace PageBuilder

namespace ImportTable

/-- What is known of the local name of an import after some calls. -/
inductive Named (calls : List ImportCall) : Import → String → Prop
  | checked {source name localName : String} (usable : Identifier.Usable localName) :
      Named calls (.named source name) localName
  | asAsked {source localName : String} (asked : .whole source localName ∈ calls)
      (unreserved : Identifier.isReserved localName = false) :
      Named calls (.whole source) localName

/-- The name that a call gives is known to be what it has to be. One for a whole module may be that
of another call for it. -/
inductive Grants (calls : List ImportCall) : ImportCall → ImportAnswer → Prop
  | named {source name localName : String} (usable : Identifier.Usable localName) :
      Grants calls (.named source name) (.aliased (.named source name) localName)
  | namedAs {source name localName : String} (usable : Identifier.Usable localName) :
      Grants calls (.namedAs source name localName) (.aliased (.named source name) localName)
  | notNamedAs {source name localName : String} (error : ImportError) :
      Grants calls (.namedAs source name localName) (.failed error)
  | whole {source wanted localName : String} (named : Named calls (.whole source) localName) :
      Grants calls (.whole source wanted) (.aliased (.whole source) localName)
  | notWhole {source wanted : String} (error : ImportError) :
      Grants calls (.whole source wanted) (.failed error)
  | reserve {name : String} (unreserved : Identifier.isReserved name = false) :
      Grants calls (.reserve name) (.bound name)
  | notReserve (name : String) : Grants calls (.reserve name) (.refused name)
  | declare {wanted name : String} (usable : Identifier.Usable name) :
      Grants calls (.declare wanted) (.bound name)

def Vetted (calls : List ImportCall) (table : ImportTable) : Prop :=
  ∀ imported localName, table.alias? imported = some localName → Named calls imported localName

variable {table : ImportTable} {calls more : List ImportCall}

theorem Named.mono {imported : Import} {localName : String} (named : Named calls imported localName)
    (kept : calls ⊆ more) : Named more imported localName := by
  cases named with
  | checked usable => exact .checked usable
  | asAsked asked unreserved => exact .asAsked (kept asked) unreserved

theorem Named.usable {source name localName : String}
    (named : Named calls (.named source name) localName) : Identifier.Usable localName := by
  cases named with
  | checked usable => exact usable

theorem Grants.mono {call : ImportCall} {answer : ImportAnswer} (grants : Grants calls call answer)
    (kept : calls ⊆ more) : Grants more call answer := by
  cases grants with
  | named usable => exact .named usable
  | namedAs usable => exact .namedAs usable
  | notNamedAs error => exact .notNamedAs error
  | whole named => exact .whole (named.mono kept)
  | notWhole error => exact .notWhole error
  | reserve unreserved => exact .reserve unreserved
  | notReserve name => exact .notReserve name
  | declare usable => exact .declare usable

theorem Vetted.mono (vetted : table.Vetted calls) (kept : calls ⊆ more) : table.Vetted more :=
  fun imported localName known => (vetted imported localName known).mono kept

theorem Vetted.adding (vetted : table.Vetted calls) (kept : calls ⊆ more) {imported : Import}
    {localName : String} (named : Named more imported localName) :
    (table.adding imported localName).Vetted more := by
  intro other name known
  rw [alias_adding] at known
  split at known
  · rename_i same
    rw [same, ← Option.some.inj known]
    exact named
  · exact (vetted other name known).mono kept

theorem Vetted.binding (vetted : table.Vetted calls) (name : String) :
    (table.binding name).Vetted calls := by
  intro imported localName known
  rw [alias_binding] at known
  exact vetted imported localName known

/-- A text that is its own identifier can be bound if it is free. -/
theorem usable_of_fits {scope : Scope} {localName : String}
    (fits : Identifier.ofText localName = localName) (free : scope.Free localName) :
    Identifier.Usable localName :=
  ⟨fits ▸ Identifier.is_valid_of_text localName, free.unreserved⟩

theorem call_named (table : ImportTable) (source name : String) :
    (∃ localName, table.alias? (.named source name) = some localName ∧
        table.call (.named source name) = (.aliased (.named source name) localName, table)) ∨
      table.call (.named source name) =
        (.aliased (.named source name) (table.scope.freshName name),
          table.adding (.named source name) (table.scope.freshName name)) := by
  rw [ImportTable.call, importNamed]
  cases known : table.aliasOf? source name with
  | some localName => exact Or.inl ⟨localName, known, rfl⟩
  | none => exact Or.inr rfl

theorem Vetted.step {start : Scope} {answers : List ImportAnswer}
    (tracked : Tracked start answers table) (vetted : table.Vetted calls) (call : ImportCall) :
    Grants (calls ++ [call]) call (table.call call).1 ∧
      (table.call call).2.Vetted (calls ++ [call]) := by
  have kept : calls ⊆ calls ++ [call] := List.subset_append_left _ _
  have still := vetted.mono kept
  have effect := tracked.effect call
  cases call with
  | named source name =>
      rcases table.call_named source name with ⟨localName, known, done⟩ | done
      · rw [done]
        exact ⟨.named (still _ _ known).usable, still⟩
      · rw [done]
        have usable := table.scope.fresh_name_usable name
        exact ⟨.named usable, vetted.adding kept (.checked usable)⟩
  | namedAs source name localName =>
      generalize table.call (.namedAs source name localName) = result at effect
      obtain ⟨answer, next⟩ := result
      cases effect with
      | namedAs _ known => exact ⟨.namedAs (still _ _ known).usable, still⟩
      | newNamedAs fits _ free =>
          have usable := usable_of_fits fits free
          exact ⟨.namedAs usable, vetted.adding kept (.checked usable)⟩
      | notNamedAs error => exact ⟨.notNamedAs error, still⟩
  | whole source localName =>
      generalize table.call (.whole source localName) = result at effect
      obtain ⟨answer, next⟩ := result
      cases effect with
      | whole known => exact ⟨.whole (still _ _ known), still⟩
      | newWhole _ free =>
          have asked : ImportCall.whole source localName ∈ calls ++ [.whole source localName] :=
            List.mem_append_right _ (List.mem_singleton_self _)
          have named := Named.asAsked asked free.unreserved
          exact ⟨.whole named, vetted.adding kept named⟩
      | notWhole error => exact ⟨.notWhole error, still⟩
  | reserve name =>
      generalize table.call (.reserve name) = result at effect
      obtain ⟨answer, next⟩ := result
      cases effect with
      | reserve free => exact ⟨.reserve free.unreserved, still.binding name⟩
      | notReserve => exact ⟨.notReserve name, still⟩
  | declare wanted =>
      exact ⟨.declare (table.scope.fresh_name_usable wanted), still.binding _⟩

theorem Vetted.run {start : Scope} {answers : List ImportAnswer}
    (tracked : Tracked start answers table) (vetted : table.Vetted calls)
    (later : List ImportCall) :
    List.Forall₂ (Grants (calls ++ later)) later (table.run later).1 ∧
      (table.run later).2.Vetted (calls ++ later) := by
  induction later generalizing table calls answers with
  | nil =>
      rw [List.append_nil]
      exact ⟨.nil, vetted⟩
  | cons call rest ih =>
      obtain ⟨grants, after⟩ := vetted.step tracked call
      obtain ⟨others, last⟩ := ih (tracked.change (tracked.effect call).change) after
      rw [List.append_assoc, List.singleton_append] at others last
      rw [run_cons]
      refine ⟨.cons (grants.mono ?_) others, last⟩
      rw [List.append_cons calls call rest]
      exact List.subset_append_left _ _

theorem vetted_start (scope : Scope) : (ofScope scope).Vetted [] := by
  intro imported localName known
  cases imported <;> cases known

/-- A local name that is no identifier can only be that of a whole module. -/
theorem Named.usable_iff {imported : Import} {localName : String}
    (named : Named calls imported localName) :
    Identifier.Usable localName ↔
      ∀ source, imported = .whole source → Identifier.isValid localName = true := by
  constructor
  · exact fun usable _ _ => usable.valid
  · intro valid
    cases named with
    | checked usable => exact usable
    | asAsked _ unreserved => exact ⟨valid _ rfl, unreserved⟩

/-- Calls on an empty table over any scope. No name that is given is a reserved word, and all are
identifiers but those of whole modules, which are what was asked for. So the statements can stand in
generated code just if the names of whole modules are identifiers. -/
theorem local_names_known {scope : Scope} {answers : List ImportAnswer}
    (done : (ofScope scope).run calls = (answers, table)) :
    List.Forall₂ (Grants calls) calls answers ∧
      ∃ statements, table.Written statements ∧
        (∀ entry ∈ statements.flatMap Statement.imports, Named calls entry.1 entry.2) ∧
        ((∀ entry ∈ statements.flatMap Statement.imports, Identifier.Usable entry.2) ↔
          ∀ source localName, ImportAnswer.aliased (.whole source) localName ∈ answers →
            Identifier.isValid localName = true) := by
  have tracked := (tracked_start scope).run calls
  have vetted := (vetted_start scope).run (tracked_start scope) calls
  rw [List.nil_append, done] at tracked vetted
  obtain ⟨grants, known⟩ := vetted
  refine ⟨grants, _, table.written, ?_, ?_⟩
  · intro entry member
    exact known _ _ ((mem_statements_iff _ _ _).1 member)
  · constructor
    · intro usable source localName given
      have here := (tracked.given (.whole source) localName).2 given
      exact (usable (.whole source, localName) ((mem_statements_iff _ _ _).2 here)).valid
    · intro valid entry member
      have here := (mem_statements_iff _ _ _).1 member
      refine (known _ _ here).usable_iff.2 ?_
      intro source same
      exact valid source entry.2 ((tracked.given (.whole source) entry.2).1 (same ▸ here))

def sampleLocalNames : List ImportAnswer × ImportTable :=
  (ofScope (Scope.root.bind "Text_field")).run
    [.whole "react" "React", .named "mui" "Text field", .declare "class"]

theorem local_names_known_sample :
    sampleLocalNames.1 = [.aliased (.whole "react") "React",
        .aliased (.named "mui" "Text field") "Text_field1", .bound "class1"] ∧
      ∃ statements, sampleLocalNames.2.Written statements ∧
        ∀ entry ∈ statements.flatMap Statement.imports, Identifier.Usable entry.2 := by
  have answers : sampleLocalNames.1 = [.aliased (.whole "react") "React",
      .aliased (.named "mui" "Text field") "Text_field1", .bound "class1"] := by decide +kernel
  have done : (ofScope (Scope.root.bind "Text_field")).run
      [.whole "react" "React", .named "mui" "Text field", .declare "class"] =
        (sampleLocalNames.1, sampleLocalNames.2) := rfl
  obtain ⟨_, statements, written, _, legal⟩ := local_names_known done
  refine ⟨answers, statements, written, legal.2 ?_⟩
  rw [answers]
  intro source localName given
  have only : source = "react" ∧ localName = "React" := by simpa using given
  rw [only.2]
  decide +kernel

/-- The name of a whole module is not asked to be an identifier. -/
theorem whole_name_unchecked :
    ((ofScope .root).run [.whole "react" "not valid"]).1 =
        [.aliased (.whole "react") "not valid"] ∧
      ((ofScope .root).run [.whole "react" "not valid"]).2.render =
        "import * as not valid from \"react\";\n" ∧
      Identifier.isValid "not valid" = false := by
  decide +kernel

end ImportTable

end PageBuilder
