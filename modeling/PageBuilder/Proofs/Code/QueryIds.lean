import PageBuilder.Code.Declaration
import PageBuilder.Proofs.Code.Layout
import PageBuilder.Proofs.Code.Wrapped
import PageBuilder.Proofs.Scope

/-!
Declarations that differ in the identifiers that their queries are given. A query is written as a
call of its hook with the identifiers of its api and of its node; a declaration tells no others.
-/

namespace PageBuilder

theorem Identifier.start_not_blank {char : Char} (start : isStart char = true) :
    Text.isBlank char = false := by
  have low : 36 ≤ char.toNat ∧ char.toNat ≤ 122 := by
    simp only [isStart, isLetter, Bool.or_eq_true, Bool.and_eq_true, decide_eq_true_eq,
      Char.le_def, UInt32.le_iff_toNat_le] at start
    change 36 ≤ char.val.toNat ∧ char.val.toNat ≤ 122
    rcases start with ((lower | upper) | rfl) | rfl
    · exact ⟨Nat.le_trans (by decide) lower.1, Nat.le_trans lower.2 (by decide)⟩
    · exact ⟨Nat.le_trans (by decide) upper.1, Nat.le_trans upper.2 (by decide)⟩
    · decide
    · decide
  simp only [Text.isBlank, Bool.or_eq_false_iff, Bool.and_eq_false_iff, decide_eq_false_iff_not]
  omega

/-- A query may be given other identifiers, and nothing else differs. -/
inductive StateSource.UpTo (paired : NodeId → NodeId → Prop) : StateSource → StateSource → Prop
  | same (source : StateSource) : UpTo paired source source
  | query {api node other further : NodeId} (params : List (String × String)) :
      paired api other → paired node further →
        UpTo paired (.query api node params) (.query other further params)

structure StateDeclaration.UpTo (paired : NodeId → NodeId → Prop)
    (left right : StateDeclaration) : Prop where
  names : right.names = left.names
  source : left.source.UpTo paired right.source

namespace Code

def queryCall (hook : String) (api node : NodeId) : String :=
  s!"{hook}({Json.stringText api}, {Json.stringText node}"

inductive SwapsIds (hook : String) (paired : NodeId → NodeId → Prop) :
    List Char → List Char → Prop
  | call {api node other further : NodeId} :
      paired api other → paired node further →
        SwapsIds hook paired (queryCall hook api node).toList (queryCall hook other further).toList

/-- Code that is the same but for the identifiers in the calls of a hook. -/
def SameButIds (hook : String) (paired : NodeId → NodeId → Prop) (code other : String) : Prop :=
  Swapped (SwapsIds hook paired) code.toList other.toList

section Code

variable {hook : String} {paired : NodeId → NodeId → Prop}

theorem SameButIds.refl (code : String) : SameButIds hook paired code code := Swapped.refl _

theorem SameButIds.imp {code other : String} {wider : NodeId → NodeId → Prop}
    (same : SameButIds hook paired code other)
    (implies : ∀ {before after}, paired before after → wider before after) :
    SameButIds hook wider code other :=
  Swapped.within (fun swaps => by
    cases swaps with
    | call apis nodes => exact .of_piece (.call (implies apis) (implies nodes))) same

theorem SameButIds.append {code other more further : String}
    (same : SameButIds hook paired code other) (rest : SameButIds hook paired more further) :
    SameButIds hook paired (code ++ more) (other ++ further) := by
  unfold SameButIds
  rw [String.toList_append, String.toList_append]
  exact Swapped.append same rest

theorem SameButIds.join {codes others : List String}
    (same : List.Forall₂ (SameButIds hook paired) codes others) :
    SameButIds hook paired (String.join codes) (String.join others) := by
  induction same with
  | nil => exact .refl _
  | cons first _ ih =>
      rw [String.join_cons, String.join_cons]
      exact first.append ih

theorem source_code_same (hooks : Hooks) {source other : StateSource}
    (upTo : source.UpTo paired other) :
    SameButIds hooks.useDataQuery paired (sourceCode hooks source) (sourceCode hooks other) := by
  cases upTo with
  | same => exact .refl _
  | @query api node other further params apis nodes =>
      have code (api node : NodeId) : sourceCode hooks (.query api node params) =
          queryCall hooks.useDataQuery api node ++ s!", {objectLiteral params})" := by
        simp [sourceCode, queryCall, ToString.toString, String.append_assoc]
      rw [code, code]
      exact SameButIds.append (Swapped.of_piece (.call apis nodes)) (.refl _)

theorem declaration_same (hooks : Hooks) {declaration other : StateDeclaration}
    (upTo : declaration.UpTo paired other) :
    SameButIds hooks.useDataQuery paired
      (Code.declaration hooks declaration.names declaration.source)
      (Code.declaration hooks other.names other.source) := by
  have code (names : StateNames) (source : StateSource) : Code.declaration hooks names source =
      s!"const {targetCode names} = " ++ (sourceCode hooks source ++ ";") := by
    simp [Code.declaration, ToString.toString, String.append_assoc]
  rw [code, code, upTo.names]
  exact SameButIds.append (.refl _) ((source_code_same hooks upTo.source).append (.refl _))

end Code

/-- An identifier that can be written anywhere without being counted as brackets or quotes. -/
def IsPlainId (id : NodeId) : Prop := ∀ char ∈ id.toList, Layout.isPlain char = true

instance (id : NodeId) : Decidable (IsPlainId id) :=
  decidable_of_iff (id.toList.all Layout.isPlain = true) List.all_eq_true

theorem plain_quoted {id : NodeId} (plain : IsPlainId id) :
    Layout.PlainQuoted (Json.stringText id).toList := by
  have escaped (chars : List Char) (plain : ∀ char ∈ chars, Layout.isPlain char = true) :
      chars.flatMap JsonTree.escapedChar = chars := by
    induction chars with
    | nil => rfl
    | cons char chars ih =>
        rw [List.flatMap_cons, (Layout.plain_iff.1 (plain char List.mem_cons_self)).1,
          ih fun other member => plain other (List.mem_cons_of_mem _ member)]
        rfl
  refine ⟨id.toList, plain, ?_⟩
  rw [Json.stringText, String.toList_ofList, JsonTree.stringChars, escaped _ plain]
  rfl

theorem call_chars (hook : String) (api node : NodeId) :
    (queryCall hook api node).toList = hook.toList ++ ("(".toList ++
      ((Json.stringText api).toList ++ (", ".toList ++ (Json.stringText node).toList))) := by
  simp [queryCall, ToString.toString, String.toList_append]

/-- Code that does not name the hook tells no identifiers. -/
theorem SameButIds.eq_of_absent {hook : String} {paired : NodeId → NodeId → Prop}
    {code other : String} (same : SameButIds hook paired code other)
    (absent : ¬hook.toList <:+: code.toList) : code = other := by
  refine String.toList_injective (Swapped.eq_of_absent same ?_)
  rintro before after ⟨_, _⟩ inside
  rw [call_chars] at inside
  exact absent ((List.prefix_append _ _).isInfix.trans inside)

theorem call_inline {hook : String} (named : Identifier.isValid hook = true) (api node : NodeId) :
    Inline (queryCall hook api node).toList := by
  refine ⟨?_, ?_, ?_⟩
  · have hooked : '\n' ∉ hook.toList := fun feed =>
      absurd (Identifier.is_part_of_valid named feed) (by decide)
    have apis := string_text_unbroken api
    have nodes := string_text_unbroken node
    rw [call_chars]
    simp [hooked, apis, nodes]
  · rw [call_chars]
    rw [Identifier.isValid] at named
    split at named
    · cases named
    · rename_i first rest shape
      rw [shape]
      exact ⟨first, _, rfl, Identifier.start_not_blank (Bool.and_eq_true_iff.1 named).1⟩
  · refine ⟨hook.toList ++ ("(".toList ++ ((Json.stringText api).toList ++
      (", ".toList ++ ('"' :: node.toList.flatMap JsonTree.escapedChar)))), '"', ?_, by decide⟩
    have quoted : (Json.stringText node).toList =
        '"' :: node.toList.flatMap JsonTree.escapedChar ++ ['"'] := by
      rw [Json.stringText, String.toList_ofList, JsonTree.stringChars]
    rw [call_chars, quoted]
    simp only [List.append_assoc]

/-- Plain identifiers do not show in the layout. -/
theorem swaps_plain {hook : String} {paired : NodeId → NodeId → Prop}
    (named : Identifier.isValid hook = true)
    (plain : ∀ {before after}, paired before after → IsPlainId before ∧ IsPlainId after) :
    Layout.SwapsPlain (SwapsIds hook paired) where
  inline swaps := by
    cases swaps with
    | call _ _ => exact ⟨call_inline named _ _, call_inline named _ _⟩
  quoted swaps := by
    cases swaps with
    | @call api node other further apis nodes =>
        have id {before after : NodeId} (pairs : paired before after) :
            Swapped Layout.Requoted (Json.stringText before).toList
              (Json.stringText after).toList :=
          .of_piece ⟨plain_quoted (plain pairs).1, plain_quoted (plain pairs).2⟩
        rw [call_chars, call_chars]
        exact (Swapped.refl _).append ((Swapped.refl _).append ((id apis).append
          ((Swapped.refl _).append (id nodes))))

end Code

end PageBuilder
