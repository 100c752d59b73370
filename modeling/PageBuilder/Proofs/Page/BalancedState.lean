import PageBuilder.Proofs.Code.Declaration
import PageBuilder.Proofs.Page.FlatCode

/-!
State that holds given code. A declaration is balanced as the code of a derived state is. Any other
given code shares its line with generated code: at its end a comment would take what follows, and
the declaration is not closed.
-/

namespace PageBuilder

namespace PageView

open Code (Framed inlineCodes)
open Code.Layout (Flat)

variable (view : PageView) (scope : Scope)

theorem inline_codes_of_node (names : PageNames) (node : Node) :
    inlineCodes (view.nodeSource names node) = (view.paramCodes names node).map Prod.snd := by
  rw [nodeSource]
  split
  all_goals rfl

theorem initial_flat {component prop : String} {value : Option Bindable} {initial : String}
    (given : view.initialValue component prop value = some initial) : Flat initial.toList := by
  have default {given : String}
      (named : (view.schema.default? component prop).map Json.text = some given) :
      Flat given.toList := by
    obtain ⟨value, _, rfl⟩ := Option.map_eq_some_iff.1 named
    exact Code.Layout.flat_json value
  cases value with
  | none => exact default given
  | some value =>
      cases value with
      | const value =>
          cases given
          exact Code.Layout.flat_json value
      | secret reference =>
          cases given
          exact flat_secret reference
      | script text => cases given
      | binding | bound => exact default given

theorem framed_source {entry : StateEntry} {source : StateSource}
    (made : view.source? (PageNames.ofView view scope) entry = some source)
    (balanced : ∀ code params reads, source = .derived code params reads →
      Code.Layout.Balanced code) : Framed source := by
  cases entry with
  | pageSlot default =>
      cases made
      exact .pageSlot (Code.Layout.flat_json default)
  | owned element component prop value =>
      cases made
      exact .controlledPair fun text given => view.initial_flat given
  | computed element prop value =>
      cases made
      exact .computed _ (PageNames.values_valid view scope _)
  | shared target => cases made
  | node node =>
      have same : view.nodeSource (PageNames.ofView view scope) node = source :=
        Option.some.inj made
      rw [nodeSource] at same
      split at same
      · subst same
        exact .derived _ (balanced _ _ _ rfl) (PageNames.values_valid view scope _)
      · subst same
        exact .query _ _ _
      · subst same
        exact .fetched _

end PageView

namespace Document

section Inline

variable (document : Document) (page : Node) (schema : PropSchema)

/-- A value whose code a declaration holds on a line of generated code. -/
inductive HoldsInline (declaration : StateDeclaration) : Bindable → String → Prop
  | param {node : Node} {name : String} {value : Bindable} {code : String}
      (place : IsPlace document page schema (.param node name value))
      (own : declaration.key = .node node.id) (coded : (name, code) ∈ declaration.source.params) :
      HoldsInline declaration value code
  | computed {element : Node} {prop : String} {value : Bindable} {code : String}
      {reads : List String} (place : IsPlace document page schema (.computed element prop value))
      (own : declaration.key = .prop element.id prop)
      (coded : declaration.source = .computed code reads) : HoldsInline declaration value code

end Inline

variable {document : Document} {page : Node} {schema : PropSchema}

/-- Every inline code is the code of a value. -/
theorem inline_code_held (holds : document.HoldsPage page) {names : PageNames} {key : StateKey}
    {declaration : StateDeclaration}
    (made : (PageView.of document page schema).declaration? names key = some declaration)
    {code : String} (member : code ∈ Code.inlineCodes declaration.source) :
    ∃ value, HoldsInline document page schema declaration value code ∧
      code = (PageView.of document page schema).valueCode names value := by
  obtain ⟨entry, source, found, given, rfl⟩ := declaration_eq_some_iff.1 made
  have entered := (entry_iff holds).1 found
  cases entry with
  | pageSlot default =>
      cases given
      cases member
  | owned element component prop value =>
      cases given
      cases member
  | shared target => cases given
  | computed element prop value =>
      cases given
      obtain ⟨place, own⟩ := place_of_entry holds entered List.mem_cons_self
      cases List.mem_singleton.1 member
      exact ⟨value, .computed place own.symm rfl, rfl⟩
  | node node =>
      cases given
      rw [PageView.inline_codes_of_node, PageView.paramCodes, List.map_map] at member
      obtain ⟨⟨name, value⟩, inside, rfl⟩ := List.mem_map.1 member
      have listed : ValuePlace.param node name value ∈ PageView.entryPlaces (.node node) :=
        List.mem_append_left _ (List.mem_map.2 ⟨_, inside, rfl⟩)
      obtain ⟨place, own⟩ := place_of_entry holds entered listed
      refine ⟨value, .param place own.symm ?_, rfl⟩
      rw [PageView.params_of_node_source]
      exact List.mem_map.2 ⟨_, inside, rfl⟩

open Code.Layout (Balanced EndsInComment)

/-- Given code in the declarations of a page: that of derived states, and texts that are code. Where
it is balanced by itself, and no text between backticks holds a key with a backtick, a declaration
is balanced unless given code at the end of a line ends in a comment. -/
theorem declared_state_balanced (valid : document.Valid) {id : NodeId} {scope : Scope}
    {bindings : PageBindings} (found : document.bindings id schema scope = .ok bindings)
    {hooks : Code.Hooks} (named : hooks.Named) :
    ∃ page, document.get? id = some page ∧ page.type = .page ∧
      ∀ declaration ∈ bindings.declarations,
        (∀ code params reads, declaration.source = .derived code params reads → Balanced code) →
        (∀ text format code,
          HoldsInline document page schema declaration (.bound text format) code →
            (PageView.formatOf (Template.read text) format = .expression → Balanced code) ∧
            (PageView.formatOf (Template.read text) format = .literal →
              ∀ reference ∈ (Template.read text).references, '`' ∉ reference.text.toList)) →
        ((∀ code ∈ Code.inlineCodes declaration.source, ¬EndsInComment code) →
            Balanced (Code.declaration hooks declaration.names declaration.source)) ∧
          ∀ before code after, Code.inlineCodes declaration.source = before ++ code :: after →
            (∀ earlier ∈ before, ¬EndsInComment earlier) → EndsInComment code →
            (∀ later ∈ after, '\n' ∉ later.toList) →
            ¬Balanced (Code.declaration hooks declaration.names declaration.source) := by
  obtain ⟨page, order, holds, own, ended, view⟩ := bindings_ok valid found
  rw [PageView.bindings, ended] at view
  cases view
  refine ⟨page, own ▸ holds.found, holds.type, fun declaration member derived texts => ?_⟩
  obtain ⟨key, _, made⟩ := List.mem_filterMap.1 member
  obtain ⟨_, source, _, given, rfl⟩ := declaration_eq_some_iff.1 made
  refine Code.declaration_balanced named (PageNames.names_valid _ scope key)
    (PageView.framed_source _ scope given derived) fun code inside => ?_
  obtain ⟨value, inline, rfl⟩ := inline_code_held holds made inside
  by_cases bound : ∃ text format, value = .bound text format
  · obtain ⟨text, format, rfl⟩ := bound
    cases kind : PageView.formatOf (Template.read text) format with
    | expression => exact (texts text format _ inline).1 kind
    | literal =>
        have flat := PageView.flat_literal (PageView.of document page schema) scope kind
          ((texts text format _ inline).2 kind)
        exact (Code.Layout.sound_iff.1 flat.sound).1
  · have flat := PageView.flat_unbound (PageView.of document page schema) scope
      fun text format same => bound ⟨text, format, same⟩
    exact (Code.Layout.sound_iff.1 flat.sound).1

/-- A page with a derived state whose code ends in a comment, and a text field whose value is that
state and a comment. -/
def sampleComments : Document :=
  let page : Node := ⟨"p", "home", none, .empty, .page .empty⟩
  let sum : Node :=
    ⟨"s", "sum", none, .ofList [("code", .constString "() => 0 // none")], .derivedState .empty⟩
  let field : Node :=
    ⟨"t", "field", none, .ofList [("component", .constString "TextField")],
      .element (.ofList [("value", .bound "\x7b\x7b sum \x7d\x7d // all" (some .expression))])⟩
  (ofRoot "r").run
    [.addNode page "r" "pages" none, .addNode sum "p" "state" none,
      .addNode field "p" "children" none]

theorem sample_comments_declared :
    (sampleComments.bindings "p" Catalog.builtin.schema Scope.root).map (fun bindings =>
        bindings.declarations.map fun declaration => (declaration.key, declaration.source,
          Code.declaration Code.Hooks.usual declaration.names declaration.source)) =
      .ok [(.node "s", .derived "() => 0 // none" [] [],
          "const sum = React.useMemo(() => (\n() => 0 // none\n)(\x7b\x7d), []);"),
        (.prop "t" "value", .computed "sum // all" ["sum"],
          "const fieldValue = React.useMemo(() => sum // all, [sum]);")] := by
  decide +kernel

theorem sample_comments_split {bindings : PageBindings}
    (found : sampleComments.bindings "p" Catalog.builtin.schema Scope.root = .ok bindings) :
    ∃ derived computed, bindings.declarations = [derived, computed] ∧
      derived.key = .node "s" ∧ derived.source = .derived "() => 0 // none" [] [] ∧
      computed.key = .prop "t" "value" ∧ computed.source = .computed "sum // all" ["sum"] ∧
      Code.declaration Code.Hooks.usual computed.names computed.source =
        "const fieldValue = React.useMemo(() => sum // all, [sum]);" := by
  have told := sample_comments_declared
  rw [found] at told
  obtain ⟨derived, rest, declared, first, told⟩ := List.map_eq_cons_iff.1 (Except.ok.inj told)
  obtain ⟨computed, rest, rfl, second, told⟩ := List.map_eq_cons_iff.1 told
  obtain rfl := List.map_eq_nil_iff.1 told
  simp only [Prod.mk.injEq] at first second
  exact ⟨derived, computed, declared, first.1, first.2.1, second.1, second.2.1, second.2.2⟩

theorem sample_comments_inline {page : Node} {declaration : StateDeclaration}
    (bare : declaration.source.params = [])
    (own : ∀ element prop, declaration.key = .prop element prop → element = "t" ∧ prop = "value")
    {text code : String} {format : Option BoundFormat}
    (inline : HoldsInline sampleComments page Catalog.builtin.schema declaration
      (.bound text format) code) :
    PageView.formatOf (Template.read text) format = .expression ∧
      ∃ reads, declaration.source = .computed code reads := by
  have valid : sampleComments.Valid := valid_run (valid_of_root "r") _
  have told : ∀ element, sampleComments.get? "t" = some element →
      ∀ text format, element.Gives "value" (.bound text format) →
        PageView.formatOf (Template.read text) format = .expression := by
    have value : ((sampleComments.get? "t").bind fun element => element.kind.props?.bind
        fun props => (props.get? "value").bind Bindable.bound?) =
          some ("\x7b\x7b sum \x7d\x7d // all", some .expression) := by
      decide +kernel
    rintro element found text format ⟨props, held, given⟩
    obtain ⟨rfl, rfl⟩ : text = "\x7b\x7b sum \x7d\x7d // all" ∧ format = some .expression := by
      simpa [found, held, given, Bindable.bound?] using value
    rfl
  cases inline with
  | param place here coded =>
      rw [bare] at coded
      cases coded
  | @computed element prop _ _ reads place here coded =>
      cases place with
      | computed controls given _ _ =>
          obtain ⟨same, rfl⟩ := own _ _ here
          have found := controls.shown.found valid.stored
          rw [same] at found
          exact ⟨told element found text format given, reads, coded⟩

theorem declared_state_balanced_sample :
    sampleComments.Valid ∧ Code.Hooks.usual.Named ∧ ∃ bindings derived computed,
      sampleComments.bindings "p" Catalog.builtin.schema Scope.root = .ok bindings ∧
      bindings.declarations = [derived, computed] ∧
      derived.source = .derived "() => 0 // none" [] [] ∧
      Balanced (Code.declaration Code.Hooks.usual derived.names derived.source) ∧
      computed.source = .computed "sum // all" ["sum"] ∧ Balanced "sum // all" ∧
      ¬Balanced (Code.declaration Code.Hooks.usual computed.names computed.source) := by
  have valid : sampleComments.Valid := valid_run (valid_of_root "r") _
  have given : Balanced "sum // all" := by decide +kernel
  obtain ⟨bindings, found, _⟩ := Outcome.map_eq_ok.1 sample_comments_declared
  obtain ⟨derived, computed, declared, derivedKey, derivedSource, computedKey, computedSource, _⟩ :=
    sample_comments_split found
  obtain ⟨page, _, _, each⟩ :=
    declared_state_balanced valid found Code.Hooks.usual_named
  refine ⟨valid, Code.Hooks.usual_named, bindings, derived, computed, found, declared,
    derivedSource, ?_, computedSource, given, ?_⟩
  · refine (each derived (by simp [declared]) ?_ fun text format code inline => ?_).1 ?_
    · intro code params reads same
      rw [derivedSource] at same
      cases same
      decide +kernel
    · obtain ⟨_, _, same⟩ := sample_comments_inline (by rw [derivedSource]; rfl)
        (fun element prop key => by rw [derivedKey] at key; cases key) inline
      rw [derivedSource] at same
      cases same
    · rw [derivedSource]
      exact fun code member => absurd member List.not_mem_nil
  · refine (each computed (by simp [declared]) ?_ fun text format code inline => ?_).2 [] _ []
      (by rw [computedSource]; rfl) ?_ (by decide +kernel) ?_
    · intro code params reads same
      rw [computedSource] at same
      cases same
    · obtain ⟨expression, _, same⟩ := sample_comments_inline
        (by rw [computedSource]; rfl)
        (fun element prop key => by rw [computedKey] at key; cases key; exact ⟨rfl, rfl⟩) inline
      rw [computedSource] at same
      cases same
      refine ⟨fun _ => given, fun literal => ?_⟩
      rw [expression] at literal
      cases literal
    · exact fun earlier member => absurd member List.not_mem_nil
    · exact fun later member => absurd member List.not_mem_nil

/-- A comment at the end of a computed value takes the end of its declaration. -/
theorem comment_takes_declaration :
    ¬∀ (document : Document) (id : NodeId) (schema : PropSchema) (scope : Scope)
        (bindings : PageBindings) (page : Node), document.Valid →
        document.bindings id schema scope = .ok bindings → document.get? id = some page →
        ∀ declaration ∈ bindings.declarations,
          (∀ code params reads, declaration.source = .derived code params reads →
            Balanced code) →
          (∀ text format code,
            HoldsInline document page schema declaration (.bound text format) code →
            PageView.formatOf (Template.read text) format = .expression → Balanced code) →
          Balanced (Code.declaration Code.Hooks.usual declaration.names declaration.source) := by
  intro always
  have valid : sampleComments.Valid := valid_run (valid_of_root "r") _
  obtain ⟨bindings, found, _⟩ := Outcome.map_eq_ok.1 sample_comments_declared
  obtain ⟨derived, computed, declared, _, _, computedKey, computedSource, written⟩ :=
    sample_comments_split found
  obtain ⟨page, order, holds, own, _⟩ := bindings_ok valid found
  have present : sampleComments.get? "p" = some page := own ▸ holds.found
  have closed := always _ _ _ _ _ page valid found present computed (by simp [declared]) ?_ ?_
  · rw [written] at closed
    exact absurd closed (by decide +kernel)
  · intro code params reads same
    rw [computedSource] at same
    cases same
  · intro text format code inline _
    obtain ⟨_, _, same⟩ := sample_comments_inline
      (by rw [computedSource]; rfl)
      (fun element prop key => by rw [computedKey] at key; cases key; exact ⟨rfl, rfl⟩) inline
    rw [computedSource] at same
    cases same
    decide +kernel

end Document

end PageBuilder
