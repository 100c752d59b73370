import PageBuilder.Proofs.Code.Laid.Imports
import PageBuilder.Proofs.Code.Laid.Markup
import PageBuilder.Proofs.Page.Attributes
import PageBuilder.Proofs.Page.BalancedState

/-!
The layout of the module of a page. Without derived state, with names that are identifiers and with
texts that are one piece of code, every line that is generated is indented by what is open before
it, and the layout leaves the module as it is. A key with a backtick, in a text between backticks,
is what remains: it ends the text for the layout, but not in the module.
-/

namespace PageBuilder

namespace PageView

open Code.Layout (Flat)

/-- A text that is code has no code of its own between its references. -/
def Bare (text : String) (format : Option BoundFormat) : Prop :=
  formatOf (Template.read text) format = .expression →
    ∀ chars, .text chars ∉ (Template.read text).parts

def Unticked (text : String) (format : Option BoundFormat) : Prop :=
  formatOf (Template.read text) format = .literal →
    ∀ reference ∈ (Template.read text).references, '`' ∉ reference.text.toList

variable (view : PageView) (scope : Scope)

theorem flat_value {value : Bindable}
    (bare : ∀ text format, value = .bound text format → Bare text format)
    (unticked : ∀ text format, value = .bound text format → Unticked text format) :
    Flat (view.valueCode (PageNames.ofView view scope) value).toList := by
  by_cases bound : ∃ text format, value = .bound text format
  · obtain ⟨text, format, rfl⟩ := bound
    cases kind : formatOf (Template.read text) format with
    | expression => exact view.flat_expression scope kind (bare text format rfl kind)
    | literal => exact view.flat_literal scope kind (unticked text format rfl kind)
  · exact view.flat_unbound scope fun text format same => bound ⟨text, format, same⟩

theorem type_of_derived {names : PageNames} {node : Node} {code : String}
    {params : List (String × String)} {reads : List String}
    (given : view.source? names (.node node) = some (.derived code params reads)) :
    node.type = .derivedState := by
  have same := Option.some.inj given
  rw [nodeSource] at same
  split at same
  · assumption
  · cases same
  · cases same

theorem state_name_flat (key : StateKey) :
    Flat ((PageNames.ofView view scope).of view key).value.toList :=
  Code.Layout.flat_identifier (PageNames.names_valid view scope key _ List.mem_cons_self)

theorem flat_field {name code : String} (named : Flat name.toList) (flat : Flat code.toList) :
    Flat s!"{name}: {code}".toList := by
  have whole := named.append (Code.colon_flat.append flat)
  simpa [ToString.toString] using whole

theorem flat_group (owner : String) :
    Flat (groupText (view.groupOf (PageNames.ofView view scope) owner)).toList := by
  refine Code.flat_braces fun piece member => ?_
  obtain ⟨⟨name, code⟩, listed, rfl⟩ := List.mem_map.1 member
  have inside := SortedMap.mem_of_get_of_list ((SortedMap.mem_entries_iff _).1 listed)
  obtain ⟨key, _, given⟩ := List.mem_filterMap.1 inside
  split at given
  · cases given
    exact flat_field (Code.key_flat _) (view.state_name_flat scope key)
  · cases given

theorem flat_scope_entry {entry : String × String}
    (member : entry ∈ view.runtimeScope (PageNames.ofView view scope)) :
    Flat entry.1.toList ∧ Flat entry.2.toList := by
  obtain ⟨⟨name, code⟩, listed, rfl⟩ := List.mem_map.1 member
  have inside := SortedMap.mem_of_get_of_list ((SortedMap.mem_entries_iff _).1 listed)
  refine ⟨Code.key_flat name, ?_⟩
  rcases List.mem_append.1 inside with direct | grouped
  · obtain ⟨key, _, given⟩ := List.mem_filterMap.1 direct
    split at given
    · cases given
      exact view.state_name_flat scope _
    · cases given
  · obtain ⟨owner, _, same⟩ := List.mem_map.1 grouped
    cases same
    exact view.flat_group scope _

theorem flat_scope :
    Flat (PageCompiler.scopeLiteral (view.runtimeScope (PageNames.ofView view scope))).toList := by
  unfold PageCompiler.scopeLiteral
  split
  · decide
  · refine Code.flat_braces fun piece member => ?_
    obtain ⟨entry, listed, rfl⟩ := List.mem_map.1 member
    obtain ⟨named, flat⟩ := view.flat_scope_entry scope listed
    exact flat_field named flat

end PageView

namespace Code.Layout

theorem Laid.add_line {writer : Writer} {line : String} {depth closed opened : Nat}
    (laid : Laid 0 depth writer.text) (moves : Moves closed opened line.toList)
    (within : closed ≤ depth) (level : writer.level = depth - closed) :
    Laid 0 (depth - closed + opened) (writer.addLine line).text := by
  have whole := laid.append (Laid.line moves within)
  rw [← level] at whole ⊢
  simpa only [Writer.addLine, Writer.addIndented, Writer.add, String.append_assoc] using whole

theorem Laid.add_code {writer : Writer} {line : String} {first last : Char}
    (laid : Laid 0 writer.level writer.text) (flat : Flat line.toList)
    (ends : Ends first last line.toList) (code : first ≠ '<' ∧ first ≠ '>' ∧ first ≠ '/') :
    Laid 0 writer.level (writer.addLine line).text :=
  laid.add_line (ends.code code flat.unbroken flat.leads (Nat.zero_le 1)) (Nat.zero_le _) rfl

end Code.Layout

namespace PageCompiler

open Code (Hooks MarkupTag Writer)
open Code.Layout

theorem ends_const (middle : String) : Ends 'c' ';' ("const " ++ middle ++ ";").toList := by
  refine ⟨by rw [String.append_assoc, String.toList_append]; rfl, ?_, by decide, by decide⟩
  rw [String.toList_append]
  exact List.getLast?_concat

theorem laid_declarations (hooks : Hooks) {declarations : List StateDeclaration}
    (flat : ∀ declaration ∈ declarations,
      Flat (Code.declaration hooks declaration.names declaration.source).toList)
    {writer : Writer} (laid : Laid 0 writer.level writer.text) :
    Laid 0 writer.level (declarations.foldl (writeDeclaration hooks) writer).text := by
  induction declarations generalizing writer with
  | nil => exact laid
  | cons declaration rest ih =>
      have ends : Ends 'c' ';'
          (Code.declaration hooks declaration.names declaration.source).toList := by
        have split := ends_const (Code.targetCode declaration.names ++ " = " ++
          Code.sourceCode hooks declaration.source)
        simpa [Code.declaration, ToString.toString] using split
      have first := laid.add_code (flat declaration List.mem_cons_self) ends (by decide)
      exact ih (fun other member => flat other (List.mem_cons_of_mem _ member)) first

theorem laid_page_scope {name literal : String} (valid : Identifier.isValid name = true)
    (flat : Flat literal.toList) {writer : Writer} (laid : Laid 0 writer.level writer.text) :
    Laid 0 writer.level (writer.addLine s!"const {name} = {literal};").text := by
  have same : s!"const {name} = {literal};" = "const " ++ (name ++ " = " ++ literal) ++ ";" := by
    apply String.toList_injective
    simp [ToString.toString]
  have const : Flat "const ".toList := flat_of_neutral (by decide)
  have equals : Flat " = ".toList := flat_of_neutral (by decide)
  have final : Flat ";".toList := flat_of_neutral (by decide)
  have whole : Flat ("const " ++ (name ++ " = " ++ literal) ++ ";").toList := by
    simp only [String.toList_append]
    exact (const.append (((flat_identifier valid).append equals).append flat)).append final
  rw [same]
  exact laid.add_code whole (ends_const _) (by decide)

theorem laid_body {bindings : PageBindings} (hooks : Hooks) {pageScope : Option String}
    (declarations : ∀ declaration ∈ bindings.declarations,
      Flat (Code.declaration hooks declaration.names declaration.source).toList)
    (named : ∀ name, pageScope = some name → Identifier.isValid name = true)
    (literal : Flat (scopeLiteral bindings.runtimeScope).toList)
    {writer : Writer} (laid : Laid 0 writer.level writer.text) :
    Laid 0 writer.level (writeBody bindings hooks pageScope writer).text := by
  have declared := laid_declarations hooks declarations laid
  have level := (wrote_declarations hooks bindings.declarations writer).level
  unfold writeBody
  generalize bindings.declarations.foldl (writeDeclaration hooks) writer = full at declared level ⊢
  rw [← level] at declared ⊢
  cases pageScope with
  | none =>
      dsimp only
      split
      · exact declared
      · exact declared.append (Laid.feed _)
  | some name =>
      dsimp only
      rw [if_neg (by simp)]
      exact (laid_page_scope (named name rfl) literal declared).append (Laid.feed _)

theorem level_markup (roots : List String) (writer : Writer) :
    (writeMarkup roots writer).level = writer.level := by
  by_cases empty : roots = []
  · rw [empty]
    rfl
  · rw [write_markup_of_ne_nil empty]
    exact Nat.add_sub_cancel writer.level 1

theorem laid_markup {roots : List String} (each : ∀ fragment ∈ roots, Code.Fragment fragment)
    {writer : Writer} (laid : Laid 0 writer.level writer.text) :
    Laid 0 writer.level (writeMarkup roots writer).text := by
  by_cases empty : roots = []
  · rw [empty, write_markup_nil]
    have moves : Moves 0 0 "return null;".toList := by decide
    exact laid.add_line moves (Nat.zero_le _) rfl
  · have opening : Moves 0 1 "return (".toList := by decide
    have closing : Moves 1 0 ");".toList := by decide
    have opened := laid.add_line opening (Nat.zero_le _) rfl
    have inside := opened.append ((Code.Fragment.wrapped each).indented (writer.level + 1))
    have whole : Laid 0 (writer.level + 1) ((writer.addLine "return (").indent.addLines
        (Code.wrapFragments roots)).dedent.text := inside
    rw [write_markup_of_ne_nil empty]
    exact whole.add_line closing (Nat.le_add_left 1 _) rfl

theorem header_moves {name : String} (valid : Identifier.isValid name = true) :
    Moves 0 1 s!"export default function {name}() \x7b".toList := by
  have front : Flat "export default function ".toList := flat_of_neutral (by decide)
  have call : Flat "() ".toList := by decide
  have flat : Flat ("export default function " ++ name ++ "() ").toList := by
    rw [String.toList_append, String.toList_append]
    exact (front.append (flat_identifier valid)).append call
  have same : s!"export default function {name}() \x7b".toList =
      ("export default function " ++ name ++ "() ").toList ++ ['\x7b'] := by
    simp [ToString.toString]
  have leads : Leads 1 (("export default function " ++ name ++ "() ").toList ++ ['\x7b']) := by
    simpa using flat.leads.append (leads_opening (by decide : isOpening '\x7b' = true))
  have ends :
      Ends 'e' '\x7b' (("export default function " ++ name ++ "() ").toList ++ ['\x7b']) := by
    refine ⟨?_, List.getLast?_concat, by decide, by decide⟩
    rw [String.append_assoc, String.toList_append]
    rfl
  have unbroken : '\n' ∉ ("export default function " ++ name ++ "() ").toList ++ ['\x7b'] :=
    List.not_mem_append flat.unbroken (by decide)
  rw [same]
  exact ends.code (by decide) unbroken leads (Nat.le_refl 1)

/-- What a module is put together from, line by line. -/
structure LaidParts (plan : Plan) (options : CompileOptions) (roots : List String) : Prop where
  imports : Laid 0 0 plan.imports.render
  component : Identifier.isValid plan.component = true
  declarations : ∀ declaration ∈ plan.bindings.declarations,
    Flat (Code.declaration (plan.hooks options) declaration.names declaration.source).toList
  pageScope : ∀ name, plan.pageScope = some name → Identifier.isValid name = true
  scope : Flat (scopeLiteral plan.bindings.runtimeScope).toList
  roots : ∀ fragment ∈ roots, Code.Fragment fragment

theorem LaidParts.raw_source {plan : Plan} {document : Document} {catalog : Catalog}
    {options : CompileOptions}
    (parts : LaidParts plan options (plan.roots document catalog options)) :
    Laid 0 0 (plan.rawSource document catalog options) := by
  have imports : Laid 0 0 ((Writer.empty.add plan.imports.render).add "\n").text := by
    have lines := parts.imports.append (Laid.feed 0)
    rwa [← String.empty_append (s := plan.imports.render)] at lines
  have header := imports.add_line (header_moves parts.component) (Nat.zero_le 0) rfl
  have opened : Laid 0 1 (plan.opened options).text :=
    laid_body (plan.hooks options) parts.declarations parts.pageScope parts.scope header
  have level := level_opened plan options
  rw [raw_source_eq]
  generalize plan.opened options = writer at opened level ⊢
  rw [← level] at opened
  have shown := laid_markup parts.roots opened
  have same := level_markup (plan.roots document catalog options) writer
  generalize writeMarkup (plan.roots document catalog options) writer = full at shown same ⊢
  have closing : Moves 1 0 "\x7d".toList := by decide
  rw [level] at shown same
  have inner : full.dedent.level = 1 - 1 := by rw [Writer.dedent, same]
  have dedented : Laid 0 1 full.dedent.text := shown
  exact dedented.add_line closing (Nat.le_refl 1) inner

theorem fragment_marked {marker : String} (valid : Identifier.isValid marker = true) (node : NodeId)
    {fragment : String} (inside : Code.Fragment fragment) :
    Code.Fragment (Code.openingTag marker node ++ "\n" ++
      (Code.indentLines 1 fragment ++ Code.closingTag marker)) := by
  have equals : Flat " nodeId=".toList := flat_of_neutral (by decide)
  have quoted : (Json.stringText node).toList =
      ('"' :: node.toList.flatMap JsonTree.escapedChar) ++ ['"'] := by
    rw [Json.stringText, String.toList_ofList, string_enclosed, List.cons_append]
  have final : (" nodeId=".toList ++ (Json.stringText node).toList).getLast? = some '"' := by
    rw [quoted, List.getLast?_append, List.getLast?_concat]
    rfl
  have opening := (Code.tag_text_behind valid (equals.append (flat_string node)) final
    (by decide)).moves_opening
  have closing := (Code.tag_text_identifier valid).moves_closing
  refine Code.Fragment.enclosed ?_ ?_ (Code.Wrapped.solid_closing marker) (inside.indented 1)
  · simpa [Code.openingTag, ToString.toString] using opening
  · simpa [Code.closingTag, ToString.toString] using closing

/-- An element in whose tag nothing is counted by the layout or ends a line. -/
structure PlainElement (context : MarkupContext) (element : Node) : Prop where
  tag : TagText (tagName context element).toList
  bare : '>' ∉ (tagName context element).toList
  attributes : ∀ slots, ∀ entry ∈ (elementTag context element slots).attributes,
    MarkupTag.IsAttribute entry
  slots : ∀ slot, NamedSlot context.document element.id slot → Identifier.isValid slot = true

section Rendering

variable {context : MarkupContext}

theorem named_slot_held {element : Node} {slots : SortedMap (List String)}
    {slot : String × List String} (member : slot ∈ (elementTag context element slots).namedSlots) :
    slot ∈ slots.entries ∧ slot.1 ≠ childrenSlot ∧ slot.2 ≠ [] := by
  cases known : context.catalog.find? (element.component?.getD "") with
  | some definition =>
      rw [element_tag_known known] at member
      obtain ⟨listed, named⟩ := List.mem_filter.1 member
      rw [Bool.and_eq_true, decide_eq_true_iff] at named
      exact ⟨listed, named.1, by simpa using named.2⟩
  | none =>
      rw [element_tag_unknown known] at member
      obtain ⟨listed, named⟩ := List.mem_filter.1 member
      cases List.mem_singleton.1 listed
      simp at named

theorem child_held {element : Node} {slots : SortedMap (List String)} {fragment : String}
    (member : fragment ∈ (elementTag context element slots).children) :
    ∃ slot ∈ slots.entries, fragment ∈ slot.2 := by
  cases known : context.catalog.find? (element.component?.getD "") with
  | some definition =>
      rw [element_tag_known known, MarkupTag.children] at member
      dsimp only at member
      cases held : slots.get? childrenSlot with
      | none =>
          rw [held] at member
          cases member
      | some fragments =>
          rw [held] at member
          exact ⟨_, slots.mem_entries_iff.2 held, member⟩
  | none =>
      rw [element_tag_unknown known, MarkupTag.children] at member
      dsimp only at member
      rw [SortedMap.get_insert_self, Option.getD_some] at member
      obtain ⟨fragments, listed, inside⟩ := List.mem_flatten.1 member
      obtain ⟨slot, held⟩ := slots.mem_values_iff.1 listed
      exact ⟨_, slots.mem_entries_iff.2 held, inside⟩

theorem PlainElement.fragment {element : Node} (plain : PlainElement context element)
    {slots : SortedMap (List String)}
    (named : ∀ slot ∈ slots.entries, slot.1 ≠ childrenSlot → slot.2 ≠ [] →
      NamedSlot context.document element.id slot.1)
    (each : ∀ slot ∈ slots.entries, ∀ fragment ∈ slot.2, Code.Fragment fragment) :
    Code.Fragment (elementTag context element slots).render := by
  have name := element_tag_name context element slots
  refine MarkupTag.Plain.render ⟨?_, ?_, plain.attributes slots, fun slot member => ?_⟩
    (fun fragment member => ?_) fun slot member => ?_
  · rw [name]
    exact plain.tag
  · rw [name]
    exact plain.bare
  · obtain ⟨held, apart, nonempty⟩ := named_slot_held member
    exact plain.slots _ (named slot held apart nonempty)
  · obtain ⟨slot, held, inside⟩ := child_held member
    exact each slot held fragment inside
  · exact each slot (named_slot_held member).1

theorem named_of_rendered {depth : Nat} {parent : NodeId} {slot : String × List Node}
    (listed : slot ∈ context.document.childSlots parent) (apart : slot.1 ≠ childrenSlot)
    (nonempty : renderElements context depth slot.2 ≠ []) :
    NamedSlot context.document parent slot.1 := by
  obtain ⟨name, _, rfl⟩ := List.mem_map.1 listed
  cases depth with
  | zero => exact absurd rfl nonempty
  | succ depth =>
      rw [renderElements] at nonempty
      obtain ⟨fragment, member⟩ := List.exists_mem_of_ne_nil _ nonempty
      obtain ⟨node, inside, _⟩ := List.mem_map.1 member
      obtain ⟨among, type⟩ := List.mem_filter.1 inside
      exact ⟨apart, node, among, of_decide_eq_true type⟩

theorem fragments_rendered (marker : ∀ name, context.marker = some name →
      Identifier.isValid name = true) {depth : Nat} {nodes : List Node}
    (plain : ∀ element ∈ context.document.elementsBelow depth nodes, PlainElement context element) :
    ∀ fragment ∈ renderElements context depth nodes, Code.Fragment fragment := by
  induction depth generalizing nodes with
  | zero => exact fun fragment member => absurd member List.not_mem_nil
  | succ depth ih =>
      intro fragment member
      rw [renderElements] at member
      obtain ⟨element, among, rfl⟩ := List.mem_map.1 member
      have below {inner : Node} (inside : inner = element ∨ inner ∈
          context.document.elementsBelow depth (context.document.children element.id)) :
          PlainElement context inner := by
        apply plain
        rw [Document.elementsBelow]
        exact List.mem_flatMap.2 ⟨element, among, List.mem_cons.2 inside⟩
      let slots := SortedMap.ofList ((context.document.childSlots element.id).map fun slot =>
        (slot.1, renderElements context depth slot.2))
      have own := @PlainElement.fragment _ element (below (Or.inl rfl)) slots
      rw [SortedMap.entries_of_list (context.document.names_of_child_slots element.id
        (renderElements context depth))] at own
      have shown := own ?_ ?_
      · dsimp only
        unfold marked
        split
        · exact shown
        · rename_i name given
          have whole := fragment_marked (marker name given) element.id shown
          simpa [Code.openingTag, Code.closingTag, ToString.toString, String.append_assoc]
            using whole
      · rintro slot member apart nonempty
        obtain ⟨held, listed, rfl⟩ := List.mem_map.1 member
        exact named_of_rendered listed apart nonempty
      · -- What the slots hold stands one level deeper.
        rintro slot member
        obtain ⟨held, listed, rfl⟩ := List.mem_map.1 member
        refine ih fun inner inside => below (Or.inr ?_)
        rw [Document.children, Document.elements_below_slots]
        exact List.mem_flatMap.2 ⟨held, listed, inside⟩

end Rendering

end PageCompiler

/-- What a module shows of a component as it is written. -/
structure ComponentDefinition.Named (definition : ComponentDefinition) : Prop where
  exported : Identifier.isValid definition.exported = true
  controlled : ∀ prop event, (prop, event) ∈ definition.controlled →
    Identifier.isValid prop = true ∧ Identifier.isValid event = true

def ValuePlace.value? : ValuePlace → Option Bindable
  | .param _ _ value => some value
  | .computed _ _ value => some value
  | .shown _ _ value => some value
  | .stateNode _ => none
  | .owned _ _ _ => none

namespace Document

section Plain

variable (document : Document) (page : Node) (schema : PropSchema) (catalog : Catalog)

/-- The page has code for a value that stands at one of its places. -/
def Coded (value : Bindable) : Prop :=
  ∃ place, IsPlace document page schema place ∧ place.value? = some value

/-- A page without derived state and without given code, where the names that its module writes as
they are given are identifiers. -/
structure IsPlain : Prop where
  underived : ∀ node, IsStateNode document page node → node.type ≠ .derivedState
  bare : ∀ text format, Coded document page catalog.schema (.bound text format) →
    PageView.Bare text format
  props : ∀ element prop value, ShowsValue document page catalog.schema element prop value →
    Identifier.isValid prop = true
  components : ∀ element definition, document.Shown page.id element →
    catalog.find? (element.component?.getD "") = some definition → definition.Named
  slots : ∀ element slot, document.Shown page.id element →
    PageCompiler.NamedSlot document element.id slot → Identifier.isValid slot = true

def Unticked : Prop :=
  ∀ text format, Coded document page schema (.bound text format) → PageView.Unticked text format

end Plain

variable {document : Document} {page : Node} {catalog : Catalog} {scope : Scope}

open Code.Layout (Flat)
open PageCompiler

theorem coded_flat (plain : document.IsPlain page catalog)
    (unticked : document.Unticked page catalog.schema) {value : Bindable}
    (coded : Coded document page catalog.schema value) :
    Flat ((PageView.of document page catalog.schema).valueCode
      (PageNames.ofView (PageView.of document page catalog.schema) scope) value).toList := by
  refine PageView.flat_value _ scope (fun text format same => ?_) fun text format same => ?_
  · subst same
    exact plain.bare text format coded
  · subst same
    exact unticked text format coded

theorem declaration_flat (holds : document.HoldsPage page) (plain : document.IsPlain page catalog)
    (unticked : document.Unticked page catalog.schema) {hooks : Code.Hooks} (named : hooks.Named)
    {key : StateKey} {declaration : StateDeclaration}
    (made : (PageView.of document page catalog.schema).declaration?
      (PageNames.ofView (PageView.of document page catalog.schema) scope) key = some declaration) :
    Flat (Code.declaration hooks declaration.names declaration.source).toList := by
  have inline (code : String) (member : code ∈ Code.inlineCodes declaration.source) :
      Flat code.toList := by
    obtain ⟨value, held, rfl⟩ := inline_code_held holds made member
    apply coded_flat plain unticked
    cases held with
    | param place => exact ⟨_, place, rfl⟩
    | computed place => exact ⟨_, place, rfl⟩
  obtain ⟨entry, source, found, given, rfl⟩ := declaration_eq_some_iff.1 made
  -- Only a derived state has lines of its own in its declaration, and the page has none.
  have underived (code : String) (params : List (String × String)) (reads : List String) :
      source ≠ .derived code params reads := by
    rintro rfl
    cases entry with
    | pageSlot | owned | computed | shared => cases given
    | node node =>
        have listed : ValuePlace.stateNode node ∈ PageView.entryPlaces (.node node) :=
          List.mem_append_right _ (List.mem_singleton_self _)
        obtain ⟨place, _⟩ := place_of_entry holds ((entry_iff holds).1 found) listed
        cases place with
        | stateNode state => exact plain.underived node state (PageView.type_of_derived _ given)
  have framed := PageView.framed_source _ scope given
    fun code params reads same => absurd same (underived code params reads)
  exact Code.flat_declaration named (PageNames.names_valid _ scope key) framed underived inline

section Planned

variable {options : CompileOptions} {plan : Plan}

/-- What a plan resolves, under names that are given once for the page. -/
structure Resolves (document : Document) (page : Node) (catalog : Catalog) (scope : Scope)
    (bindings : PageBindings) : Prop where
  declarations : ∀ declaration ∈ bindings.declarations, ∃ key,
    (PageView.of document page catalog.schema).declaration?
      (PageNames.ofView (PageView.of document page catalog.schema) scope) key = some declaration
  props : bindings.props = (PageView.of document page catalog.schema).props
    (PageNames.ofView (PageView.of document page catalog.schema) scope)
  runtimeScope : bindings.runtimeScope = (PageView.of document page catalog.schema).runtimeScope
    (PageNames.ofView (PageView.of document page catalog.schema) scope)

theorem plan_resolves (holds : document.HoldsPage page)
    (planned : PageCompiler.plan document page catalog options = .ok plan) :
    ∃ scope, Resolves document page catalog scope plan.bindings := by
  obtain ⟨table, imports⟩ := import_table_ok document page.id catalog options
  rw [plan_eq imports] at planned
  obtain ⟨bindings, resolved, same⟩ := Outcome.bind_eq_ok.1 planned
  have resolved := Outcome.map_error_eq_ok.1 resolved
  rw [Document.bindings, node_of_type_ok.2 ⟨holds.found, holds.type⟩] at resolved
  dsimp only at resolved
  rw [PageView.bindings] at resolved
  split at resolved
  · cases resolved
  · cases resolved
    cases same
    refine ⟨_, fun declaration member => ?_, rfl, rfl⟩
    obtain ⟨key, _, made⟩ := List.mem_filterMap.1 member
    exact ⟨key, made⟩

theorem hooks_named (planned : PageCompiler.plan document page catalog options = .ok plan) :
    (plan.hooks options).Named := by
  have react : plan.imports.wholeOf? reactModule = some reactAlias := react_of_plan planned
  refine ⟨?_, local_name_valid planned .useDataQuery, local_name_valid planned .useFetchedState⟩
  rw [Plan.hooks, react]
  exact (by decide : Identifier.isValid reactAlias = true)

theorem bound_name_valid (valid : document.Valid)
    (planned : PageCompiler.plan document page catalog options = .ok plan) {name : String}
    (member : name ∈ plan.boundNames) : Identifier.isValid name = true := by
  obtain ⟨_, adds⟩ := plan_adds valid planned
  exact (adds.usable name member).valid

theorem page_scope_valid (valid : document.Valid)
    (planned : PageCompiler.plan document page catalog options = .ok plan) {name : String}
    (given : plan.pageScope = some name) : Identifier.isValid name = true := by
  apply bound_name_valid valid planned
  rw [Plan.boundNames, given]
  exact List.mem_append_right _ (List.mem_singleton_self name)

theorem flat_evaluation (valid : document.Valid)
    (planned : PageCompiler.plan document page catalog options = .ok plan) (script : String) :
    Flat (evaluation (plan.context document catalog options) script).toList := by
  have scope : Flat (plan.pageScope.getD "\x7b\x7d").toList := by
    cases given : plan.pageScope with
    | none => decide
    | some name => exact Code.Layout.flat_identifier (page_scope_valid valid planned given)
  have evaluate := Code.Layout.flat_identifier (local_name_valid planned .evaluateExpression)
  have call := ((Code.Layout.flat_string script).append (Code.comma_flat.append scope)).enclosed
    (by decide : Code.Layout.isOpening '(' = true) (by decide : Code.Layout.isClosing ')' = true)
  have whole := evaluate.append call
  simpa [evaluation, Plan.context, Plan.localName, ToString.toString] using whole

theorem attribute_of_prop (valid : document.Valid) (holds : document.HoldsPage page)
    (plain : document.IsPlain page catalog) (unticked : document.Unticked page catalog.schema)
    (planned : PageCompiler.plan document page catalog options = .ok plan) {element : Node}
    (shown : document.Shown page.id element) {definition : ComponentDefinition}
    (known : catalog.find? (element.component?.getD "") = some definition)
    {props : SortedMap ResolvedProp} {prop : String} {resolved : ResolvedProp}
    (found : ((PageView.of document page catalog.schema).elementProps
      (PageNames.ofView (PageView.of document page catalog.schema) scope) element).get? prop =
        some resolved) {entry : String × String}
    (member : entry ∈ propAttributes (plan.context document catalog options) definition props
      (prop, resolved)) : Code.MarkupTag.IsAttribute entry := by
  have named := plain.components element definition shown known
  rcases (element_prop_iff holds _ shown).1 found with ⟨⟨component, controls⟩, rfl⟩ |
    ⟨value, shows, rfl⟩
  · -- A controlled prop is shown by its state, next to the event that sets it.
    have given := PageNames.names_valid (PageView.of document page catalog.schema) scope
      (.prop element.id prop)
    have own : Identifier.isValid prop = true := by
      rw [controls.shows, Option.getD_some] at known
      obtain ⟨event, listed⟩ := (controlled_iff known).1 controls.controlled
      exact (named.controlled prop event listed).1
    rcases List.mem_cons.1 member with rfl | event
    · exact ⟨own, _, Code.Layout.flat_identifier (given _ List.mem_cons_self), rfl⟩
    · split at event
      · rename_i setter name held fires
        split at event
        · cases event
        · cases List.mem_singleton.1 event
          have valid :=
            (named.controlled prop name (ComponentDefinition.mem_controlled_iff.2 fires)).2
          refine ⟨valid, _, Code.Layout.flat_identifier (given setter ?_), rfl⟩
          exact List.mem_cons_of_mem _ (by rw [held]; exact List.mem_singleton_self setter)
      · cases event
  · have own := plain.props element prop value shows
    cases value with
    | script text =>
        cases List.mem_singleton.1 member
        exact ⟨own, _, flat_evaluation valid planned text, rfl⟩
    | const | binding | bound | secret =>
        cases List.mem_singleton.1 member
        exact ⟨own, _, coded_flat plain unticked ⟨_, .shown shows, rfl⟩, rfl⟩

theorem plain_tag_name (plain : document.IsPlain page catalog)
    (planned : PageCompiler.plan document page catalog options = .ok plan) {element : Node}
    (shown : document.Shown page.id element) :
    Code.Layout.TagText (tagName (plan.context document catalog options) element).toList ∧
      '>' ∉ (tagName (plan.context document catalog options) element).toList := by
  have found : (plan.context document catalog options).catalog.find?
      (element.component?.getD "") = catalog.find? (element.component?.getD "") := rfl
  cases known : catalog.find? (element.component?.getD "") with
  | some definition =>
      rw [tag_name_known (found.trans known)]
      have named := plain.components element definition shown known
      have valid : Identifier.isValid
          (aliasOr plan.imports definition.source definition.exported) = true :=
        alias_or_valid planned named.exported
      exact ⟨Code.tag_text_identifier valid, Code.identifier_bare valid⟩
  | none =>
      have react := (hooks_named planned).react
      have fragment : Flat ".Fragment".toList := by decide
      have final : ".Fragment".toList.getLast? = some 't' := rfl
      rw [tag_name_unknown (found.trans known), String.toList_append]
      exact ⟨Code.tag_text_behind react fragment final (by decide),
        List.not_mem_append (Code.identifier_bare react) (by decide)⟩

theorem plain_attribute (valid : document.Valid) (holds : document.HoldsPage page)
    (plain : document.IsPlain page catalog) (unticked : document.Unticked page catalog.schema)
    (planned : PageCompiler.plan document page catalog options = .ok plan) {element : Node}
    (shown : document.Shown page.id element) {slots : SortedMap (List String)}
    {entry : String × String}
    (member : entry ∈
      (elementTag (plan.context document catalog options) element slots).attributes) :
    Code.MarkupTag.IsAttribute entry := by
  cases known : (plan.context document catalog options).catalog.find?
      (element.component?.getD "") with
  | none =>
      rw [element_tag_unknown known] at member
      cases member
  | some definition =>
      rw [element_tag_known known] at member
      dsimp only at member
      unfold attributes at member
      split at member
      · rename_i props found
        obtain ⟨⟨prop, resolved⟩, listed, inside⟩ := List.mem_flatMap.1 member
        obtain ⟨scope, made⟩ := plan_resolves holds planned
        have given : plan.bindings.props.get? element.id = some props := found
        rw [made.props, props_of_shown holds _ shown] at given
        cases given
        exact attribute_of_prop valid holds plain unticked planned shown known
          ((SortedMap.mem_entries_iff _).1 listed) inside
      · cases member

theorem plain_element (valid : document.Valid) (holds : document.HoldsPage page)
    (plain : document.IsPlain page catalog) (unticked : document.Unticked page catalog.schema)
    (planned : PageCompiler.plan document page catalog options = .ok plan) {element : Node}
    (shown : document.Shown page.id element) :
    PlainElement (plan.context document catalog options) element := by
  obtain ⟨tag, bare⟩ := plain_tag_name plain planned shown
  exact ⟨tag, bare, fun slots entry => plain_attribute valid holds plain unticked planned shown,
    fun slot => plain.slots element slot shown⟩

theorem import_named (holds : document.HoldsPage page) (plain : document.IsPlain page catalog)
    (planned : PageCompiler.plan document page catalog options = .ok plan) {imported : Import}
    {localName : String} (known : plan.imports.alias? imported = some localName) :
    imported.Named ∧ Identifier.isValid localName = true := by
  constructor
  · rcases (plan_knows_iff planned).1 ⟨localName, known⟩ with
      rfl | ⟨element, member, definition, asked, rfl⟩ | ⟨name, _, rfl⟩
    · trivial
    · obtain ⟨component, shows, found⟩ := Option.bind_eq_some_iff.1 asked
      have named := plain.components element definition (holds.mem_markup_iff.1 member)
      rw [shows] at named
      exact (named found).exported
    · exact RuntimeName.text_valid name
  · obtain ⟨table, imports, declares⟩ := plan_table planned
    rw [declares, alias_declared] at known
    exact ((import_table_sound imports).usable known).valid

theorem laid_parts (valid : document.Valid) (holds : document.HoldsPage page)
    (plain : document.IsPlain page catalog) (unticked : document.Unticked page catalog.schema)
    (planned : PageCompiler.plan document page catalog options = .ok plan) :
    LaidParts plan options (plan.roots document catalog options) := by
  obtain ⟨scope, made⟩ := plan_resolves holds planned
  constructor
  case imports =>
    exact ImportTable.laid_render fun imported localName => import_named holds plain planned
  case component =>
    apply bound_name_valid valid planned
    simp [Plan.boundNames]
  case declarations =>
    intro declaration member
    obtain ⟨key, declared⟩ := made.declarations declaration member
    exact declaration_flat holds plain unticked (hooks_named planned) declared
  case pageScope => exact fun name => page_scope_valid valid planned
  case scope =>
    rw [made.runtimeScope]
    exact PageView.flat_scope _ scope
  case roots =>
    refine fragments_rendered (fun name given => ?_) fun element member => ?_
    · unfold Plan.context at given
      dsimp only at given
      split at given
      · cases given
        exact local_name_valid planned .nodeMarker
      · cases given
    · have listed : element ∈ document.markupElements plan.page.id := member
      rw [plan_page planned, holds.mem_markup_iff] at listed
      exact plain_element valid holds plain unticked planned listed

end Planned

theorem plan_pretty (document : Document) (page : Node) (catalog : Catalog)
    (options : CompileOptions) (pretty : Bool) :
    PageCompiler.plan document page catalog { options with pretty } =
      PageCompiler.plan document page catalog options := by
  have names : runtimeNames document page.id catalog { options with pretty } =
      runtimeNames document page.id catalog options := rfl
  have runtime : importRuntime { options with pretty } = importRuntime options := rfl
  unfold PageCompiler.plan importTable
  rw [names, runtime]

theorem raw_source_pretty (document : Document) (catalog : Catalog) (options : CompileOptions)
    (plan : Plan) (pretty : Bool) :
    plan.rawSource document catalog { options with pretty } =
      plan.rawSource document catalog options := by
  have hooks : plan.hooks { options with pretty } = plan.hooks options := rfl
  have roots : plan.roots document catalog { options with pretty } =
      plan.roots document catalog options := rfl
  unfold Plan.rawSource
  rw [hooks, roots]

theorem written_pretty {options : CompileOptions} {plan : Plan}
    (laid : Code.Layout.Laid 0 0 (plan.rawSource document catalog options)) (pretty : Bool) :
    written document catalog { options with pretty } plan =
      { page := plan.page.id
        name := plan.page.name
        component := plan.component
        source := plan.rawSource document catalog options
        diagnostics := (document.markupElements plan.page.id).filterMap (unknownComponent? catalog)
          ++ plan.bindings.diagnostics } := by
  have finished : finish { options with pretty } (plan.rawSource document catalog options) =
      (plan.rawSource document catalog options, []) := by
    unfold finish
    rw [laid.layout]
    cases pretty <;> rfl
  rw [written, raw_source_pretty, finished]
  simp only [List.append_nil]

/-- The layout has no say in the module of a plain page, as long as no key between backticks holds a
backtick: with and without it the page compiles to the same source and the same warnings. -/
theorem plain_page_laid_out (valid : document.Valid) {id : NodeId} (catalog : Catalog)
    (options : CompileOptions)
    (plain : ∀ page, document.get? id = some page → page.type = .page →
      document.IsPlain page catalog ∧ document.Unticked page catalog.schema) :
    document.compilePage id catalog { options with pretty := true } =
      document.compilePage id catalog { options with pretty := false } := by
  rw [compile_page_eq, compile_page_eq]
  simp only [plan_pretty, bind, Except.bind]
  cases found : document.nodeOfType id .page with
  | error fault => simp only [Outcome.map_error_error]
  | ok page =>
      obtain ⟨present, type⟩ := node_of_type_ok.1 found
      obtain ⟨bare, unticked⟩ := plain page present type
      obtain ⟨holds, _⟩ := holds_page valid found
      simp only [Outcome.map_error_ok]
      cases planned : PageCompiler.plan document page catalog options with
      | error fault => simp only [Except.map]
      | ok plan =>
          have laid := (laid_parts valid holds bare unticked planned).raw_source
          simp only [Except.map, written_pretty laid]

def keyedText (key : Char) : String :=
  "Hi \x7b\x7bhome.count[\"" ++ String.ofList [key] ++ "\"]\x7d\x7d"

def keyedPage (key : Char) : Document :=
  let page : Node := ⟨"p", "home", none, .empty, .page (.ofList [("count", .null)])⟩
  let element : Node :=
    ⟨"t", "t", none, .ofList [("component", .constString "Text")],
      .element (.ofList [("content", .bound (keyedText key) none)])⟩
  (ofRoot "r").run [.addNode page "r" "pages" none, .addNode element "p" "children" none]

theorem keyed_page_valid (key : Char) : (keyedPage key).Valid := valid_run (valid_of_root "r") _

def placeTexts (view : PageView) : List (String × Option BoundFormat) :=
  (view.statePlaces ++ view.shownPlaces).filterMap fun place => place.value?.bind Bindable.bound?

section Sample

variable {key : Char} (sample : key = 'a' ∨ key = '`')

include sample

theorem keyed_page_values : ∀ page ∈ (keyedPage key).get? "p",
    pageStateTypes (keyedPage key) page.id = [] ∧
      placeTexts (PageView.of (keyedPage key) page Catalog.builtin.schema) =
        [(keyedText key, none)] ∧
      ∀ shown ∈ (PageView.of (keyedPage key) page Catalog.builtin.schema).shownValues,
        Identifier.isValid shown.2.1 = true := by
  rcases sample with rfl | rfl
  · decide +kernel
  · decide +kernel

theorem keyed_page_elements : ∀ element ∈ (keyedPage key).markupElements "p",
    (keyedPage key).slotsOf element.id = [] ∧
      ∀ definition ∈ Catalog.builtin.find? (element.component?.getD ""),
        Identifier.isValid definition.exported = true ∧ definition.controlled = [] := by
  rcases sample with rfl | rfl
  · decide +kernel
  · decide +kernel

theorem keyed_text_literal :
    PageView.formatOf (Template.read (keyedText key)) none = .literal := by
  rcases sample with rfl | rfl
  · decide +kernel
  · decide +kernel

end Sample

theorem text_of_coded (holds : document.HoldsPage page) {text : String}
    {format : Option BoundFormat}
    (coded : Coded document page catalog.schema (.bound text format)) :
    (text, format) ∈ placeTexts (PageView.of document page catalog.schema) := by
  obtain ⟨place, isPlace, value⟩ := coded
  refine List.mem_filterMap.2 ⟨place, (mem_places_iff holds).2 isPlace, ?_⟩
  rw [value]
  rfl

section Keyed

variable {key : Char} (sample : key = 'a' ∨ key = '`')
  (found : (keyedPage key).get? "p" = some page) (type : page.type = .page)

include sample found type

theorem keyed_text_of_coded {text : String} {format : Option BoundFormat}
    (coded : Coded (keyedPage key) page Catalog.builtin.schema (.bound text format)) :
    text = keyedText key ∧ format = none := by
  obtain ⟨holds, _⟩ := holds_page (keyed_page_valid key) (node_of_type_ok.2 ⟨found, type⟩)
  have listed := text_of_coded holds coded
  rw [(keyed_page_values sample page found).2.1] at listed
  simpa using listed

theorem keyed_page_plain : (keyedPage key).IsPlain page Catalog.builtin := by
  obtain ⟨holds, own⟩ := holds_page (keyed_page_valid key) (node_of_type_ok.2 ⟨found, type⟩)
  obtain ⟨states, _, props⟩ := keyed_page_values sample page found
  have element {element : Node} (shown : (keyedPage key).Shown page.id element) :=
    keyed_page_elements sample element (own ▸ holds.mem_markup_iff.2 shown)
  constructor
  case underived =>
    intro node state derived
    have listed : NodeType.derivedState ∈ pageStateTypes (keyedPage key) page.id :=
      (mem_state_types_iff holds).2 ⟨rfl, node, state.found, state.child, derived⟩
    rw [states] at listed
    cases listed
  case bare =>
    intro text format coded kind
    obtain ⟨rfl, rfl⟩ := keyed_text_of_coded sample found type coded
    rw [keyed_text_literal sample] at kind
    cases kind
  case props =>
    exact fun element prop value shows => props _ ((mem_shown_values_iff holds).2 shows)
  case components =>
    intro shown definition here known
    obtain ⟨exported, controlled⟩ := (element here).2 definition known
    refine ⟨exported, fun prop event listed => ?_⟩
    rw [controlled] at listed
    cases listed
  case slots =>
    rintro shown slot here ⟨_, node, member, _⟩
    obtain ⟨listed, stands⟩ := mem_children_in.1 member
    have slots := mem_slots_of.2 ⟨node, listed, stands⟩
    rw [(element here).1] at slots
    cases slots

end Keyed

theorem plain_page_laid_out_sample :
    (keyedPage 'a').Valid ∧
      (∀ page, (keyedPage 'a').get? "p" = some page → page.type = .page →
        (keyedPage 'a').IsPlain page Catalog.builtin ∧
          (keyedPage 'a').Unticked page Catalog.builtin.schema) ∧
      ∃ compiled, (keyedPage 'a').compilePage "p" Catalog.builtin .usual = .ok compiled ∧
        (keyedPage 'a').compilePage "p" Catalog.builtin
          { CompileOptions.usual with pretty := false } = .ok compiled := by
  have sample : 'a' = 'a' ∨ 'a' = '`' := Or.inl rfl
  have clean : ∀ reference ∈ (Template.read (keyedText 'a')).references,
      '`' ∉ reference.text.toList := by
    decide +kernel
  have plain (page : Node) (found : (keyedPage 'a').get? "p" = some page)
      (type : page.type = .page) : (keyedPage 'a').IsPlain page Catalog.builtin ∧
        (keyedPage 'a').Unticked page Catalog.builtin.schema := by
    refine ⟨keyed_page_plain sample found type, fun text format coded _ => ?_⟩
    obtain ⟨rfl, _⟩ := keyed_text_of_coded sample found type coded
    exact clean
  have compiles : ((keyedPage 'a').compilePage "p" Catalog.builtin .usual).map
      CompiledPage.component = .ok "Home" := by
    decide +kernel
  obtain ⟨compiled, done, _⟩ := Outcome.map_eq_ok.1 compiles
  have same := plain_page_laid_out (keyed_page_valid 'a') Catalog.builtin .usual plain
  exact ⟨keyed_page_valid 'a', plain, compiled, done, same ▸ done⟩

/-- A backtick in a key ends the text around it for the layout, which then gives up. -/
theorem ticked_key_stops_layout :
    ¬∀ (document : Document) (id : NodeId) (catalog : Catalog) (options : CompileOptions),
        document.Valid →
        (∀ page, document.get? id = some page → page.type = .page →
          document.IsPlain page catalog) →
        document.compilePage id catalog { options with pretty := true } =
          document.compilePage id catalog { options with pretty := false } := by
  intro always
  have sample : '`' = 'a' ∨ '`' = '`' := Or.inr rfl
  have same := always (keyedPage '`') "p" Catalog.builtin .usual (keyed_page_valid '`')
    fun page found type => keyed_page_plain sample found type
  have warned (pretty : Bool) : ((keyedPage '`').compilePage "p" Catalog.builtin
      { CompileOptions.usual with pretty }).map (fun compiled => compiled.diagnostics.length) =
        .ok (if pretty then 1 else 0) := by
    revert pretty
    decide +kernel
  have told := congrArg (Except.map fun compiled => compiled.diagnostics.length) same
  rw [warned true, warned false] at told
  cases told

end Document

end PageBuilder
