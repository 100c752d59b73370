import PageBuilder.Proofs.Code.Markup
import PageBuilder.Proofs.Page.Compiler

/-!
The code that a page is given stands in its module. Computed state keeps its code as it is. A prop
of an element keeps its own lines, but with every level of markup around the element its further
lines move in, which changes code of several lines.
-/

namespace PageBuilder

namespace Code

structure Wrote (before after : Writer) : Prop where
  level : after.level = before.level
  text : before.text.toList <+: after.text.toList

namespace Wrote

variable {before middle after : Writer}

theorem refl (writer : Writer) : Wrote writer writer := ⟨rfl, List.prefix_rfl⟩

theorem trans (first : Wrote before middle) (second : Wrote middle after) : Wrote before after :=
  ⟨second.level.trans first.level, first.text.trans second.text⟩

theorem add (writer : Writer) (text : String) : Wrote writer (writer.add text) := by
  refine ⟨rfl, ?_⟩
  simp [Writer.add]

theorem add_line (writer : Writer) (text : String) : Wrote writer (writer.addLine text) :=
  ((add writer _).trans (add _ text)).trans (add _ "\n")

theorem add_lines (writer : Writer) (text : String) : Wrote writer (writer.addLines text) :=
  add writer _

end Wrote

theorem Writer.lines_added (writer : Writer) (text : String) :
    (indentLines writer.level text).toList <:+ (writer.addLines text).text.toList := by
  simp [Writer.addLines, Writer.add]

end Code

namespace PageCompiler

open Code (Carries Wrote Writer)
open Code.MarkupTag (attributeText)
open Text (Solid)

theorem wrote_declaration (hooks : Code.Hooks) (writer : Writer) (declaration : StateDeclaration) :
    Wrote writer (writeDeclaration hooks writer declaration) := Wrote.add_line writer _

theorem wrote_declarations (hooks : Code.Hooks) (declarations : List StateDeclaration)
    (writer : Writer) : Wrote writer (declarations.foldl (writeDeclaration hooks) writer) := by
  induction declarations generalizing writer with
  | nil => exact Wrote.refl writer
  | cons declaration declarations ih =>
      exact (wrote_declaration hooks writer declaration).trans (ih _)

theorem declaration_written (hooks : Code.Hooks) {declarations : List StateDeclaration}
    {declaration : StateDeclaration} (member : declaration ∈ declarations) (writer : Writer) :
    (Code.declaration hooks declaration.names declaration.source).toList <:+:
      (declarations.foldl (writeDeclaration hooks) writer).text.toList := by
  obtain ⟨before, after, rfl⟩ := List.append_of_mem member
  rw [List.foldl_append, List.foldl_cons]
  have later := wrote_declarations hooks after
    (writeDeclaration hooks (before.foldl (writeDeclaration hooks) writer) declaration)
  refine List.IsInfix.trans ?_ later.text.isInfix
  simp only [writeDeclaration, Writer.addIndented, Writer.add, String.toList_append]
  exact List.infix_append _ _ _

theorem expression_in_declaration (hooks : Code.Hooks) (names : StateNames) (expression : String)
    (reads : List String) : expression.toList <:+:
      (Code.declaration hooks names (.computed expression reads)).toList := by
  refine ⟨"const ".toList ++ (Code.targetCode names).toList ++ " = ".toList ++ hooks.react.toList ++
    ".useMemo(() => ".toList, ", ".toList ++ (Code.listLiteral reads).toList ++ ")".toList ++
    ";".toList, ?_⟩
  simp only [Code.declaration, Code.sourceCode, ToString.toString, String.toList_append,
    List.append_assoc]

theorem wrote_body (bindings : PageBindings) (hooks : Code.Hooks) (pageScope : Option String)
    (writer : Writer) :
    Wrote (bindings.declarations.foldl (writeDeclaration hooks) writer)
      (writeBody bindings hooks pageScope writer) := by
  unfold writeBody
  cases pageScope with
  | none =>
      dsimp only
      split
      · exact Wrote.refl _
      · exact Wrote.add _ _
  | some name =>
      dsimp only
      rw [if_neg (by simp)]
      exact (Wrote.add_line _ _).trans (Wrote.add _ _)

theorem write_markup_nil (writer : Writer) :
    writeMarkup [] writer = writer.addLine "return null;" := rfl

theorem write_markup_of_ne_nil {roots : List String} (nonempty : roots ≠ []) (writer : Writer) :
    writeMarkup roots writer =
      ((writer.addLine "return (").indent.addLines (Code.wrapFragments roots)).dedent.addLine
        ");" := by
  rw [writeMarkup, if_neg (by simpa using nonempty)]

theorem wrote_markup (roots : List String) (writer : Writer) :
    writer.text.toList <+: (writeMarkup roots writer).text.toList := by
  by_cases empty : roots = []
  · rw [empty, write_markup_nil]
    exact (Wrote.add_line writer _).text
  · rw [write_markup_of_ne_nil empty]
    have opened := Wrote.add_line writer "return ("
    generalize writer.addLine "return (" = inside at opened ⊢
    have held := Wrote.add_lines inside.indent (Code.wrapFragments roots)
    generalize inside.indent.addLines (Code.wrapFragments roots) = full at held ⊢
    exact (opened.text.trans held.text).trans (Wrote.add_line full.dedent _).text

theorem markup_written {roots : List String} {fragment : String} (member : fragment ∈ roots)
    {piece : List Char} (solid : Solid piece) (carries : Carries fragment piece)
    (writer : Writer) :
    ∃ levels, Code.reindentAll ((writer.level + 1) :: levels) piece <:+:
      (writeMarkup roots writer).text.toList := by
  rw [write_markup_of_ne_nil (List.ne_nil_of_mem member)]
  have opened := Wrote.add_line writer "return ("
  generalize writer.addLine "return (" = inside at opened ⊢
  have level : inside.indent.level = writer.level + 1 := by rw [Writer.indent, opened.level]
  obtain ⟨levels, here⟩ := (carries.wrap_fragments solid member).indent solid inside.indent.level
  have held := inside.indent.lines_added (Code.wrapFragments roots)
  generalize inside.indent.addLines (Code.wrapFragments roots) = full at held ⊢
  have last := Wrote.add_line full.dedent ");"
  rw [← level]
  exact ⟨levels, here.trans (held.isInfix.trans last.text.isInfix)⟩

section Rendering

variable {context : MarkupContext} {piece : List Char}

theorem element_tag_known {element : Node} {definition : ComponentDefinition}
    (known : context.catalog.find? (element.component?.getD "") = some definition)
    (slots : SortedMap (List String)) :
    elementTag context element slots =
      ⟨aliasOr context.imports definition.source definition.exported,
        attributes context definition element, slots⟩ := by
  rw [elementTag, known]

theorem element_tag_unknown {element : Node}
    (unknown : context.catalog.find? (element.component?.getD "") = none)
    (slots : SortedMap (List String)) :
    elementTag context element slots =
      ⟨context.react ++ ".Fragment", [],
        SortedMap.empty.insert childrenSlot slots.values.flatten⟩ := by
  rw [elementTag, unknown]

theorem carries_marked (solid : Solid piece) (element : Node) {fragment : String}
    (carries : Carries fragment piece) : Carries (marked context element fragment) piece := by
  unfold marked
  split
  · exact carries
  · exact ((carries.indent_lines solid 1).append_right _).append_left _

theorem carries_element_slot (solid : Solid piece) (element : Node)
    {slots : SortedMap (List String)} {slot : String} {fragments : List String}
    (held : slots.get? slot = some fragments) {fragment : String} (member : fragment ∈ fragments)
    (carries : Carries fragment piece) :
    Carries (elementTag context element slots).render piece := by
  cases known : context.catalog.find? (element.component?.getD "") with
  | some definition =>
      rw [element_tag_known known]
      exact Code.MarkupTag.carries_slot solid held member carries
  | none =>
      have all : (SortedMap.empty.insert childrenSlot slots.values.flatten).get? childrenSlot =
          some slots.values.flatten := by
        simp
      rw [element_tag_unknown known]
      apply Code.MarkupTag.carries_slot solid all _ carries
      exact List.mem_flatten.2 ⟨fragments, slots.mem_values_iff.2 ⟨slot, held⟩, member⟩

theorem elements_below_slot {document : Document} {depth : Nat} {parent : NodeId} {element : Node}
    (below : element ∈ document.elementsBelow depth (document.children parent)) :
    ∃ slot, slot ∈ document.childSlots parent ∧ element ∈ document.elementsBelow depth slot.2 := by
  rw [Document.children, Document.elements_below_slots] at below
  exact List.mem_flatMap.1 below

theorem get_rendered_slot {document : Document} {parent : NodeId} {slot : String × List Node}
    (known : slot ∈ document.childSlots parent) (render : List Node → List String) :
    (SortedMap.ofList ((document.childSlots parent).map fun slot =>
      (slot.1, render slot.2))).get? slot.1 = some (render slot.2) := by
  rw [← SortedMap.mem_entries_iff,
    SortedMap.entries_of_list (document.names_of_child_slots parent render)]
  exact List.mem_map.2 ⟨slot, known, rfl⟩

theorem carries_elements (solid : Solid piece) {element : Node}
    (own : ∀ slots,
      Carries (marked context element (elementTag context element slots).render) piece)
    {depth : Nat} {nodes : List Node}
    (below : element ∈ context.document.elementsBelow depth nodes) :
    ∃ fragment ∈ renderElements context depth nodes, Carries fragment piece := by
  induction depth generalizing nodes with
  | zero => exact absurd below List.not_mem_nil
  | succ depth ih =>
      rw [Document.elementsBelow, List.mem_flatMap] at below
      obtain ⟨top, listed, inside⟩ := below
      rw [renderElements]
      refine ⟨_, List.mem_map.2 ⟨top, listed, rfl⟩, ?_⟩
      rcases List.mem_cons.1 inside with rfl | deeper
      · exact own _
      · obtain ⟨slot, known, among⟩ := elements_below_slot deeper
        obtain ⟨fragment, member, carries⟩ := ih among
        exact carries_marked solid top (carries_element_slot solid top
          (get_rendered_slot known (renderElements context depth)) member carries)

theorem solid_braced (name code : String) : Solid (attributeText (name, braced code)) := by
  have ends : attributeText (name, braced code) =
      (name.toList ++ '=' :: '\x7b' :: code.toList) ++ ['\x7d'] := by
    simp [attributeText, braced]
  rw [ends]
  exact ⟨'\x7d', List.getLast?_concat, by decide, by decide⟩

theorem code_in_attributes {definition : ComponentDefinition} {element : Node}
    {props : SortedMap ResolvedProp} {name code : String}
    (resolved : context.bindings.props.get? element.id = some props)
    (shown : props.get? name = some (.code code)) :
    (name, braced code) ∈ attributes context definition element := by
  unfold attributes
  rw [resolved]
  have listed := props.mem_entries_iff.2 shown
  exact List.mem_flatMap.2 ⟨(name, .code code), listed, List.mem_singleton.2 rfl⟩

end Rendering

/-- The module up to what the page shows, and the level that it is written at. -/
def Plan.opened (plan : Plan) (options : CompileOptions) : Writer :=
  writeBody plan.bindings (plan.hooks options) plan.pageScope
    (((Writer.empty.add plan.imports.render).add "\n").addLine
      s!"export default function {plan.component}() \x7b").indent

theorem raw_source_eq (plan : Plan) (document : Document) (catalog : Catalog)
    (options : CompileOptions) :
    plan.rawSource document catalog options =
      ((writeMarkup (plan.roots document catalog options) (plan.opened options)).dedent.addLine
        "\x7d").text := rfl

theorem level_opened (plan : Plan) (options : CompileOptions) :
    (plan.opened options).level = 1 := by
  have body := wrote_body plan.bindings (plan.hooks options) plan.pageScope
  unfold Plan.opened
  rw [(body _).level, (wrote_declarations _ _ _).level]
  rfl

theorem opened_in_raw_source (plan : Plan) (document : Document) (catalog : Catalog)
    (options : CompileOptions) :
    (plan.opened options).text.toList <+: (plan.rawSource document catalog options).toList := by
  rw [raw_source_eq]
  have shown := wrote_markup (plan.roots document catalog options) (plan.opened options)
  generalize writeMarkup (plan.roots document catalog options) (plan.opened options) = full
    at shown ⊢
  exact shown.trans (Wrote.add_line full.dedent _).text

theorem declaration_in_raw_source (plan : Plan) (document : Document) (catalog : Catalog)
    (options : CompileOptions) {declaration : StateDeclaration}
    (member : declaration ∈ plan.bindings.declarations) :
    (Code.declaration (plan.hooks options) declaration.names declaration.source).toList <:+:
      (plan.rawSource document catalog options).toList := by
  have opened := opened_in_raw_source plan document catalog options
  refine List.IsInfix.trans ?_ opened.isInfix
  unfold Plan.opened
  generalize Writer.indent _ = writer
  have declared := declaration_written (plan.hooks options) member writer
  have body := wrote_body plan.bindings (plan.hooks options) plan.pageScope writer
  exact declared.trans body.text.isInfix

theorem expression_in_raw_source (plan : Plan) (document : Document) (catalog : Catalog)
    (options : CompileOptions) {declaration : StateDeclaration}
    (member : declaration ∈ plan.bindings.declarations) {expression : String} {reads : List String}
    (computed : declaration.source = .computed expression reads) :
    expression.toList <:+: (plan.rawSource document catalog options).toList := by
  have inside := expression_in_declaration (plan.hooks options) declaration.names expression reads
  rw [← computed] at inside
  exact inside.trans (declaration_in_raw_source plan document catalog options member)

/-- The page shows an element of a known component with code for a prop. -/
def ShowsCode (document : Document) (page : NodeId) (catalog : Catalog) (bindings : PageBindings)
    (name code : String) : Prop :=
  ∃ element definition props, document.Shown page element ∧
    catalog.find? (element.component?.getD "") = some definition ∧
    bindings.props.get? element.id = some props ∧ props.get? name = some (.code code)

/-- What a shown element shows whatever its slots hold stands in the module. Its further lines move
in by two levels at least. -/
theorem shown_in_raw_source {document : Document} {catalog : Catalog} (options : CompileOptions)
    {plan : Plan} (holds : document.HoldsPage plan.page) {piece : List Char} (solid : Solid piece)
    {element : Node} (shown : document.Shown plan.page.id element)
    (own : ∀ slots, Carries (marked (plan.context document catalog options) element
      (elementTag (plan.context document catalog options) element slots).render) piece) :
    ∃ levels, Code.reindentAll (2 :: levels) piece <:+:
      (plan.rawSource document catalog options).toList := by
  have rendered : ∃ fragment ∈ plan.roots document catalog options, Carries fragment piece :=
    carries_elements solid own (holds.mem_markup_iff.2 shown)
  obtain ⟨fragment, member, carries⟩ := rendered
  obtain ⟨levels, here⟩ := markup_written member solid carries (plan.opened options)
  rw [level_opened] at here
  rw [raw_source_eq]
  generalize writeMarkup (plan.roots document catalog options) (plan.opened options) = full
    at here ⊢
  exact ⟨levels, here.trans (Wrote.add_line full.dedent _).text.isInfix⟩

theorem code_in_raw_source {document : Document} {catalog : Catalog} (options : CompileOptions)
    {plan : Plan} (holds : document.HoldsPage plan.page) {name code : String}
    (shows : ShowsCode document plan.page.id catalog plan.bindings name code) :
    ∃ levels, Code.reindentAll (2 :: levels) (attributeText (name, braced code)) <:+:
      (plan.rawSource document catalog options).toList := by
  obtain ⟨element, definition, props, shown, known, resolved, given⟩ := shows
  have solid := solid_braced name code
  refine shown_in_raw_source options holds solid shown fun slots => ?_
  apply carries_marked solid
  refine Code.MarkupTag.carries_attribute ?_ List.infix_rfl
  have found : (plan.context document catalog options).catalog.find?
      (element.component?.getD "") = some definition := known
  rw [element_tag_known found]
  exact code_in_attributes resolved given

end PageCompiler

namespace Document

open PageCompiler
open Code.MarkupTag (attributeText)

variable {document : Document} {catalog : Catalog}

/-- In a module that is not laid out computed state keeps its code, and so does every prop with a
value of one line. The first line of a longer value follows the name of the prop as well; its
further lines move in by two levels, and by more below other elements. -/
theorem compiled_code_stands (valid : document.Valid) {id : NodeId} {options : CompileOptions}
    (raw : options.pretty = false) {compiled : CompiledPage}
    (done : document.compilePage id catalog options = .ok compiled) :
    ∃ page plan, document.nodeOfType id .page = .ok page ∧
      PageCompiler.plan document page catalog options = .ok plan ∧
      (∀ name code, ShowsCode document id catalog plan.bindings name code →
        (∃ levels, Code.reindentAll (2 :: levels) (attributeText (name, braced code)) <:+:
          compiled.source.toList) ∧
        ('\n' ∉ attributeText (name, braced code) →
          attributeText (name, braced code) <:+: compiled.source.toList) ∧
        ('\r' ∉ attributeText (name, braced code) →
          ∃ level ≥ 2, Code.reindent level (attributeText (name, braced code)) <:+:
            compiled.source.toList)) ∧
      ∀ declaration ∈ plan.bindings.declarations, ∀ expression reads,
        declaration.source = .computed expression reads →
          expression.toList <:+: compiled.source.toList := by
  obtain ⟨page, plan, found, planned, written⟩ := compile_page_ok done
  obtain ⟨holds, own⟩ := holds_page valid found
  have same := plan_page planned
  have source : compiled.source = plan.rawSource document catalog options := by
    rw [← written, Document.written, finish, raw]
    rfl
  rw [source]
  refine ⟨page, plan, found, planned, fun name code shows => ?_, ?_⟩
  · rw [← own, ← same] at shows
    have solid := solid_braced name code
    obtain ⟨levels, here⟩ := code_in_raw_source options (same ▸ holds) shows
    refine ⟨⟨levels, here⟩, fun unbroken => ?_, fun noReturn => ?_⟩
    · rw [Code.reindent_all_unbroken solid unbroken] at here
      exact here
    · obtain ⟨depth, deep, same⟩ := Code.exists_reindent_all solid noReturn 2 levels
      exact ⟨depth, deep, same ▸ here⟩
  · intro declaration member expression reads computed
    exact expression_in_raw_source plan document catalog options member computed

def multilinePage : Document :=
  let page : Node := ⟨"p", "home", none, .empty, .page .empty⟩
  let element : Node := ⟨"t", "t", none, .ofList [("component", .constString "T")],
    .element (.ofList [("content", .bound "`a\nb`" (some .expression))])⟩
  (ofRoot "r").run [.addNode page "r" "pages" none, .addNode element "p" "children" none]

def oneComponent : Catalog := Catalog.empty.register ⟨"T", "m", none, .empty⟩

def rawOptions : CompileOptions := { CompileOptions.usual with pretty := false }

theorem multiline_page_valid : multilinePage.Valid := valid_run (valid_of_root "r") _

theorem multiline_page_compiled :
    ∃ compiled, multilinePage.compilePage "p" oneComponent rawOptions = .ok compiled ∧
      ¬attributeText ("content", braced "`a\nb`") <:+: compiled.source.toList := by
  have text : (multilinePage.compilePage "p" oneComponent rawOptions).map (fun compiled =>
      decide (attributeText ("content", braced "`a\nb`") <:+: compiled.source.toList)) =
        .ok false := by
    decide +kernel
  obtain ⟨compiled, done, missing⟩ := Outcome.map_eq_ok.1 text
  exact ⟨compiled, done, of_decide_eq_false missing⟩

theorem multiline_page_shown {page : Node} {plan : Plan}
    (found : multilinePage.nodeOfType "p" .page = .ok page)
    (planned : PageCompiler.plan multilinePage page oneComponent rawOptions = .ok plan) :
    ShowsCode multilinePage "p" oneComponent plan.bindings "content" "`a\nb`" := by
  obtain ⟨holds, own⟩ := holds_page multiline_page_valid found
  have text : ("t", some "T") ∈ (multilinePage.markupElements "p").map (fun element =>
      (element.id, element.component?)) := by
    decide +kernel
  obtain ⟨element, listed, same⟩ := List.mem_map.1 text
  obtain ⟨id, component⟩ := Prod.mk.inj same
  have shown : multilinePage.Shown "p" element := by
    rw [← own] at listed ⊢
    exact holds.mem_markup_iff.1 listed
  have known : (oneComponent.find? "T").isSome := by decide +kernel
  obtain ⟨definition, known⟩ := Option.isSome_iff_exists.1 known
  have given : ((multilinePage.nodeOfType "p" .page).toOption.bind fun page =>
      (PageCompiler.plan multilinePage page oneComponent rawOptions).toOption.bind fun plan =>
        (plan.bindings.props.get? "t").bind fun props => props.get? "content") =
          some (.code "`a\nb`") := by
    decide +kernel
  rw [found, Except.toOption, Option.bind_some, planned, Except.toOption, Option.bind_some,
    Option.bind_eq_some_iff] at given
  obtain ⟨props, resolved, code⟩ := given
  refine ⟨element, definition, props, shown, ?_, ?_, code⟩
  · rw [component]
    exact known
  · rw [id]
    exact resolved

theorem compiled_code_stands_sample :
    multilinePage.Valid ∧ rawOptions.pretty = false ∧ ∃ compiled,
      multilinePage.compilePage "p" oneComponent rawOptions = .ok compiled ∧
      ∃ level ≥ 2, Code.reindent level (attributeText ("content", braced "`a\nb`")) <:+:
        compiled.source.toList := by
  obtain ⟨compiled, done, _⟩ := multiline_page_compiled
  obtain ⟨page, plan, found, planned, shown, _⟩ :=
    compiled_code_stands multiline_page_valid rfl done
  have noReturn : '\r' ∉ attributeText ("content", braced "`a\nb`") := by decide
  exact ⟨multiline_page_valid, rfl, compiled, done,
    (shown _ _ (multiline_page_shown found planned)).2.2 noReturn⟩

/-- A value of several lines does not stand in the module as it is. -/
theorem compiled_code_moves_in :
    ¬ ∀ (document : Document) (catalog : Catalog) (options : CompileOptions) (id : NodeId)
      (compiled : CompiledPage) (page : Node) (plan : Plan), document.Valid →
      options.pretty = false → document.compilePage id catalog options = .ok compiled →
      document.nodeOfType id .page = .ok page →
      PageCompiler.plan document page catalog options = .ok plan →
      ∀ name code, ShowsCode document id catalog plan.bindings name code →
        attributeText (name, braced code) <:+: compiled.source.toList := by
  intro always
  obtain ⟨compiled, done, missing⟩ := multiline_page_compiled
  obtain ⟨page, plan, found, planned, _⟩ := compile_page_ok done
  exact missing (always multilinePage oneComponent rawOptions "p" compiled page plan
    multiline_page_valid rfl done found planned _ _ (multiline_page_shown found planned))

end Document

end PageBuilder
