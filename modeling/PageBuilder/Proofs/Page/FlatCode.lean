import PageBuilder.Page.Value
import PageBuilder.Proofs.Code.Flat
import PageBuilder.Proofs.Page.Names
import PageBuilder.Proofs.Reference.Displayed
import PageBuilder.Proofs.Template

/-!
The code of values is flat, but for texts that are given as code themselves: those may open what
they do not close. A text between backticks is flat as long as no key in it holds a backtick.
-/

namespace PageBuilder

def Bindable.bound? : Bindable → Option (String × Option BoundFormat)
  | .bound text format => some (text, format)
  | _ => none

open Code.Layout (Flat Keeps Neutral flat_of_neutral flat_nil template_holds)

namespace PathSegment

theorem flat_closed : Closed Flat where
  nil := flat_nil
  append := Flat.append
  dot := flat_of_neutral (by decide)
  enclosed := fun flat => flat.enclosed (by decide) (by decide)
  name := Code.Layout.flat_identifier
  number := fun number => flat_of_neutral (Code.Layout.neutral_nat number)

theorem clean_of_quoted {word : String} (clean : '`' ∉ (Json.stringText word).toList) :
    '`' ∉ word.toList := by
  intro member
  apply clean
  rw [Json.stringText, String.toList_ofList, Code.Layout.string_enclosed]
  apply List.mem_cons_of_mem
  exact List.mem_append_left _ (List.mem_flatMap.2 ⟨'`', member, by decide⟩)

theorem template_keeps_closed : Closed (Keeps (.template false)) := by
  have mark {char : Char} (plain : char ≠ '\n' ∧ char ≠ '\\' ∧ char ≠ '`') :
      Keeps (.template false) [char] := template_holds.plain plain.1 plain.2.1 plain.2.2
  refine ⟨fun _ => rfl, Keeps.append, mark (by decide), ?_, ?_, ?_⟩
  · intro inner keeps
    exact (mark (by decide) : Keeps _ ['[']).append (keeps.append (mark (by decide)))
  · intro word valid
    apply template_holds.keeps_neutral (Code.Layout.neutral_identifier valid)
    intro member
    exact absurd (Identifier.is_part_of_valid valid member) (by decide)
  · intro number
    apply template_holds.keeps_neutral (Code.Layout.neutral_nat number)
    intro member
    rw [Nat.toString_eq_repr, Nat.repr_eq_ofList_toDigits, String.toList_ofList] at member
    exact absurd (Nat.isDigit_of_mem_toDigits (by omega) (by omega) member) (by decide)

theorem template_keeps_key {word : String} (clean : '`' ∉ (Json.stringText word).toList) :
    Keeps (.template false) (Json.stringText word).toList :=
  Code.Layout.template_keeps_string (clean_of_quoted clean)

end PathSegment

namespace PageNames

theorem names_valid (view : PageView) (scope : Scope) (key : StateKey) :
    ∀ name ∈ ((ofView view scope).of view key).all, Identifier.isValid name = true := by
  intro name member
  rw [PageNames.of] at member
  cases found : (view.owner? key).bind (ofView view scope).find? with
  | none =>
      rw [found] at member
      rw [List.mem_singleton.1 member]
      decide
  | some given =>
      rw [found] at member
      obtain ⟨owner, _, known⟩ := Option.bind_eq_some_iff.1 found
      have listed := mem_of_find known
      exact ((apart_of_view view scope).adds.usable name
        (List.mem_flatMap.2 ⟨_, listed, member⟩)).valid

theorem values_valid (view : PageView) (scope : Scope) (keys : List StateKey) :
    ∀ name ∈ (ofView view scope).valuesOf view keys, Identifier.isValid name = true := by
  intro name member
  obtain ⟨listed, _⟩ := List.mem_filter.1 (List.mem_eraseDups.1 member)
  obtain ⟨key, _, rfl⟩ := List.mem_map.1 listed
  exact names_valid view scope key _ List.mem_cons_self

end PageNames

namespace PageView

variable (view : PageView) (scope : Scope)

theorem flat_placeholder : Flat placeholder.toList := Code.Layout.flat_identifier (by decide)

theorem path_of_target {reference : Reference} {key : StateKey} {path : List PathSegment}
    (found : view.referenceTarget? reference = some (key, path)) :
    path <:+ reference.segments := by
  rw [referenceTarget?, Option.bind_eq_bind, Option.bind_eq_some_iff] at found
  obtain ⟨node, _, found⟩ := found
  split at found
  · split at found
    · cases found
      exact List.suffix_refl _
    · cases found
      exact List.suffix_refl _
    · cases found
      exact List.suffix_refl _
    · split at found
      · rename_i slot rest segments
        obtain ⟨_, _, same⟩ := Option.map_eq_some_iff.1 found
        rw [segments, ← (Prod.mk.inj same).2]
        exact List.suffix_cons _ _
      · cases found
    · split at found
      · rename_i slot rest segments
        obtain ⟨_, _, same⟩ := Option.map_eq_some_iff.1 found
        rw [segments, ← (Prod.mk.inj same).2]
        exact List.suffix_cons _ _
      · cases found
    · cases found
  · cases found

theorem reference_code_cases (reference : Reference) :
    ∃ name path, Identifier.isValid name = true ∧ path <:+ reference.segments ∧
      view.referenceCode (PageNames.ofView view scope) reference =
        name ++ PathSegment.textOf path := by
  rw [referenceCode]
  cases found : view.referenceTarget? reference with
  | none =>
      refine ⟨placeholder, [], by decide, List.nil_suffix, ?_⟩
      exact (String.append_empty).symm
  | some target =>
      refine ⟨_, target.2, PageNames.names_valid view scope target.1 _ List.mem_cons_self, ?_, rfl⟩
      exact path_of_target view found

theorem reference_holds {holds : List Char → Prop} (closed : PathSegment.Closed holds)
    {reference : Reference} (proper : PathSegment.Proper reference.segments)
    (keys : ∀ word, .key word ∈ reference.segments → holds (Json.stringText word).toList) :
    holds (view.referenceCode (PageNames.ofView view scope) reference).toList := by
  obtain ⟨name, path, valid, inside, code⟩ := view.reference_code_cases scope reference
  rw [code, String.toList_append]
  apply closed.append (closed.name valid)
  apply closed.path
  · exact fun word member => proper word (inside.subset member)
  · exact fun word member => keys word (inside.subset member)

theorem flat_reference {reference : Reference} (proper : PathSegment.Proper reference.segments) :
    Flat (view.referenceCode (PageNames.ofView view scope) reference).toList :=
  view.reference_holds scope PathSegment.flat_closed proper fun word _ =>
    Code.Layout.flat_string word

theorem template_keeps_reference {reference : Reference}
    (proper : PathSegment.Proper reference.segments) (clean : '`' ∉ reference.text.toList) :
    Keeps (.template false)
      (view.referenceCode (PageNames.ofView view scope) reference).toList := by
  apply view.reference_holds scope PathSegment.template_keeps_closed proper
  intro word member
  apply PathSegment.template_keeps_key
  intro tick
  apply clean
  rw [Reference.text, String.toList_append]
  exact List.mem_append_right _ (PathSegment.key_subset member tick)

theorem proper_of_part {text : String} {reference : Reference}
    (member : .interpolation reference ∈ (Template.read text).parts) :
    PathSegment.Proper reference.segments := by
  obtain ⟨start, inner, read⟩ := Template.read_of_interpolation member
  exact fun word inside => Reference.fields_valid read inside

theorem template_keeps_literal (chars : List Char) :
    Keeps (.template false) (escapeLiteral chars) := by
  have escaped {next : Char} (other : next ≠ '\n') : Keeps (.template false) ['\\', next] :=
    template_holds.escape other
  fun_induction escapeLiteral chars with
  | case1 => exact fun _ => rfl
  | case2 rest ih =>
      have brace : Keeps (.template false) ['\x7b'] :=
        template_holds.plain (by decide) (by decide) (by decide)
      exact (escaped (by decide)).append (brace.append ih)
  | case3 char rest _ ih =>
      refine Keeps.append ?_ ih
      split_ifs with slash tick feed carriage
      · exact escaped (by decide)
      · exact escaped (by decide)
      · exact escaped (by decide)
      · exact escaped (by decide)
      · exact template_holds.plain feed slash tick

theorem escaped_unbroken {mark : Char} (ends : mark = '\n' ∨ mark = '\r') (chars : List Char) :
    mark ∉ escapeLiteral chars := by
  have apart {char : Char} (other : char ≠ '\n' ∧ char ≠ '\r') : mark ≠ char := by
    rintro rfl
    exact ends.elim other.1 other.2
  have named {letter : Char} (other : letter ≠ '\n' ∧ letter ≠ '\r') : mark ∉ ['\\', letter] := by
    simpa [@apart '\\' (by decide)] using apart other
  fun_induction escapeLiteral chars with
  | case1 => exact List.not_mem_nil
  | case2 rest ih =>
      have front : mark ∉ ['\\', '$', '\x7b'] := by
        simp [@apart '\\' (by decide), @apart '$' (by decide), @apart '\x7b' (by decide)]
      exact List.not_mem_append front ih
  | case3 char rest _ ih =>
      apply List.not_mem_append _ ih
      split_ifs with slash tick feed carriage
      · exact named (by decide)
      · exact named (by decide)
      · exact named (by decide)
      · exact named (by decide)
      · simpa using apart ⟨feed, carriage⟩

theorem template_keeps_part {text : String} {part : TemplatePart}
    (member : part ∈ (Template.read text).parts)
    (clean : ∀ reference ∈ (Template.read text).references, '`' ∉ reference.text.toList) :
    Keeps (.template false)
        (view.partCode (PageNames.ofView view scope) .literal part).toList ∧
      '\n' ∉ (view.partCode (PageNames.ofView view scope) .literal part).toList := by
  have enclosed {code : String} (keeps : Keeps (.template false) code.toList)
      (unbroken : '\n' ∉ code.toList) :
      Keeps (.template false) (pieceOfCode .literal code).toList ∧
        '\n' ∉ (pieceOfCode .literal code).toList := by
    have opened : Keeps (.template false) ['$', '\x7b'] := template_holds.keeps (by simp)
    have closed : Keeps (.template false) ['\x7d'] := template_holds.keeps (by simp)
    rw [pieceOfCode, String.toList_append, String.toList_append]
    refine ⟨(opened.append keeps).append closed, ?_⟩
    simpa using unbroken
  cases part with
  | text chars =>
      rw [partCode, pieceOfText, String.toList_ofList]
      exact ⟨template_keeps_literal chars, escaped_unbroken (Or.inl rfl) chars⟩
  | invalid written fault =>
      exact enclosed (template_holds.keeps_neutral (by decide) (by decide)) (by decide)
  | interpolation reference =>
      have listed : reference ∈ (Template.read text).references :=
        List.mem_filterMap.2 ⟨_, member, rfl⟩
      have proper := proper_of_part member
      exact enclosed (view.template_keeps_reference scope proper (clean reference listed))
        (view.flat_reference scope proper).unbroken

theorem flat_literal {text : String} {format : Option BoundFormat}
    (literal : formatOf (Template.read text) format = .literal)
    (clean : ∀ reference ∈ (Template.read text).references, '`' ∉ reference.text.toList) :
    Flat (view.templateCode (PageNames.ofView view scope) text format).toList := by
  have each {part : TemplatePart} (member : part ∈ (Template.read text).parts) :=
    view.template_keeps_part scope member clean
  rw [templateCode, literal]
  dsimp only
  rw [String.toList_append, String.toList_append, String.toList_join, List.flatMap_map]
  have keeps := Code.Layout.keeps_flat_map fun part member => (each member).1
  refine ⟨?_, fun movement => ?_⟩
  · simp only [List.mem_append, List.mem_flatMap, not_or, not_exists, not_and]
    exact ⟨⟨by decide, fun part member => (each member).2⟩, by decide⟩
  · have opened : Code.Layout.Reading.run ⟨.code, movement⟩ "`".toList =
        some ⟨.template false, movement⟩ := rfl
    rw [Code.Layout.Reading.run_append, Code.Layout.Reading.run_append, opened, Option.bind_some,
      keeps movement]
    rfl

theorem flat_expression {text : String} {format : Option BoundFormat}
    (expression : formatOf (Template.read text) format = .expression)
    (bare : ∀ chars, .text chars ∉ (Template.read text).parts) :
    Flat (view.templateCode (PageNames.ofView view scope) text format).toList := by
  have each : ∀ part ∈ (Template.read text).parts,
      Flat (view.partCode (PageNames.ofView view scope) .expression part).toList := by
    intro part member
    cases part with
    | text chars => exact absurd member (bare chars)
    | invalid written fault => exact flat_placeholder
    | interpolation reference => exact view.flat_reference scope (proper_of_part member)
  rw [templateCode, expression]
  dsimp only
  rw [String.toList_join, List.flatMap_map]
  exact Code.Layout.flat_flat_map each

theorem flat_secret (reference : String) : Flat (secretToken reference).toList := by
  have chars : (secretToken reference).toList = '\x7b' :: (" \"$$secret\": ".toList ++
      ((Json.stringText reference).toList ++ " ".toList) ++ ['\x7d']) := by
    simp [secretToken, ToString.toString]
  have front : Flat " \"$$secret\": ".toList := by decide
  have back : Flat " ".toList := by decide
  rw [chars]
  exact (front.append ((Code.Layout.flat_string reference).append back)).enclosed (by decide)
    (by decide)

theorem flat_unbound {value : Bindable} (unbound : ∀ text format, value ≠ .bound text format) :
    Flat (view.valueCode (PageNames.ofView view scope) value).toList := by
  cases value with
  | const value => exact Code.Layout.flat_json value
  | secret reference => exact flat_secret reference
  | script text => exact flat_placeholder
  | bound text format => exact absurd rfl (unbound text format)
  | binding node slot =>
      rw [valueCode]
      split
      · exact Code.Layout.flat_identifier
          (PageNames.names_valid view scope _ _ List.mem_cons_self)
      · exact flat_placeholder

end PageView

end PageBuilder
