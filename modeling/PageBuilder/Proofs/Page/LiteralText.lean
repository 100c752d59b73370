import PageBuilder.Component.Catalog
import PageBuilder.Proofs.Code.TemplateLiteral
import PageBuilder.Proofs.Document.Run
import PageBuilder.Proofs.Page.FlatCode
import PageBuilder.Proofs.Template.Slices

/-!
What is written between backticks for a template, as the language reads it: the texts of the
template, character by character, and for each interpolation its code. Every part is written by
itself, so that a text which ends in a dollar must not stand before one that starts with a brace. No
text follows a text, and all code starts with a dollar.
-/

namespace PageBuilder

open Code (Visible)
open Code.TemplateLiteral

namespace PathSegment

theorem visible_of_part {char : Char} (part : Identifier.isPart char = true) :
    0x20 ≤ char.toNat := by
  simp only [Identifier.isPart, Identifier.isStart, Identifier.isLetter, Identifier.isDigit,
    Bool.or_eq_true, Bool.and_eq_true, decide_eq_true_eq, Char.le_def, UInt32.le_iff_toNat_le]
    at part
  rcases part with (((⟨lower, _⟩ | ⟨upper, _⟩) | rfl) | rfl) | ⟨digit, _⟩
  · exact Nat.le_trans (by decide) lower
  · exact Nat.le_trans (by decide) upper
  · decide
  · decide
  · exact Nat.le_trans (by decide) digit

theorem visible_closed : Closed Visible where
  nil := by simp [Visible]
  append := Visible.append
  dot := by decide
  enclosed := by
    intro inner visible
    have opening : Visible ['['] := by decide
    have closing : Visible [']'] := by decide
    exact opening.append (visible.append closing)
  name := fun valid _ member => visible_of_part (Identifier.is_part_of_valid valid member)
  number := by
    intro number char member
    rw [Nat.toString_eq_repr, Nat.repr_eq_ofList_toDigits, String.toList_ofList] at member
    apply visible_of_part
    exact Identifier.is_part_of_digit
      (Nat.isDigit_of_mem_toDigits (by decide) (by decide) member)

end PathSegment

namespace PageView

variable (view : PageView) (scope : Scope)

/-- What a part of a template says between backticks. -/
def literalPieces (names : PageNames) : TemplatePart → List Piece
  | .text chars => chars.map .character
  | .interpolation reference => [.code (view.referenceCode names reference).toList]
  | .invalid _ _ => [.code placeholder.toList]

theorem head_of_escaped {chars rest : List Char} (apart : rest.head? ≠ some '\x7b')
    (starts : (escapeLiteral chars ++ rest).head? = some '\x7b') : chars.head? = some '\x7b' := by
  revert starts
  fun_cases escapeLiteral chars with
  | case1 => exact fun starts => absurd starts apart
  | case2 behind =>
      intro starts
      cases starts
  | case3 char behind other =>
      split_ifs with slash tick feed back
      · simp
      · simp
      · simp
      · simp
      · exact id

/-- An escaped text is read as the text it was, unless a brace behind it makes a substitution of its
last dollar. -/
theorem read_escaped (chars : List Char) {rest : List Char} (apart : rest.head? ≠ some '\x7b') :
    readBehind? (escapeLiteral chars ++ rest) =
      (readBehind? rest).map fun read => (chars.map .character ++ read.1, read.2) := by
  have hidden {char cooked : Char} (told : cooked? char = some cooked) {chars : List Char}
      (ih : readBehind? (escapeLiteral chars ++ rest) =
        (readBehind? rest).map fun read => (chars.map .character ++ read.1, read.2)) :
      readBehind? ('\\' :: char :: (escapeLiteral chars ++ rest)) = (readBehind? rest).map
        fun read => ((cooked :: chars).map .character ++ read.1, read.2) := by
    rw [read_escape told, ih, Option.map_map]
    rfl
  fun_induction escapeLiteral chars with
  | case1 =>
      cases read : readBehind? rest with
      | none => simp [read]
      | some => simp [read]
  | case2 behind ih =>
      -- Only the dollar is escaped, so the brace behind it stands for itself.
      have brace : readBehind? ('\x7b' :: (escapeLiteral behind ++ rest)) =
          (readBehind? (escapeLiteral behind ++ rest)).map
            fun read => (.character '\x7b' :: read.1, read.2) := by
        apply read_plain (by decide) (by decide)
        exact fun dollar => absurd dollar (by decide)
      have dollar : cooked? '$' = some '$' := by decide
      rw [List.cons_append, List.cons_append, List.cons_append, read_escape dollar, brace, ih,
        Option.map_map, Option.map_map]
      rfl
  | case3 char behind other ih =>
      split_ifs with slash tick feed back
      · subst slash
        exact hidden (by decide) ih
      · subst tick
        exact hidden (by decide) ih
      · subst feed
        exact hidden (by decide) ih
      · subst back
        exact hidden (by decide) ih
      · have opens : char = '$' → (escapeLiteral behind ++ rest).head? ≠ some '\x7b' := by
          intro dollar starts
          obtain ⟨tail, rfl⟩ := List.head?_eq_some_iff.1 (head_of_escaped apart starts)
          exact other tail dollar rfl
        rw [List.append_assoc, List.singleton_append, read_plain tick slash opens, ih,
          Option.map_map]
        rfl

def replaced (old new : List Char) : List Char → List Char
  | [] => []
  | char :: rest =>
      if old.isPrefixOf (char :: rest) then new ++ replaced old new (rest.drop (old.length - 1))
      else char :: replaced old new rest
termination_by chars => chars.length
decreasing_by
  · rw [List.length_drop, List.length_cons]
    omega
  · exact Nat.lt_succ_self _

theorem head_of_replaced {old new chars : List Char} {char : Char} (nonempty : new ≠ [])
    (apart : new.head? ≠ .some char) (starts : (replaced old new chars).head? = .some char) :
    chars.head? = .some char := by
  cases chars with
  | nil =>
      rw [replaced] at starts
      exact starts
  | cons first rest =>
      rw [replaced] at starts
      split_ifs at starts with here
      · rw [List.head?_append_of_ne_nil _ nonempty] at starts
        exact absurd starts apart
      · exact starts

/-- The replacements by which a text is escaped, one behind the other. -/
def escapedInTurn (chars : List Char) : List Char :=
  let slashed := replaced ['\\'] ['\\', '\\'] chars
  let ticked := replaced ['`'] ['\\', '`'] slashed
  let closed := replaced ['$', '\x7b'] ['\\', '$', '\x7b'] ticked
  replaced ['\r'] ['\\', 'r'] (replaced ['\n'] ['\\', 'n'] closed)

/-- None of the replacements touches what another one wrote. -/
theorem escape_literal_in_turn (chars : List Char) :
    escapeLiteral chars = escapedInTurn chars := by
  fun_induction escapeLiteral chars with
  | case1 => simp [escapedInTurn, replaced]
  | case2 rest ih => simp [escapedInTurn, replaced, ih]
  | case3 char rest other ih =>
      split_ifs with slash tick feed carriage
      · subst slash
        simp [escapedInTurn, replaced, ih]
      · subst tick
        simp [escapedInTurn, replaced, ih]
      · subst feed
        simp [escapedInTurn, replaced, ih]
      · subst carriage
        simp [escapedInTurn, replaced, ih]
      · have apart : ¬['$', '\x7b'].isPrefixOf
            (char :: replaced ['`'] ['\\', '`'] (replaced ['\\'] ['\\', '\\'] rest)) = true := by
          intro starts
          obtain ⟨behind, same⟩ := List.isPrefixOf_iff_prefix.1 starts
          obtain ⟨dollar, more⟩ := List.cons.inj same
          have ticked : (replaced ['`'] ['\\', '`']
              (replaced ['\\'] ['\\', '\\'] rest)).head? = some '\x7b' := by
            rw [← more]
            rfl
          have slashed : (replaced ['\\'] ['\\', '\\'] rest).head? = some '\x7b' :=
            head_of_replaced (by decide) (by decide) ticked
          have first : rest.head? = some '\x7b' :=
            head_of_replaced (by decide) (by decide) slashed
          obtain ⟨tail, brace⟩ := List.head?_eq_some_iff.1 first
          exact other tail dollar.symm brace
        simp [escapedInTurn, replaced, ih, Ne.symm slash, Ne.symm tick, Ne.symm feed,
          Ne.symm carriage, apart]

theorem code_of_piece (code : String) (rest : List Char) :
    (pieceOfCode .literal code).toList ++ rest =
      '$' :: '\x7b' :: (code.toList ++ '\x7d' :: rest) := by
  simp [pieceOfCode]

theorem passes_placeholder : Passes opened placeholder.toList opened :=
  passes_neutral (Code.Layout.neutral_identifier (by decide))

theorem passes_reference {reference : Reference}
    (proper : PathSegment.Proper reference.segments) :
    Passes opened (view.referenceCode (PageNames.ofView view scope) reference).toList opened :=
  view.reference_holds scope passes_closed proper fun word _ =>
    passes_string word

theorem visible_reference {reference : Reference}
    (proper : PathSegment.Proper reference.segments) :
    Visible (view.referenceCode (PageNames.ofView view scope) reference).toList :=
  view.reference_holds scope PathSegment.visible_closed proper fun word _ =>
    Code.string_text_visible word

def literalChars (names : PageNames) (parts : List TemplatePart) : List Char :=
  parts.flatMap fun part => (view.partCode names .literal part).toList

theorem head_behind_text {parts : List TemplatePart} (names : PageNames) (rest : List Char)
    (other : ∀ second ∈ parts.head?, ∀ chars, second ≠ .text chars) :
    (view.literalChars names parts ++ '`' :: rest).head? ≠ some '\x7b' := by
  cases parts with
  | nil =>
      intro same
      cases same
  | cons second parts =>
      rw [literalChars, List.flatMap_cons, List.append_assoc]
      cases second with
      | text chars => exact absurd rfl (other _ rfl chars)
      | interpolation reference =>
          rw [partCode, code_of_piece]
          intro same
          cases same
      | invalid written fault =>
          rw [partCode, code_of_piece]
          intro same
          cases same

theorem read_parts {parts : List TemplatePart}
    (proper : ∀ reference, .interpolation reference ∈ parts →
      PathSegment.Proper reference.segments)
    (chain : parts.IsChain Template.Precedes) (rest : List Char) :
    readBehind? (view.literalChars (PageNames.ofView view scope) parts ++ '`' :: rest) =
      some (parts.flatMap (view.literalPieces (PageNames.ofView view scope)), rest) := by
  induction parts with
  | nil => exact read_tick
  | cons part parts ih =>
      have later := ih (fun reference member => proper reference (List.mem_cons_of_mem _ member))
        (List.isChain_cons.1 chain).2
      have front : view.literalChars (PageNames.ofView view scope) (part :: parts) =
          (view.partCode (PageNames.ofView view scope) .literal part).toList ++
            view.literalChars (PageNames.ofView view scope) parts := List.flatMap_cons
      rw [front, List.append_assoc]
      cases part with
      | text chars =>
          have apart := view.head_behind_text (PageNames.ofView view scope) rest
            fun second next more => ((List.isChain_cons.1 chain).1 second next).2 chars more rfl
          rw [partCode, pieceOfText, String.toList_ofList,
            read_escaped chars apart, later]
          rfl
      | interpolation reference =>
          have passes := view.passes_reference scope (proper reference List.mem_cons_self)
          rw [partCode, code_of_piece, read_code passes, later]
          rfl
      | invalid written fault =>
          rw [partCode, code_of_piece, read_code passes_placeholder, later]
          rfl

theorem visible_code {code : String} (visible : Visible code.toList) :
    Visible (pieceOfCode .literal code).toList := by
  have opening : Visible ['$', '\x7b'] := by decide
  have closing : Visible ['\x7d'] := by decide
  rw [pieceOfCode, String.toList_append, String.toList_append]
  exact (opening.append visible).append closing

theorem part_unbroken {part : TemplatePart}
    (proper : ∀ reference, part = .interpolation reference →
      PathSegment.Proper reference.segments)
    {mark : Char} (ends : mark = '\n' ∨ mark = '\r') :
    mark ∉ (view.partCode (PageNames.ofView view scope) .literal part).toList := by
  have control : mark.toNat < 0x20 := by
    rcases ends with rfl | rfl
    · decide
    · decide
  cases part with
  | text chars =>
      rw [partCode, pieceOfText, String.toList_ofList]
      exact escaped_unbroken ends chars
  | interpolation reference =>
      exact (visible_code (view.visible_reference scope (proper reference rfl))).lacks control
  | invalid written fault =>
      have visible : Visible placeholder.toList := by decide
      exact (visible_code visible).lacks control

/-- The text between backticks that is written for a template is read to its last character, as the
texts of the template, character by character, and for each interpolation its code. It holds no end
of a line. -/
theorem literal_text_reads {text : String} {format : Option BoundFormat}
    (literal : formatOf (Template.read text) format = .literal) :
    read? (view.templateCode (PageNames.ofView view scope) text format).toList =
        some ((Template.read text).parts.flatMap
          (view.literalPieces (PageNames.ofView view scope)), []) ∧
      '\n' ∉ (view.templateCode (PageNames.ofView view scope) text format).toList ∧
      '\r' ∉ (view.templateCode (PageNames.ofView view scope) text format).toList := by
  have chars : (view.templateCode (PageNames.ofView view scope) text format).toList = '`' ::
      (view.literalChars (PageNames.ofView view scope) (Template.read text).parts ++ ['`']) := by
    rw [templateCode, literal]
    dsimp only
    rw [String.toList_append, String.toList_append, String.toList_join, List.flatMap_map]
    rfl
  have unbroken {mark : Char} (ends : mark = '\n' ∨ mark = '\r') (other : mark ≠ '`') :
      mark ∉ '`' ::
        (view.literalChars (PageNames.ofView view scope) (Template.read text).parts ++ ['`']) := by
    simp only [literalChars, List.mem_cons, List.mem_append, List.mem_flatMap, not_or, not_exists,
      not_and]
    refine ⟨other, fun part member => ?_, other, List.not_mem_nil⟩
    apply view.part_unbroken scope _ ends
    rintro reference rfl
    exact proper_of_part member
  rw [chars]
  refine ⟨?_, unbroken (Or.inl rfl) (by decide), unbroken (Or.inr rfl) (by decide)⟩
  apply view.read_parts scope
  · exact fun reference member => proper_of_part member
  · exact Template.precedes_parts 0 text.toList

def countingPage : Document :=
  let page : Node := ⟨"p", "home", none, .empty, .page (.ofList [("count", .null)])⟩
  (Document.ofRoot "r").run [.addNode page "r" "pages" none]

/-- A text that ends in a dollar before an interpolation, and in a backslash before another one. -/
def edgedText : String :=
  "`$\x7b\n$\x7b\x7bhome.count[\"\x7d`\"]\x7d\x7d\\\x7b\x7b+\x7d\x7d"

def edgedPieces : List Piece :=
  "`$\x7b\n$".toList.map .character ++ [.code "count[\"\x7d`\"]".toList, .character '\\',
    .code placeholder.toList]

theorem literal_text_reads_sample :
    ∃ page, countingPage.get? "p" = some page ∧
      formatOf (Template.read edgedText) none = .literal ∧
      read? ((of countingPage page Catalog.builtin.schema).templateCode
        (PageNames.ofView (of countingPage page Catalog.builtin.schema) Scope.root)
          edgedText none).toList = some (edgedPieces, []) := by
  have pieces : ∀ page ∈ countingPage.get? "p",
      (Template.read edgedText).parts.flatMap
        ((of countingPage page Catalog.builtin.schema).literalPieces
          (PageNames.ofView (of countingPage page Catalog.builtin.schema) Scope.root)) =
        edgedPieces := by decide +kernel
  have literal : formatOf (Template.read edgedText) none = .literal := by decide +kernel
  have present : (countingPage.get? "p").isSome = true := by decide +kernel
  obtain ⟨page, found⟩ := Option.isSome_iff_exists.1 present
  refine ⟨page, found, literal, ?_⟩
  rw [← pieces page found]
  exact (literal_text_reads _ _ literal).1

end PageView
end PageBuilder
