import PageBuilder.Proofs.Code.Laid
import PageBuilder.Proofs.Code.Declaration
import PageBuilder.Proofs.ImportTable.Statements

/-!
Import statements are lines that the layout leaves as they are, whatever the names of the modules.
What is taken from a module has to have an identifier for a name, since it is written as it is.
-/

namespace PageBuilder

namespace Code.Layout

theorem hex_text_plain (value : Nat) :
    Neutral (Text.hexText value) ∧ '\\' ∉ Text.hexText value := by
  fun_induction Text.hexText value with
  | case1 value small =>
      obtain ⟨neutral, plain⟩ := hex_plain value small
      exact ⟨by simpa [Neutral] using neutral, by simpa using plain.symm⟩
  | case2 value large ih =>
      obtain ⟨neutral, plain⟩ := hex_plain (value % 16) (by omega)
      refine ⟨ih.1.append (by simpa [Neutral] using neutral), ?_⟩
      simpa [ih.2] using plain.symm

theorem quoted_char_held (char : Char) :
    Keeps (.quoted '"' false) (Text.quotedChar char) ∧ '\n' ∉ Text.quotedChar char := by
  have holds := quoted_holds (by decide : isQuote '"' = true)
  unfold Text.quotedChar
  split_ifs with quote slash tab feed carriage zero shown
  · exact ⟨holds.escape (by decide), by decide⟩
  · exact ⟨holds.escape (by decide), by decide⟩
  · exact ⟨holds.escape (by decide), by decide⟩
  · exact ⟨holds.escape (by decide), by decide⟩
  · exact ⟨holds.escape (by decide), by decide⟩
  · exact ⟨holds.escape (by decide), by decide⟩
  · exact ⟨holds.plain feed slash quote, by simpa using Ne.symm feed⟩
  · obtain ⟨neutral, plain⟩ := hex_text_plain char.toNat
    have opened : Keeps (.quoted '"' false) (['\\', 'u'] ++ ['\x7b']) :=
      (holds.escape (by decide)).append (holds.plain (by decide) (by decide) (by decide))
    have closed : Keeps (.quoted '"' false) ['\x7d'] :=
      holds.plain (by decide) (by decide) (by decide)
    refine ⟨(opened.append (holds.keeps_neutral neutral plain)).append closed, ?_⟩
    have unbroken : '\n' ∉ Text.hexText char.toNat := fun feed =>
      absurd (neutral _ feed) (by decide)
    simpa using unbroken

theorem flat_quoted (text : String) : Flat (Text.quoted text).toList := by
  have unbroken : '\n' ∉ text.toList.flatMap Text.quotedChar := by
    rw [List.mem_flatMap]
    rintro ⟨char, _, feed⟩
    exact (quoted_char_held char).2 feed
  rw [Text.quoted, String.toList_ofList]
  refine ⟨by simpa using unbroken, fun movement => ?_⟩
  have opened : Reading.step ⟨.code, movement⟩ '"' = some ⟨.quoted '"' false, movement⟩ := rfl
  have held : Keeps (.quoted '"' false) (text.toList.flatMap Text.quotedChar) :=
    keeps_flat_map fun char _ => (quoted_char_held char).1
  rw [List.cons_append, Reading.run_cons, opened, Option.bind_some, Reading.run_append, held]
  rfl

end Code.Layout

/-- What is taken from a module has an identifier for a name. -/
def Import.Named : Import → Prop
  | .named _ name => Identifier.isValid name = true
  | .whole _ => True

namespace ImportTable

open Code.Layout

namespace Statement

theorem flat_specifier {entry : String × String}
    (valid : Identifier.isValid entry.1 = true ∧ Identifier.isValid entry.2 = true) :
    Flat (ModuleImports.specifier entry).toList := by
  have first := flat_identifier valid.1
  unfold ModuleImports.specifier
  split
  · exact first
  · have between : Flat " as ".toList := flat_of_neutral (by decide)
    have whole := first.append (between.append (flat_identifier valid.2))
    simpa [ToString.toString] using whole

theorem ends_statement {word : String} {first : Char} (start : word.toList.head? = some first)
    (visible : Text.isBlank first = false) (middle : String) :
    Ends first ';' (word ++ middle ++ ";").toList := by
  refine ⟨?_, ?_, visible, by decide⟩
  · rw [String.toList_append, String.toList_append, List.append_assoc, List.head?_append, start]
    rfl
  · rw [String.toList_append]
    exact List.getLast?_concat

theorem laid (statement : Statement)
    (named : ∀ entry ∈ statement.imports, entry.1.Named ∧ Identifier.isValid entry.2 = true) :
    Laid 0 0 statement.text := by
  have line {middle : String} (flat : Flat middle.toList)
      (same : statement.text = "import " ++ middle ++ ";" ++ "\n") : Laid 0 0 statement.text := by
    have word : Flat "import ".toList := flat_of_neutral (by decide)
    have final : Flat ";".toList := flat_of_neutral (by decide)
    have whole : Flat ("import " ++ middle ++ ";").toList := by
      rw [String.toList_append, String.toList_append]
      exact (word.append flat).append final
    have ends : Ends 'i' ';' ("import " ++ middle ++ ";").toList :=
      ends_statement rfl (by decide) middle
    rw [same]
    exact Laid.outer (ends.code (by decide) whole.unbroken whole.leads (Nat.zero_le 1))
  have source (name : String) : Flat (" from " ++ Text.quoted name).toList := by
    rw [String.toList_append]
    exact (flat_of_neutral (by decide)).append (flat_quoted name)
  cases statement with
  | whole path localName =>
      have valid := (named _ (List.mem_singleton_self _)).2
      have star : Flat "* as ".toList := flat_of_neutral (by decide)
      refine @line ("* as " ++ localName ++ (" from " ++ Text.quoted path)) ?_ ?_
      · rw [String.toList_append, String.toList_append]
        exact (star.append (flat_identifier valid)).append (source path)
      · apply String.toList_injective
        simp [text, ToString.toString]
  | named path specifiers =>
      have each : ∀ piece ∈ specifiers.map ModuleImports.specifier, Flat piece.toList := by
        intro piece member
        obtain ⟨entry, listed, rfl⟩ := List.mem_map.1 member
        exact flat_specifier (named _ (List.mem_map.2 ⟨entry, listed, rfl⟩))
      refine @line
        ("\x7b " ++ ", ".intercalate (specifiers.map ModuleImports.specifier) ++ " \x7d" ++
          (" from " ++ Text.quoted path)) ?_ ?_
      · rw [String.toList_append]
        exact (Code.flat_braces each).append (source path)
      · apply String.toList_injective
        simp [text, ToString.toString]

end Statement

theorem laid_render {table : ImportTable}
    (named : ∀ imported localName, table.alias? imported = some localName →
      imported.Named ∧ Identifier.isValid localName = true) : Laid 0 0 table.render := by
  have written := table.written
  rw [written.text]
  apply Laid.join
  intro text member
  obtain ⟨statement, listed, rfl⟩ := List.mem_map.1 member
  refine statement.laid fun entry inside => ?_
  exact named _ _ ((written.listed _ _).1 (List.mem_flatMap.2 ⟨statement, listed, inside⟩))

end ImportTable

end PageBuilder
