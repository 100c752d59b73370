/-!
Identifiers of generated code, and the words that the generated language keeps for itself.
-/

namespace PageBuilder.Identifier

def isLetter (char : Char) : Bool :=
  ('a' ≤ char && char ≤ 'z') || ('A' ≤ char && char ≤ 'Z')

def isDigit (char : Char) : Bool := '0' ≤ char && char ≤ '9'

def isStart (char : Char) : Bool := isLetter char || char = '_' || char = '$'

def isPart (char : Char) : Bool := isStart char || isDigit char

def isValid (text : String) : Bool :=
  match text.toList with
  | [] => false
  | first :: rest => isStart first && rest.all isPart

def reservedWords : List String :=
  ["arguments", "await", "break", "case", "catch", "class", "const", "continue", "debugger",
    "default", "delete", "do", "else", "enum", "eval", "export", "extends", "false", "finally",
    "for", "function", "if", "implements", "import", "in", "instanceof", "interface", "let",
    "new", "null", "package", "private", "protected", "public", "return", "static", "super",
    "switch", "this", "throw", "true", "try", "typeof", "undefined", "var", "void", "while",
    "with", "yield"]

def isReserved (name : String) : Bool := reservedWords.contains name

def ofChars (chars : List Char) : List Char :=
  match chars.map fun char => if isPart char then char else '_' with
  | [] => ['_']
  | first :: rest => if isDigit first then '_' :: first :: rest else first :: rest

/-- Characters that no identifier holds become underscores; a leading digit gets one in front. -/
def ofText (text : String) : String := String.ofList (ofChars text.toList)

theorem is_valid_of_text (text : String) : isValid (ofText text) := by
  have part (char : Char) : isPart (if isPart char then char else '_') := by
    split
    · assumption
    · decide
  cases shape : text.toList.map fun char => if isPart char then char else '_' with
  | nil => simp [ofText, ofChars, shape, isValid, isStart]
  | cons first rest =>
      have parts : ∀ char ∈ first :: rest, isPart char := by
        intro char member
        rw [← shape, List.mem_map] at member
        obtain ⟨source, _, rfl⟩ := member
        exact part source
      have tail : rest.all isPart := List.all_eq_true.2 fun char member =>
        parts char (List.mem_cons_of_mem _ member)
      by_cases digit : isDigit first
      · have head : isPart first := parts first List.mem_cons_self
        simp [ofText, ofChars, shape, isValid, digit, isStart, head, tail]
      · have head : isStart first := by
          simpa [isPart, digit] using parts first List.mem_cons_self
        simp [ofText, ofChars, shape, isValid, digit, head, tail]

end PageBuilder.Identifier
