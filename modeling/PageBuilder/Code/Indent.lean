import PageBuilder.Text.Lines

/-!
Indented code. One level is two blanks; an empty line stays empty.
-/

namespace PageBuilder.Code

def indentation (level : Nat) : List Char := List.replicate (2 * level) ' '

def indentLine (level : Nat) (line : List Char) : List Char :=
  if line.isEmpty then [] else indentation level ++ line

def indentLines (level : Nat) (text : String) : String :=
  String.ofList (Text.joinLines ((Text.lines text.toList).map (indentLine level)))

/-- Code as it is written, and the level that lines are added at. -/
structure Writer where
  text : String
  level : Nat

namespace Writer

def empty : Writer := ⟨"", 0⟩

def add (writer : Writer) (text : String) : Writer :=
  { writer with text := writer.text ++ text }

/-- Only the first line of the text is indented. -/
def addIndented (writer : Writer) (text : String) : Writer :=
  (writer.add (String.ofList (indentation writer.level))).add text

def addLine (writer : Writer) (text : String) : Writer := (writer.addIndented text).add "\n"

def addLines (writer : Writer) (text : String) : Writer :=
  writer.add (indentLines writer.level text)

def indent (writer : Writer) : Writer := { writer with level := writer.level + 1 }

def dedent (writer : Writer) : Writer := { writer with level := writer.level - 1 }

end Writer

end PageBuilder.Code
