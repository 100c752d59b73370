import PageBuilder.Reference.Basic

/-!
Templates: texts with interpolations between doubled braces. What an interpolation says is a
reference; one that says none stays in the template with what is wrong about it.
-/

namespace PageBuilder

inductive TemplatePart where
  | text (chars : List Char)
  | interpolation (reference : Reference)
  | invalid (written : List Char) (fault : ReferenceFault)
  deriving DecidableEq

structure Template where
  parts : List TemplatePart
  deriving DecidableEq

namespace Template

def openBrace : Char := '\x7b'

def closeBrace : Char := '\x7d'

def cut (mark : Char) : List Char → Option (List Char × List Char)
  | first :: second :: rest =>
      if first = mark && second = mark then some ([], rest)
      else (cut mark (second :: rest)).map fun found => (first :: found.1, found.2)
  | _ => none

theorem cut_written {mark : Char} {chars before after : List Char}
    (found : cut mark chars = some (before, after)) :
    before ++ mark :: mark :: after = chars := by
  fun_induction cut mark chars generalizing before after with
  | case1 first second rest same =>
      cases found
      simp_all
  | case2 first second rest _ ih =>
      obtain ⟨⟨inner, tail⟩, later, same⟩ := Option.map_eq_some_iff.1 found
      cases same
      simp [ih later]
  | case3 => simp at found

theorem cut_rest_lt {mark : Char} {chars before after : List Char}
    (found : cut mark chars = some (before, after)) : after.length < chars.length := by
  have whole := congrArg List.length (cut_written found)
  simp at whole
  omega

def textPart (chars : List Char) : List TemplatePart :=
  if chars.isEmpty then [] else [.text chars]

def interpolation (place : Nat) (inner : List Char) : TemplatePart :=
  match Reference.readAt (place + 2) inner with
  | .ok reference => .interpolation reference
  | .error fault =>
      .invalid (openBrace :: openBrace :: inner ++ [closeBrace, closeBrace]) fault

/-- The first doubled opening brace opens, and the first doubled closing brace after it closes,
wherever it stands. -/
def partsAt (place : Nat) (chars : List Char) : List TemplatePart :=
  match _opened : cut openBrace chars with
  | none => textPart chars
  | some (before, inside) =>
      let start := place + PathToken.byteSize before
      textPart before ++
        match _closed : cut closeBrace inside with
        | none => [.invalid (openBrace :: openBrace :: inside) (.unclosed start)]
        | some (inner, after) =>
            interpolation start inner
              :: partsAt (start + 4 + PathToken.byteSize inner) after
termination_by chars.length
decreasing_by
  exact Nat.lt_trans (cut_rest_lt _closed) (cut_rest_lt _opened)

def read (text : String) : Template := ⟨partsAt 0 text.toList⟩

/-- One interpolation and nothing else, be it valid or not. -/
def isSingle (template : Template) : Bool :=
  match template.parts with
  | [.interpolation _] => true
  | [.invalid _ _] => true
  | _ => false

def references (template : Template) : List Reference :=
  template.parts.filterMap fun part =>
    match part with
    | .interpolation reference => some reference
    | _ => none

def faults (template : Template) : List ReferenceFault :=
  template.parts.filterMap fun part =>
    match part with
    | .invalid _ fault => some fault
    | _ => none

end Template

end PageBuilder
