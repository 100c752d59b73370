import PageBuilder.Identifier
import PageBuilder.Text.Quoted

/-!
The tokens of a reference path such as `users.data[0]["first name"]`, and the places where they
stand. Places count the bytes of the encoded text. Blanks between tokens are passed over, and a
token is as long as it can be.
-/

namespace PageBuilder

inductive PathToken where
  | name (text : String)
  | number (value : Nat)
  | text (value : String)
  | dot
  | opening
  | closing
  deriving DecidableEq

namespace PathToken

def describe : PathToken → String
  | .name word => s!"identifier `{word}`"
  | .number value => s!"number {value}"
  | .text value => s!"string {Text.quoted value}"
  | .dot => "`.`"
  | .opening => "`[`"
  | .closing => "`]`"

structure Placed where
  token : PathToken
  place : Nat
  deriving DecidableEq

/-- A token with the characters it is written in and those after it. -/
structure Lexeme where
  token : PathToken
  written : List Char
  rest : List Char

def byteSize (chars : List Char) : Nat := chars.foldl (fun size char => size + char.utf8Size) 0

def isSpace (char : Char) : Bool := char = ' ' || char = '\t' || char = '\r' || char = '\n'

def isQuote (char : Char) : Bool := char = '"' || char = '\''

/-- A backslash makes a line feed of `n`, a tab of `t`, and of any other character that
character. -/
def unescape (char : Char) : Char :=
  if char = 'n' then '\n' else if char = 't' then '\t' else char

/-- The body of a quoted text with its closing quote. Only a line feed cannot be escaped. -/
structure QuotedBody where
  value : List Char
  written : List Char
  rest : List Char

def quotedBody? (quote : Char) : List Char → Option QuotedBody
  | [] => none
  | '\\' :: char :: rest =>
      if char = '\n' then none
      else (quotedBody? quote rest).map fun body =>
        ⟨unescape char :: body.value, '\\' :: char :: body.written, body.rest⟩
  | char :: rest =>
      if char = quote then some ⟨[], [char], rest⟩
      else if char = '\\' then none
      else (quotedBody? quote rest).map fun body =>
        ⟨char :: body.value, char :: body.written, body.rest⟩

def numberValue (digits : List Char) : Nat :=
  digits.foldl (fun sum char => 10 * sum + (char.toNat - 48)) 0

def nameLexeme (first : Char) (rest : List Char) : Lexeme :=
  let written := first :: rest.takeWhile Identifier.isPart
  ⟨.name (String.ofList written), written, rest.dropWhile Identifier.isPart⟩

/-- Numbers have 64 bits. -/
def numberLexeme? (first : Char) (rest : List Char) : Option Lexeme :=
  let written := first :: rest.takeWhile Identifier.isDigit
  if numberValue written < 0x10000000000000000 then
    some ⟨.number (numberValue written), written, rest.dropWhile Identifier.isDigit⟩
  else none

def textLexeme? (quote : Char) (rest : List Char) : Option Lexeme :=
  (quotedBody? quote rest).map fun body =>
    ⟨.text (String.ofList body.value), quote :: body.written, body.rest⟩

def lexeme? (first : Char) (rest : List Char) : Option Lexeme :=
  if Identifier.isStart first then some (nameLexeme first rest)
  else if Identifier.isDigit first then numberLexeme? first rest
  else if isQuote first then textLexeme? first rest
  else if first = '.' then some ⟨.dot, [first], rest⟩
  else if first = '[' then some ⟨.opening, [first], rest⟩
  else if first = ']' then some ⟨.closing, [first], rest⟩
  else none

theorem quoted_body_written {quote : Char} {chars : List Char} {body : QuotedBody}
    (read : quotedBody? quote chars = some body) : body.written ++ body.rest = chars := by
  fun_induction quotedBody? quote chars generalizing body with
  | case1 => simp at read
  | case2 => simp at read
  | case3 char rest _ ih =>
      obtain ⟨inner, found, rfl⟩ := Option.map_eq_some_iff.1 read
      simp [ih found]
  | case4 char rest => cases read; rfl
  | case5 => simp at read
  | case6 char rest _ _ _ ih =>
      obtain ⟨inner, found, rfl⟩ := Option.map_eq_some_iff.1 read
      simp [ih found]

theorem number_lexeme_written {first : Char} {rest : List Char} {lexeme : Lexeme}
    (read : numberLexeme? first rest = some lexeme) :
    lexeme.written ++ lexeme.rest = first :: rest := by
  simp only [numberLexeme?] at read
  split at read
  · cases read
    simp
  · cases read

/-- Nothing is lost between a token and what follows it. -/
theorem lexeme_written {first : Char} {rest : List Char} {lexeme : Lexeme}
    (read : lexeme? first rest = some lexeme) :
    lexeme.written ++ lexeme.rest = first :: rest := by
  simp only [lexeme?] at read
  repeat' split at read
  · cases read
    simp [nameLexeme]
  · exact number_lexeme_written read
  · obtain ⟨body, found, rfl⟩ := Option.map_eq_some_iff.1 read
    simp [quoted_body_written found]
  all_goals cases read
  all_goals rfl

theorem lexeme_rest_le {first : Char} {rest : List Char} {lexeme : Lexeme}
    (read : lexeme? first rest = some lexeme) : lexeme.rest.length ≤ rest.length := by
  simp only [lexeme?] at read
  repeat' split at read
  · cases read
    exact (List.dropWhile_sublist _).length_le
  · simp only [numberLexeme?] at read
    split at read
    · cases read
      exact (List.dropWhile_sublist _).length_le
    · cases read
  · obtain ⟨body, found, rfl⟩ := Option.map_eq_some_iff.1 read
    have whole := congrArg List.length (quoted_body_written found)
    simp only [List.length_append] at whole ⊢
    omega
  all_goals cases read
  all_goals simp

def scan (place : Nat) : List Char → Except Nat (List Placed)
  | [] => .ok []
  | char :: rest =>
      if isSpace char then scan (place + char.utf8Size) rest
      else
        match _read : lexeme? char rest with
        | none => .error place
        | some lexeme =>
            match scan (place + byteSize lexeme.written) lexeme.rest with
            | .ok tokens => .ok (⟨lexeme.token, place⟩ :: tokens)
            | .error fault => .error fault
termination_by chars => chars.length
decreasing_by
  · simp
  · exact Nat.lt_succ_of_le (lexeme_rest_le _read)

end PathToken

end PageBuilder
