import PageBuilder.Proofs.Code.Flat
import PageBuilder.Proofs.Code.Literals
import PageBuilder.Proofs.Reference.Displayed

/-!
Texts between backticks as the language reads them, from left to right: a backslash hides the
character behind it, `${` opens code that goes on to the brace which closes it, and a backtick ends
the text. Code that lexes back to where it started is read as it is.
-/

namespace PageBuilder.Code
namespace TemplateLiteral

/-- What stands between backticks: characters of the text, and the code of substitutions. -/
inductive Piece where
  | character (char : Char)
  | code (chars : List Char)
  deriving DecidableEq

/-- The character that a backslash makes of the one behind it. Escapes by number and hidden ends of
lines are not read. -/
def cooked? (char : Char) : Option Char :=
  if char = 'n' then some '\n'
  else if char = 'r' then some '\r'
  else if char = 't' then some '\t'
  else if char = 'b' then some '\x08'
  else if char = 'f' then some '\x0c'
  else if char = 'v' then some '\x0b'
  else if char = 'x' || char = 'u' || Identifier.isDigit char || Lexing.endsLine char then none
  else some char

/-- The code up to the brace that closes the last open substitution, and what stands behind it. -/
def substitution? (lexing : Lexing) : List Char → Option (List Char × List Char)
  | [] => none
  | char :: rest =>
      if (lexing.step char).braces = [] then some ([], rest)
      else (substitution? (lexing.step char) rest).map fun read => (char :: read.1, read.2)

def opened : Lexing := ⟨.code, [0]⟩

theorem substitution_rest_lt {lexing : Lexing} {chars code rest : List Char}
    (read : substitution? lexing chars = some (code, rest)) : rest.length < chars.length := by
  fun_induction substitution? lexing chars generalizing code rest with
  | case1 => cases read
  | case2 lexing char rest =>
      cases read
      exact Nat.lt_succ_self _
  | case3 lexing char rest _ ih =>
      obtain ⟨inner, found, same⟩ := Option.map_eq_some_iff.1 read
      cases same
      exact Nat.lt_succ_of_lt (ih found)

/-- Reads what stands behind the opening backtick: the pieces, and what follows the closing one. A
raw carriage return is taken as it is, where the language makes a line feed of it. -/
def readBehind? : List Char → Option (List Piece × List Char)
  | [] => none
  | '`' :: rest => some ([], rest)
  | ['\\'] => none
  | '\\' :: char :: rest =>
      match cooked? char with
      | none => none
      | some cooked => (readBehind? rest).map fun read => (.character cooked :: read.1, read.2)
  | '$' :: '\x7b' :: rest =>
      match _read : substitution? opened rest with
      | none => none
      | some (code, after) => (readBehind? after).map fun read => (.code code :: read.1, read.2)
  | char :: rest => (readBehind? rest).map fun read => (.character char :: read.1, read.2)
termination_by chars => chars.length
decreasing_by
  · exact Nat.lt_add_of_pos_right (by decide : 0 < 2)
  · exact Nat.lt_of_lt_of_le (substitution_rest_lt _read) (Nat.le_add_right _ 2)
  · exact Nat.lt_succ_self _

def read? : List Char → Option (List Piece × List Char)
  | '`' :: rest => readBehind? rest
  | _ => none

section Reading

variable {char : Char} {rest : List Char}

theorem read_tick : readBehind? ('`' :: rest) = some ([], rest) := by
  rw [readBehind?]

theorem read_escape {cooked : Char} (told : cooked? char = some cooked) :
    readBehind? ('\\' :: char :: rest) =
      (readBehind? rest).map fun read => (.character cooked :: read.1, read.2) := by
  rw [readBehind?, told]

theorem read_substitution {code after : List Char}
    (closed : substitution? opened rest = some (code, after)) :
    readBehind? ('$' :: '\x7b' :: rest) =
      (readBehind? after).map fun read => (.code code :: read.1, read.2) := by
  rw [readBehind?]
  split
  · rename_i failed
    rw [closed] at failed
    cases failed
  · rename_i found
    rw [closed] at found
    cases found
    rfl

theorem read_plain (tick : char ≠ '`') (slash : char ≠ '\\')
    (opens : char = '$' → rest.head? ≠ some '\x7b') :
    readBehind? (char :: rest) =
      (readBehind? rest).map fun read => (.character char :: read.1, read.2) := by
  rw [readBehind?]
  · exact tick
  · exact fun same _ => slash same
  · exact fun _ _ same _ => slash same
  · intro more dollar behind
    apply opens dollar
    rw [behind]
    rfl

end Reading

/-- What the layout passes over in code, the language does. -/
theorem step_neutral {char : Char} (neutral : Layout.isNeutral char = true) (braces : List Nat) :
    Lexing.step ⟨.code, braces⟩ char = ⟨.code, braces⟩ := by
  have other {mark : Char} (outside : Layout.isNeutral mark = false) : char ≠ mark := by
    rintro rfl
    rw [neutral] at outside
    cases outside
  have quote : Layout.isQuote char = false := by
    simp [Layout.isQuote, @other '"' (by decide), @other '\'' (by decide)]
  simp [Lexing.step, Lexing.ofCode, quote, @other '`' (by decide), @other '/' (by decide),
    @other '\x7b' (by decide), @other '\x7d' (by decide)]

/-- Lexing passes over the text from one place to another, and no brace of it closes the
substitution. -/
def Passes (first : Lexing) (chars : List Char) (last : Lexing) : Prop :=
  ∀ rest, substitution? first (chars ++ rest) =
    (substitution? last rest).map fun read => (chars ++ read.1, read.2)

theorem passes_nil (lexing : Lexing) : Passes lexing [] lexing := by
  intro rest
  cases read : substitution? lexing rest with
  | none => simp [read]
  | some => simp [read]

theorem Passes.append {first middle last : Lexing} {front back : List Char}
    (one : Passes first front middle) (two : Passes middle back last) :
    Passes first (front ++ back) last := by
  intro rest
  rw [List.append_assoc, one, two, Option.map_map]
  cases substitution? last rest with
  | none => rfl
  | some read => simp

theorem passes_step {lexing next : Lexing} {char : Char} (step : lexing.step char = next)
    (within : next.braces ≠ []) : Passes lexing [char] next := by
  intro rest
  rw [List.singleton_append, substitution?, step, if_neg within]
  rfl

theorem passes_flat_map {Item : Type} {lexing : Lexing} {items : List Item}
    {written : Item → List Char} (each : ∀ item ∈ items, Passes lexing (written item) lexing) :
    Passes lexing (items.flatMap written) lexing := by
  induction items with
  | nil => exact passes_nil lexing
  | cons item rest ih =>
      have later := ih fun other member => each other (List.mem_cons_of_mem _ member)
      exact (each item List.mem_cons_self).append later

theorem passes_neutral {chars : List Char} (neutral : Layout.Neutral chars) :
    Passes opened chars opened := by
  have each := passes_flat_map fun char member =>
    passes_step (step_neutral (neutral char member) [0]) (List.cons_ne_nil 0 [])
  rwa [List.flatMap_singleton'] at each

def quoted : Lexing := ⟨.string true false, [0]⟩

theorem passes_hidden (next : Char) : Passes quoted ['\\', next] quoted := by
  have hides : Passes quoted ['\\'] ⟨.string true true, [0]⟩ := passes_step rfl (by decide)
  have hidden : Passes ⟨.string true true, [0]⟩ [next] quoted := passes_step rfl (by decide)
  exact hides.append hidden

theorem passes_quoted {char : Char} (inside : char ≠ '"') (literal : char ≠ '\\') :
    Passes quoted [char] quoted := by
  apply passes_step _ (by decide)
  simp [quoted, Lexing.step, inside, literal]

theorem passes_hex {value : Nat} (small : value < 16) :
    Passes quoted [Text.hexDigit value] quoted := by
  obtain ⟨neutral, literal⟩ := Layout.hex_plain value small
  apply passes_quoted _ literal
  intro quote
  rw [quote] at neutral
  cases neutral

theorem passes_escaped (char : Char) : Passes quoted (JsonTree.escapedChar char) quoted := by
  unfold JsonTree.escapedChar
  split_ifs with quote slash back page feed carriage tab control
  · exact passes_hidden _
  · exact passes_hidden _
  · exact passes_hidden _
  · exact passes_hidden _
  · exact passes_hidden _
  · exact passes_hidden _
  · exact passes_hidden _
  · have zero : Passes quoted ['0'] quoted := passes_step rfl (by decide)
    have high := passes_hex (by omega : char.toNat / 16 < 16)
    have low := passes_hex (by omega : char.toNat % 16 < 16)
    exact (passes_hidden 'u').append (zero.append (zero.append (high.append low)))
  · exact passes_quoted quote slash

theorem passes_string (word : String) : Passes opened (Json.stringText word).toList opened := by
  have enter : Passes opened ['"'] quoted := passes_step rfl (by decide)
  have leave : Passes quoted ['"'] opened := passes_step rfl (by decide)
  have held : Passes quoted (word.toList.flatMap JsonTree.escapedChar) quoted :=
    passes_flat_map fun char _ => passes_escaped char
  rw [Json.stringText, String.toList_ofList, Layout.string_enclosed]
  exact enter.append (held.append leave)

theorem passes_closed : PathSegment.Closed fun chars => Passes opened chars opened where
  nil := passes_nil opened
  append := Passes.append
  dot := passes_step rfl (by decide)
  enclosed := by
    intro inner passes
    have opening : Passes opened ['['] opened := passes_step rfl (by decide)
    have closing : Passes opened [']'] opened := passes_step rfl (by decide)
    exact opening.append (passes.append closing)
  name := fun valid => passes_neutral (Layout.neutral_identifier valid)
  number := fun number => passes_neutral (Layout.neutral_nat number)

theorem read_code {code : List Char} (passes : Passes opened code opened) (rest : List Char) :
    readBehind? ('$' :: '\x7b' :: (code ++ '\x7d' :: rest)) =
      (readBehind? rest).map fun read => (.code code :: read.1, read.2) := by
  have closes : substitution? opened ('\x7d' :: rest) = some ([], rest) := rfl
  apply read_substitution
  rw [passes, closes, Option.map_some, List.append_nil]

end TemplateLiteral
end PageBuilder.Code
