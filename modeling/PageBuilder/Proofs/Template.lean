import PageBuilder.Proofs.Reference
import PageBuilder.Template
import Mathlib.Data.List.Infix

/-!
Interpolations and references. A template looks for doubled braces before it looks at quotes, so a
reference between doubled braces is read as one unless a quoted key of it holds them; then the text
up to these braces is an interpolation that cannot be read.
-/

namespace PageBuilder
namespace Template

section Doubled

variable {mark : Char}

def Doubled (mark : Char) (chars : List Char) : Prop := [mark, mark] <:+: chars

instance (mark : Char) (chars : List Char) : Decidable (Doubled mark chars) :=
  inferInstanceAs (Decidable (_ <:+: _))

theorem doubled_cons {first : Char} {rest : List Char} :
    Doubled mark (first :: rest) ↔ first = mark ∧ rest.head? = some mark ∨ Doubled mark rest := by
  have starts : [mark] <+: rest ↔ rest.head? = some mark := by
    cases rest with
    | nil => simp
    | cons second rest => simp [List.cons_prefix_cons, eq_comm]
  rw [Doubled, List.infix_cons_iff, List.cons_prefix_cons, starts, eq_comm, Doubled]

theorem doubled_concat {front : List Char} :
    Doubled mark (front ++ [mark]) ↔ front.getLast? = some mark ∨ Doubled mark front := by
  have backwards (chars : List Char) : Doubled mark chars ↔ Doubled mark chars.reverse := by
    rw [Doubled, Doubled, ← List.reverse_infix]
    rfl
  rw [backwards, List.reverse_append, List.reverse_singleton, List.singleton_append, doubled_cons,
    ← backwards, List.getLast?_eq_head?_reverse]
  simp

theorem cut_cons (first : Char) (rest : List Char) :
    cut mark (first :: rest) =
      if first = mark ∧ rest.head? = some mark then some ([], rest.tail)
      else (cut mark rest).map fun found => (first :: found.1, found.2) := by
  cases rest with
  | nil => simp [cut]
  | cons second rest => simp [cut]

theorem cut_eq_some_iff {chars before after : List Char} :
    cut mark chars = some (before, after) ↔
      chars = before ++ mark :: mark :: after ∧ ¬Doubled mark (before ++ [mark]) := by
  have heads (before : List Char) :
      (before ++ [mark]).head? = (before ++ mark :: mark :: after).head? := by
    cases before with
    | nil | cons => rfl
  induction chars generalizing before with
  | nil => simp [cut]
  | cons first rest ih =>
      rw [cut_cons]
      cases before with
      | nil =>
          have single : ¬Doubled mark [mark] := fun double => absurd double.length_le (by simp)
          by_cases here : first = mark ∧ rest.head? = some mark
          · obtain ⟨rfl, starts⟩ := here
            obtain ⟨tail, rfl⟩ := List.head?_eq_some_iff.1 starts
            simp [single]
          · rw [if_neg here]
            have other : first :: rest ≠ mark :: mark :: after := fun same =>
              here ⟨(List.cons.inj same).1, by rw [(List.cons.inj same).2]; rfl⟩
            simp [other]
      | cons second before =>
          rw [List.cons_append, List.cons_append, doubled_cons, heads]
          by_cases here : first = mark ∧ rest.head? = some mark
          · rw [if_pos here]
            refine ⟨fun same => (by cases same), ?_⟩
            rintro ⟨whole, single⟩
            obtain ⟨rfl, rfl⟩ := List.cons.inj whole
            exact absurd (Or.inl here) single
          · rw [if_neg here, Option.map_eq_some_iff]
            constructor
            · rintro ⟨⟨inner, tail⟩, found, same⟩
              cases same
              obtain ⟨rfl, single⟩ := ih.1 found
              exact ⟨rfl, fun double => double.elim here single⟩
            · rintro ⟨whole, single⟩
              obtain ⟨rfl, rfl⟩ := List.cons.inj whole
              exact ⟨(before, after), ih.2 ⟨rfl, fun later => single (Or.inr later)⟩, rfl⟩

theorem cut_eq_none_iff {chars : List Char} : cut mark chars = none ↔ ¬Doubled mark chars := by
  induction chars with
  | nil => simp [cut, Doubled]
  | cons first rest ih =>
      rw [cut_cons, doubled_cons]
      by_cases here : first = mark ∧ rest.head? = some mark
      · simp [here]
      · rw [if_neg here, Option.map_eq_none_iff, ih]
        simp [here]

end Doubled

theorem parts_nil (place : Nat) : partsAt place [] = [] := by
  rw [partsAt]
  rfl

theorem parts_of_interpolation (place : Nat) {inner : List Char}
    (single : ¬Doubled closeBrace (inner ++ [closeBrace])) (rest : List Char) :
    partsAt place (openBrace :: openBrace :: (inner ++ closeBrace :: closeBrace :: rest)) =
      interpolation place inner :: partsAt (place + 4 + PathToken.byteSize inner) rest := by
  have opened : cut openBrace
      (openBrace :: openBrace :: (inner ++ closeBrace :: closeBrace :: rest)) =
        some ([], inner ++ closeBrace :: closeBrace :: rest) := rfl
  have closed : cut closeBrace (inner ++ closeBrace :: closeBrace :: rest) = some (inner, rest) :=
    cut_eq_some_iff.2 ⟨rfl, single⟩
  rw [partsAt]
  split
  · rename_i failed
    rw [opened] at failed
    cases failed
  · rename_i before inside found
    rw [opened] at found
    cases found
    dsimp only
    split
    · rename_i failed
      rw [closed] at failed
      cases failed
    · rename_i other after found
      rw [closed] at found
      cases found
      rfl

theorem read_of_interpolation {place : Nat} {chars : List Char} {reference : Reference}
    (member : .interpolation reference ∈ partsAt place chars) :
    ∃ start inner, Reference.readAt start inner = .ok reference := by
  have unread {chars : List Char} : .interpolation reference ∉ textPart chars := by
    unfold textPart
    split <;> simp
  fun_induction partsAt place chars with
  | case1 => exact absurd member unread
  | case2 place chars before inside found start ih =>
      have behind := (List.mem_append.1 member).resolve_left unread
      split at behind
      · cases List.mem_singleton.1 behind
      · rename_i inner after closed
        rcases List.mem_cons.1 behind with here | later
        · rw [interpolation] at here
          split at here
          · rename_i read
            cases here
            exact ⟨_, _, read⟩
          · cases here
        · exact ih inner after closed later

def interpolated (text : String) : String := "\x7b\x7b" ++ text ++ "\x7d\x7d"

theorem parts_of_interpolated {text : String} {inner after : List Char}
    (whole : text.toList ++ [closeBrace, closeBrace] = inner ++ closeBrace :: closeBrace :: after)
    (single : ¬Doubled closeBrace (inner ++ [closeBrace])) :
    (read (interpolated text)).parts =
      interpolation 0 inner :: partsAt (4 + PathToken.byteSize inner) after := by
  have chars : (interpolated text).toList =
      openBrace :: openBrace :: (inner ++ closeBrace :: closeBrace :: after) := by
    rw [← whole, interpolated, String.toList_append, String.toList_append]
    rfl
  rw [read, chars, parts_of_interpolation 0 single, Nat.zero_add]

/-- What can be read as a reference is one interpolation between doubled braces, unless it has
doubled closing braces in it. Then the template ends the interpolation there, inside a quoted key,
and goes on with what is left. -/
theorem interpolated_reference {text : String} {reference : Reference}
    (said : Reference.read text = .ok reference) :
    ((read (interpolated text)).parts = [.interpolation reference] ↔
      ¬Doubled closeBrace text.toList) ∧
    ∀ before after, text.toList = before ++ closeBrace :: closeBrace :: after →
      ¬Doubled closeBrace (before ++ [closeBrace]) →
      ∃ place, (read (interpolated text)).parts =
        .invalid (openBrace :: openBrace :: before ++ [closeBrace, closeBrace])
            (.invalidToken place) ::
          partsAt (4 + PathToken.byteSize before) (after ++ [closeBrace, closeBrace]) := by
  obtain ⟨tokens, scanned⟩ := Reference.scanned_of_read said
  have cutShort : ∀ before after, text.toList = before ++ closeBrace :: closeBrace :: after →
      ¬Doubled closeBrace (before ++ [closeBrace]) →
      ∃ place, (read (interpolated text)).parts =
        .invalid (openBrace :: openBrace :: before ++ [closeBrace, closeBrace])
            (.invalidToken place) ::
          partsAt (4 + PathToken.byteSize before) (after ++ [closeBrace, closeBrace]) := by
    intro before after whole single
    obtain ⟨moved, again, _⟩ := PathToken.scan_moved scanned 2
    obtain ⟨⟨place, fails⟩, _⟩ := PathToken.scan_cut again whole
    have goesOn : text.toList ++ [closeBrace, closeBrace] =
        before ++ closeBrace :: closeBrace :: (after ++ [closeBrace, closeBrace]) := by
      simp [whole]
    refine ⟨place, ?_⟩
    rw [parts_of_interpolated goesOn single, interpolation, Reference.readAt, fails]
  refine ⟨⟨fun alone double => ?_, fun single => ?_⟩, cutShort⟩
  · cases found : cut closeBrace text.toList with
    | none => exact cut_eq_none_iff.1 found double
    | some parts =>
        obtain ⟨whole, single⟩ := cut_eq_some_iff.1 (found : cut _ _ = some (parts.1, parts.2))
        obtain ⟨place, told⟩ := cutShort _ _ whole single
        rw [alone] at told
        cases told
  · have ends : text.toList.getLast? ≠ some closeBrace := by
      intro last
      obtain ⟨front, whole⟩ := List.getLast?_eq_some_iff.1 last
      exact (PathToken.scan_cut scanned whole).2 rfl
    have alone : ¬Doubled closeBrace (text.toList ++ [closeBrace]) := by
      rw [doubled_concat, not_or]
      exact ⟨ends, single⟩
    rw [parts_of_interpolated rfl alone, parts_nil, interpolation, Reference.read_moved said]

theorem interpolated_reference_sample :
    Reference.read "rows[0][\"\x7d\"]" = .ok ⟨"rows", [.index 0, .key "\x7d"]⟩ ∧
      (read (interpolated "rows[0][\"\x7d\"]")).parts =
        [.interpolation ⟨"rows", [.index 0, .key "\x7d"]⟩] ∧
      Reference.read "a[\"\x7d\x7d\"]" = .ok ⟨"a", [.key "\x7d\x7d"]⟩ ∧
      ∃ place, (read (interpolated "a[\"\x7d\x7d\"]")).parts =
        .invalid (openBrace :: openBrace :: "a[\"".toList ++ [closeBrace, closeBrace])
            (.invalidToken place) ::
          partsAt (4 + PathToken.byteSize "a[\"".toList)
            ("\"]".toList ++ [closeBrace, closeBrace]) := by
  have kept : Reference.read "rows[0][\"\x7d\"]" = .ok ⟨"rows", [.index 0, .key "\x7d"]⟩ := by
    decide +kernel
  have ended : Reference.read "a[\"\x7d\x7d\"]" = .ok ⟨"a", [.key "\x7d\x7d"]⟩ := by
    decide +kernel
  refine ⟨kept, (interpolated_reference kept).1.2 (by decide +kernel), ended, ?_⟩
  exact (interpolated_reference ended).2 "a[\"".toList "\"]".toList (by decide +kernel)
    (by decide +kernel)

/-- A quoted key of a reference can end the interpolation that the reference stands in. -/
theorem key_ends_interpolation :
    ¬∀ (text : String) (reference : Reference), Reference.read text = .ok reference →
      (read (interpolated text)).parts = [.interpolation reference] := by
  intro always
  have said : Reference.read "a[\"\x7d\x7d\"]" = .ok ⟨"a", [.key "\x7d\x7d"]⟩ := by
    decide +kernel
  have alone := always _ _ said
  have two : (read (interpolated "a[\"\x7d\x7d\"]")).parts.length = 2 := by decide +kernel
  rw [alone] at two
  cases two

end Template
end PageBuilder
