import PageBuilder.Code.Layout
import PageBuilder.Proofs.Code.Indent
import PageBuilder.Proofs.Outcome

/-!
Texts that differ in some pieces only. Where the pieces stand on one line between quotes, and hold
nothing that layout counts, the texts are laid out alike and differ in these pieces again.
-/

namespace PageBuilder

theorem Text.split_lines_unbroken {piece : List Char} (unbroken : '\n' ∉ piece)
    (pending rest : List Char) :
    splitLines pending (piece ++ rest) = splitLines (piece.reverse ++ pending) rest := by
  induction piece generalizing pending with
  | nil => rfl
  | cons char piece ih =>
      have other : char ≠ '\n' := fun same => unbroken (same ▸ List.mem_cons_self)
      have later := ih (fun member => unbroken (List.mem_cons_of_mem _ member)) (char :: pending)
      rw [List.cons_append, splitLines, if_neg other, later, List.reverse_cons, List.append_assoc]
      rfl

namespace Code

open Text (Solid dropReturn splitLines trim trimStart trimEnd isBlank)

/-- `swap` tells which pieces may stand for each other. -/
inductive Swapped (swap : List Char → List Char → Prop) : List Char → List Char → Prop
  | nil : Swapped swap [] []
  | char (char : Char) {left right : List Char} :
      Swapped swap left right → Swapped swap (char :: left) (char :: right)
  | piece {before after left right : List Char} :
      swap before after → Swapped swap left right →
        Swapped swap (before ++ left) (after ++ right)

namespace Swapped

variable {swap other : List Char → List Char → Prop} {left right : List Char}

theorem refl (text : List Char) : Swapped swap text text := by
  induction text with
  | nil => exact .nil
  | cons char text ih => exact .char char ih

theorem append (swapped : Swapped swap left right) {more further : List Char}
    (rest : Swapped swap more further) : Swapped swap (left ++ more) (right ++ further) := by
  induction swapped with
  | nil => exact rest
  | char char _ ih => exact .char char ih
  | piece pieces _ ih =>
      rw [List.append_assoc, List.append_assoc]
      exact .piece pieces ih

theorem of_piece (pieces : swap left right) : Swapped swap left right := by
  have alone := Swapped.piece pieces .nil
  rw [List.append_nil, List.append_nil] at alone
  exact alone

theorem within (inner : ∀ {before after}, swap before after → Swapped other before after)
    (swapped : Swapped swap left right) : Swapped other left right := by
  induction swapped with
  | nil => exact .nil
  | char char _ ih => exact .char char ih
  | piece pieces _ ih => exact (inner pieces).append ih

/-- A text with none of the pieces stays as it is. -/
theorem eq_of_absent (swapped : Swapped swap left right)
    (absent : ∀ before after, swap before after → ¬before <:+: left) : left = right := by
  induction swapped with
  | nil => rfl
  | char char _ ih =>
      rw [ih fun before after pieces inside =>
        absent before after pieces (inside.trans (List.suffix_cons _ _).isInfix)]
  | piece pieces _ _ => exact absurd (List.prefix_append _ _).isInfix (absent _ _ pieces)

theorem reverse (swapped : Swapped swap left right) :
    Swapped (fun before after => swap before.reverse after.reverse) left.reverse right.reverse := by
  induction swapped with
  | nil => exact .nil
  | char char _ ih =>
      rw [List.reverse_cons, List.reverse_cons]
      exact ih.append (refl _)
  | piece pieces _ ih =>
      rw [List.reverse_append, List.reverse_append]
      refine ih.append (of_piece ?_)
      rw [List.reverse_reverse, List.reverse_reverse]
      exact pieces

theorem of_reverse (swapped : Swapped (fun before after => swap before.reverse after.reverse)
    left.reverse right.reverse) : Swapped swap left right := by
  have again := swapped.reverse
  simp only [List.reverse_reverse] at again
  exact again

end Swapped

structure Inline (piece : List Char) : Prop where
  unbroken : '\n' ∉ piece
  starts : ∃ first rest, piece = first :: rest ∧ isBlank first = false
  ends : ∃ rest last, piece = rest ++ [last] ∧ isBlank last = false

theorem Inline.solid {piece : List Char} (inline : Inline piece) : Solid piece := by
  obtain ⟨rest, last, rfl, shown⟩ := inline.ends
  refine ⟨last, List.getLast?_concat, ?_, ?_⟩
  · rintro rfl
    exact absurd shown (by decide)
  · rintro rfl
    exact absurd shown (by decide)

def SwapsInline (swap : List Char → List Char → Prop) : Prop :=
  ∀ {before after}, swap before after → Inline before ∧ Inline after

namespace Swapped

variable {swap : List Char → List Char → Prop} {left right : List Char}

theorem nil_iff (inline : SwapsInline swap) (swapped : Swapped swap left right) :
    left = [] ↔ right = [] := by
  cases swapped with
  | nil => rfl
  | char char _ => simp
  | piece pieces _ =>
      have nonempty := inline pieces
      simp [nonempty.1.solid.ne_nil, nonempty.2.solid.ne_nil]

theorem drop_return (inline : SwapsInline swap) (swapped : Swapped swap left right) :
    Swapped swap (dropReturn left) (dropReturn right) := by
  induction swapped with
  | nil => exact .nil
  | @char char left right swapped ih =>
      by_cases empty : left = []
      · have also := (swapped.nil_iff inline).1 empty
        subst empty
        subst also
        exact refl _
      · have also := fun same => empty ((swapped.nil_iff inline).2 same)
        rw [← List.singleton_append, Text.drop_return_append [char] empty,
          ← List.singleton_append (l := right), Text.drop_return_append [char] also]
        exact .char char ih
  | @piece before after left right pieces swapped ih =>
      by_cases empty : left = []
      · have also := (swapped.nil_iff inline).1 empty
        subst empty
        subst also
        rw [List.append_nil, List.append_nil, (inline pieces).1.solid.drop_return,
          (inline pieces).2.solid.drop_return]
        exact of_piece pieces
      · have also := fun same => empty ((swapped.nil_iff inline).2 same)
        rw [Text.drop_return_append before empty, Text.drop_return_append after also]
        exact .piece pieces ih

theorem split_lines (inline : SwapsInline swap) {pending waiting : List Char}
    (before : Swapped swap pending.reverse waiting.reverse) (swapped : Swapped swap left right) :
    List.Forall₂ (Swapped swap) (splitLines pending left) (splitLines waiting right) := by
  induction swapped generalizing pending waiting with
  | nil =>
      have empty := before.nil_iff inline
      rw [List.reverse_eq_nil_iff, List.reverse_eq_nil_iff] at empty
      rw [splitLines, splitLines]
      by_cases fresh : pending = []
      · rw [fresh, empty.1 fresh]
        exact .nil
      · rw [if_neg (by simpa using fresh), if_neg (by simpa using fun same => fresh (empty.2 same))]
        exact .cons before .nil
  | char char _ ih =>
      rw [splitLines, splitLines]
      split
      · exact .cons (before.drop_return inline) (ih .nil)
      · apply ih
        rw [List.reverse_cons, List.reverse_cons]
        exact before.append (refl _)
  | piece pieces _ ih =>
      obtain ⟨one, two⟩ := inline pieces
      rw [Text.split_lines_unbroken one.unbroken, Text.split_lines_unbroken two.unbroken]
      apply ih
      rw [List.reverse_append, List.reverse_append, List.reverse_reverse, List.reverse_reverse]
      exact before.append (of_piece pieces)

theorem lines (inline : SwapsInline swap) (swapped : Swapped swap left right) :
    List.Forall₂ (Swapped swap) (Text.lines left) (Text.lines right) :=
  split_lines inline .nil swapped

theorem join_lines {texts others : List (List Char)}
    (swapped : List.Forall₂ (Swapped swap) texts others) :
    Swapped swap (Text.joinLines texts) (Text.joinLines others) := by
  induction swapped with
  | nil => exact .nil
  | cons line _ ih => exact (line.append (refl _)).append ih

theorem drop_while {stops : Char → Bool}
    (starts : ∀ {before after}, swap before after →
      (∃ first rest, before = first :: rest ∧ stops first = false) ∧
        ∃ first rest, after = first :: rest ∧ stops first = false)
    (swapped : Swapped swap left right) :
    Swapped swap (left.dropWhile stops) (right.dropWhile stops) := by
  induction swapped with
  | nil => exact .nil
  | char char rest ih =>
      rw [List.dropWhile_cons, List.dropWhile_cons]
      split
      · exact ih
      · exact .char char rest
  | piece pieces rest _ =>
      have whole := Swapped.piece pieces rest
      obtain ⟨⟨first, more, rfl, one⟩, next, further, rfl, two⟩ := starts pieces
      rw [List.cons_append, List.cons_append, List.dropWhile_cons_of_neg (by simp [one]),
        List.dropWhile_cons_of_neg (by simp [two])]
      exact whole

theorem trim (inline : SwapsInline swap) (swapped : Swapped swap left right) :
    Swapped swap (Text.trim left) (Text.trim right) := by
  have started : Swapped swap (trimStart left) (trimStart right) :=
    swapped.drop_while fun pieces => ⟨(inline pieces).1.starts, (inline pieces).2.starts⟩
  apply of_reverse
  rw [Text.trim, Text.trim, trimEnd, trimEnd, List.reverse_reverse, List.reverse_reverse]
  refine started.reverse.drop_while fun {before after} pieces => ?_
  have backwards {piece : List Char} (inline : Inline piece.reverse) :
      ∃ first rest, piece = first :: rest ∧ isBlank first = false := by
    obtain ⟨rest, last, same, shown⟩ := inline.ends
    refine ⟨last, rest.reverse, ?_, shown⟩
    rw [← List.reverse_reverse piece, same, List.reverse_append]
    rfl
  exact ⟨backwards (inline pieces).1, backwards (inline pieces).2⟩

end Swapped

end Code

end PageBuilder
