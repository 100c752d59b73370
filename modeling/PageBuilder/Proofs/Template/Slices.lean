import PageBuilder.Proofs.Reference.Places
import PageBuilder.Proofs.Template
import Mathlib.Data.List.Chain

/-!
Templates cover their text. Each part stands for a slice of the text, and the slices one behind the
other are the text: what follows a slice is read as the parts that follow, from the byte on at which
the slice ends. A fault is about a byte of its own slice.
-/

namespace PageBuilder
namespace Template

def delimited (inner : List Char) : List Char :=
  openBrace :: openBrace :: (inner ++ [closeBrace, closeBrace])

/-- What a part says of its slice, which starts at byte `place`. Faults of an interpolation stand
behind its opening braces, and the last of them before the closing ones. -/
inductive SliceAt (place : Nat) : TemplatePart → List Char → Prop
  | text {chars : List Char} (nonempty : chars ≠ []) (unopened : ¬Doubled openBrace chars) :
      SliceAt place (.text chars) chars
  | interpolation {inner : List Char} {reference : Reference} (single : ¬Doubled closeBrace inner)
      (said : Reference.read (String.ofList inner) = .ok reference) :
      SliceAt place (.interpolation reference) (delimited inner)
  | invalid {inner : List Char} {fault : ReferenceFault} (single : ¬Doubled closeBrace inner)
      (fails : Reference.readAt (place + 2) inner = .error fault)
      (inside : fault.Inside (place + 2) (place + 2 + (String.ofList inner).utf8ByteSize)) :
      SliceAt place (.invalid (delimited inner) fault) (delimited inner)
  | unclosed {inner : List Char} (never : ¬Doubled closeBrace inner) :
      SliceAt place (.invalid (openBrace :: openBrace :: inner) (.unclosed place))
        (openBrace :: openBrace :: inner)

/-- The parts cover a text that starts at byte `place`, slice by slice. -/
inductive Covers : Nat → List TemplatePart → List Char → Prop
  | nil (place : Nat) : Covers place [] []
  | cons {place : Nat} {part : TemplatePart} {parts : List TemplatePart} {slice chars : List Char}
      (here : SliceAt place part slice)
      (rest : Covers (place + (String.ofList slice).utf8ByteSize) parts chars) :
      Covers place (part :: parts) (slice ++ chars)

/-- A part that another one can follow is closed, and no text follows a text. -/
def Precedes (first second : TemplatePart) : Prop :=
  (∀ written place, first ≠ .invalid written (.unclosed place)) ∧
    ∀ chars more, first = .text chars → second ≠ .text more

theorem single_of_cut {mark : Char} {chars before after : List Char}
    (found : cut mark chars = some (before, after)) : ¬Doubled mark before := by
  have single := (cut_eq_some_iff.1 found).2
  rw [doubled_concat, not_or] at single
  exact single.2

theorem covers_text {place : Nat} {before chars : List Char} {parts : List TemplatePart}
    (unopened : ¬Doubled openBrace before)
    (rest : Covers (place + PathToken.byteSize before) parts chars) :
    Covers place (textPart before ++ parts) (before ++ chars) := by
  cases before with
  | nil => exact rest
  | cons first before =>
      rw [PathToken.byte_size_eq] at rest
      exact .cons (.text (List.cons_ne_nil _ _) unopened) rest

theorem slice_of_interpolation {inner : List Char} (single : ¬Doubled closeBrace inner)
    (place : Nat) : SliceAt place (interpolation place inner) (delimited inner) := by
  rw [interpolation]
  split
  · rename_i reference said
    have again := Reference.read_moved said 0
    rw [← String.toList_ofList (l := inner)] at again
    exact .interpolation single again
  · rename_i fault fails
    have inside := Reference.fault_inside fails
    rw [PathToken.byte_size_eq] at inside
    exact .invalid single fails inside

theorem covers_interpolation {place : Nat} {inner chars : List Char} {parts : List TemplatePart}
    (single : ¬Doubled closeBrace inner)
    (rest : Covers (place + 4 + PathToken.byteSize inner) parts chars) :
    Covers place (interpolation place inner :: parts) (delimited inner ++ chars) := by
  have size : PathToken.byteSize (delimited inner) = 4 + PathToken.byteSize inner := by
    have opening : PathToken.byteSize [openBrace, openBrace] = 2 := rfl
    have closing : PathToken.byteSize [closeBrace, closeBrace] = 2 := rfl
    have whole : delimited inner = [openBrace, openBrace] ++ (inner ++ [closeBrace, closeBrace]) :=
      rfl
    rw [whole, PathToken.byte_size_append, PathToken.byte_size_append, opening, closing]
    omega
  apply Covers.cons (slice_of_interpolation single place)
  rw [← PathToken.byte_size_eq, size, ← Nat.add_assoc]
  exact rest

theorem covers_unclosed {inner : List Char} (never : ¬Doubled closeBrace inner) (place : Nat) :
    Covers place [.invalid (openBrace :: openBrace :: inner) (.unclosed place)]
      (openBrace :: openBrace :: inner) := by
  have slice : SliceAt place _ _ := .unclosed never
  have covered := Covers.cons slice (.nil _)
  rw [List.append_nil] at covered
  exact covered

theorem covers_parts (place : Nat) (chars : List Char) :
    Covers place (partsAt place chars) chars := by
  fun_induction partsAt place chars with
  | case1 place chars unopened =>
      have covered := covers_text (cut_eq_none_iff.1 unopened)
        (Covers.nil (place + PathToken.byteSize chars))
      rw [List.append_nil, List.append_nil] at covered
      exact covered
  | case2 place chars before inside opened start ih =>
      rw [← cut_written opened]
      apply covers_text (single_of_cut opened)
      split
      · rename_i never
        exact covers_unclosed (cut_eq_none_iff.1 never) start
      · rename_i inner after closed
        have covered := covers_interpolation (single_of_cut closed) (ih inner after closed)
        have whole : delimited inner ++ after = openBrace :: openBrace :: inside := by
          rw [← cut_written closed]
          simp [delimited]
        rw [whole] at covered
        exact covered

theorem precedes_interpolation (place : Nat) (inner : List Char) (second : TemplatePart) :
    Precedes (interpolation place inner) second := by
  rw [interpolation]
  split
  · exact ⟨by simp, by simp⟩
  · rename_i fault fails
    have inside := Reference.fault_inside fails
    refine ⟨?_, by simp⟩
    intro written other same
    cases same
    exact inside.closed other rfl

theorem precedes_behind_text {before : List Char} {part : TemplatePart} {parts : List TemplatePart}
    (other : ∀ chars, part ≠ .text chars) (chain : (part :: parts).IsChain Precedes) :
    (textPart before ++ part :: parts).IsChain Precedes := by
  cases before with
  | nil => exact chain
  | cons first before =>
      apply List.isChain_cons_cons.2
      refine ⟨⟨by simp, ?_⟩, chain⟩
      intro chars more _
      exact other more

theorem interpolation_ne_text (place : Nat) (inner chars : List Char) :
    interpolation place inner ≠ .text chars := by
  rw [interpolation]
  split
  · simp
  · simp

theorem precedes_parts (place : Nat) (chars : List Char) :
    (partsAt place chars).IsChain Precedes := by
  fun_induction partsAt place chars with
  | case1 place chars unopened =>
      cases chars with
      | nil => exact List.isChain_nil
      | cons first rest => exact List.isChain_singleton _
  | case2 place chars before inside opened start ih =>
      split
      · exact precedes_behind_text (by simp) (List.isChain_singleton _)
      · rename_i inner after closed
        apply precedes_behind_text (interpolation_ne_text start inner)
        apply List.isChain_cons.2
        exact ⟨fun second _ => precedes_interpolation start inner second, ih inner after closed⟩

/-- The parts of a template cover its text without loss. No text follows a text, and only the last
part can be an interpolation that nothing closes. -/
theorem parts_cover_text (text : String) :
    Covers 0 (read text).parts text.toList ∧ (read text).parts.IsChain Precedes :=
  ⟨covers_parts 0 text.toList, precedes_parts 0 text.toList⟩

example : (read "é\x7b\x7b\x7ba\x7d\x7d\x7d").parts =
    [.text ['é'], .invalid "\x7b\x7b\x7ba\x7d\x7d".toList (.invalidToken 4),
      .text ['\x7d']] := by decide +kernel

end Template
end PageBuilder
