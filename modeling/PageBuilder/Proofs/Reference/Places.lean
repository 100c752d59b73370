import PageBuilder.Proofs.Reference

/-!
Places of faults. A text that starts at some byte has its tokens between its start and its end, and
so each fault of a reference is about a place in the text or about its end.
-/

namespace PageBuilder

def ReferenceFault.place : ReferenceFault → Nat
  | .unclosed place => place
  | .empty place => place
  | .unexpectedToken place _ _ => place
  | .unexpectedEnd place _ => place
  | .invalidToken place => place

/-- A fault of the text between two bytes, and not of one that nothing closes. -/
structure ReferenceFault.Inside (fault : ReferenceFault) (first last : Nat) : Prop where
  closed : ∀ place, fault ≠ .unclosed place
  first_le : first ≤ fault.place
  le_last : fault.place ≤ last

namespace PathToken

theorem byte_size_eq (chars : List Char) :
    byteSize chars = (String.ofList chars).utf8ByteSize := by
  have run (size : Nat) : chars.foldl (fun size char => size + char.utf8Size) size =
      size + (String.ofList chars).utf8ByteSize := by
    induction chars generalizing size with
    | nil => rfl
    | cons char rest ih =>
        rw [List.foldl_cons, ih, String.ofList_cons, String.utf8ByteSize_append,
          String.utf8ByteSize_singleton, Nat.add_assoc]
  rw [byteSize, run, Nat.zero_add]

theorem byte_size_append (front back : List Char) :
    byteSize (front ++ back) = byteSize front + byteSize back := by
  rw [byte_size_eq, byte_size_eq, byte_size_eq, String.ofList_append, String.utf8ByteSize_append]

theorem byte_size_cons (char : Char) (rest : List Char) :
    byteSize (char :: rest) = char.utf8Size + byteSize rest := by
  rw [byte_size_eq, byte_size_eq, String.ofList_cons, String.utf8ByteSize_append,
    String.utf8ByteSize_singleton]

theorem token_places {place : Nat} {chars : List Char} {placed : List Placed}
    (read : scan place chars = .ok placed) :
    ∀ token ∈ placed, place ≤ token.place ∧ token.place ≤ place + byteSize chars := by
  fun_induction scan place chars generalizing placed with
  | case1 =>
      cases read
      intro token member
      cases member
  | case2 place char rest space ih =>
      intro token member
      have inside := ih read token member
      rw [byte_size_cons]
      omega
  | case3 => cases read
  | case4 place char rest solid lexeme found tokens later ih =>
      cases read
      intro token member
      cases member with
      | head => exact ⟨Nat.le_refl _, Nat.le_add_right _ _⟩
      | tail _ behind =>
          have inside := ih later token behind
          rw [← lexeme_written found, byte_size_append]
          omega
  | case5 => cases read

theorem scan_fault_place {place : Nat} {chars : List Char} {fault : Nat}
    (fails : scan place chars = .error fault) :
    place ≤ fault ∧ fault ≤ place + byteSize chars := by
  fun_induction scan place chars with
  | case1 => cases fails
  | case2 place char rest space ih =>
      have inside := ih fails
      rw [byte_size_cons]
      omega
  | case3 =>
      cases fails
      exact ⟨Nat.le_refl _, Nat.le_add_right _ _⟩
  | case4 => cases fails
  | case5 place char rest solid lexeme found other later ih =>
      cases fails
      have inside := ih later
      rw [← lexeme_written found, byte_size_append]
      omega

end PathToken

namespace Reference

open PathToken (Placed)

section Tokens

variable {first last : Nat} {placed : List Placed} {fault : ReferenceFault}
  (ordered : first ≤ last) (inside : ∀ token ∈ placed, first ≤ token.place ∧ token.place ≤ last)

include ordered inside

theorem segment_fault_inside : (segmentFault last placed).Inside first last := by
  have ended (expected : Expected) :
      (ReferenceFault.unexpectedEnd last expected).Inside first last :=
    ⟨by simp, ordered, Nat.le_refl last⟩
  have found (token : Placed) (member : token ∈ placed) (expected : Expected) :
      (ReferenceFault.unexpectedToken token.place expected token.token).Inside first last :=
    ⟨by simp, (inside token member).1, (inside token member).2⟩
  fun_cases segmentFault last placed with
  | case1 | case2 | case4 | case5 | case6 => exact ended _
  | case3 | case7 | case8 | case9 | case10 => exact found _ (by simp) _

theorem segments_fault_inside (fails : segmentsOf last placed = .error fault) :
    fault.Inside first last := by
  fun_induction segmentsOf last placed with
  | case1 => cases fails
  | case2 | case3 | case4 =>
      rename_i ih
      apply ih ?_ (Outcome.map_eq_error.1 fails)
      intro token member
      apply inside
      simp [member]
  | case5 =>
      cases fails
      exact segment_fault_inside ordered inside

theorem of_tokens_fault_inside (fails : ofTokens first last placed = .error fault) :
    fault.Inside first last := by
  rw [ofTokens.eq_def] at fails
  split at fails
  · cases fails
    exact ⟨by simp, Nat.le_refl first, ordered⟩
  · apply segments_fault_inside ordered ?_ (Outcome.map_eq_error.1 fails)
    intro token member
    exact inside token (List.mem_cons_of_mem _ member)
  · rename_i found rest _
    cases fails
    have place := inside found List.mem_cons_self
    exact ⟨by simp, place.1, place.2⟩

end Tokens

theorem fault_inside {start : Nat} {chars : List Char} {fault : ReferenceFault}
    (fails : readAt start chars = .error fault) :
    fault.Inside start (start + PathToken.byteSize chars) := by
  rw [readAt] at fails
  split at fails
  · rename_i place scanned
    cases fails
    have inside := PathToken.scan_fault_place scanned
    exact ⟨by simp, inside.1, inside.2⟩
  · rename_i placed scanned
    exact of_tokens_fault_inside (Nat.le_add_right _ _) (PathToken.token_places scanned) fails

end Reference
end PageBuilder
