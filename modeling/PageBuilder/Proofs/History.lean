import PageBuilder.History
import Mathlib.Data.List.Basic

/-!
Calls on the history of a document. Whatever is called and in whatever order, a number stands for
one document only, and no more steps are kept than the limit allows.
-/

namespace PageBuilder

inductive HistoryCall where
  | dispatch (action : Action)
  | beginBatch
  | describeBatch (description : String)
  | endBatch
  | undo
  | redo
  | clear

theorem Action.apply_idle {action : Action} {document next : Document}
    (idle : action.isIdle document = true) (applied : action.apply document = .ok next) :
    next = document := by
  cases action with
  | setNodeName id name =>
      unfold Action.isIdle at idle
      cases found : document.get? id with
      | none => simp [found] at idle
      | some node =>
          have same : node.name = name := by simpa [found] using idle
          have renamed : document.rename id name = .ok document := by
            simp [Document.rename, Document.node, Document.found, found, same, bind, Except.bind]
          have result : document.rename id name = .ok next := applied
          rw [renamed] at result
          exact (Except.ok.inj result).symm
  | _ => cases idle

namespace History

/-- A step that fails leaves the history as it is and says so. -/
def attempt (history : History) : Option History → History × Bool
  | some next => (next, true)
  | none => (history, false)

/-- The history after a call, and whether the call succeeded. -/
def answer (history : History) : HistoryCall → History × Bool
  | .dispatch action => history.attempt (history.dispatch action).toOption
  | .beginBatch => (history.beginBatch, true)
  | .describeBatch description => (history.describeBatch description, true)
  | .endBatch => (history.endBatch, true)
  | .undo => history.attempt history.undo?
  | .redo => history.attempt history.redo?
  | .clear => (history.clear, true)

def run : History → List HistoryCall → History
  | history, [] => history
  | history, call :: calls => (history.answer call).1.run calls

def answers : History → List HistoryCall → List Bool
  | _, [] => []
  | history, call :: calls => (history.answer call).2 :: (history.answer call).1.answers calls

theorem answer_failed {history : History} {call : HistoryCall}
    (failed : (history.answer call).2 = false) : (history.answer call).1 = history := by
  have unchanged (next : Option History) (failed : (history.attempt next).2 = false) :
      (history.attempt next).1 = history := by
    cases next with
    | none => rfl
    | some next => cases failed
  cases call with
  | dispatch action => exact unchanged _ failed
  | undo => exact unchanged _ failed
  | redo => exact unchanged _ failed
  | beginBatch | describeBatch _ | endBatch | clear => cases failed

/-- The newest steps, as many as the limit allows; one too many costs the oldest. -/
def kept (limit : Nat) (steps : List Step) : List Step :=
  if 0 < limit && limit < steps.length then steps.dropLast else steps

theorem kept_full {limit : Nat} {steps : List Step} (full : 0 < limit ∧ limit < steps.length) :
    kept limit steps = steps.dropLast := by
  simp [kept, full]

theorem kept_room {limit : Nat} {steps : List Step} (room : ¬(0 < limit ∧ limit < steps.length)) :
    kept limit steps = steps := by
  simp only [kept, Bool.and_eq_true, decide_eq_true_eq, if_neg room]

theorem kept_subset (limit : Nat) (steps : List Step) : kept limit steps ⊆ steps := by
  unfold kept
  split
  · exact List.dropLast_subset steps
  · exact List.Subset.refl steps

theorem push_eq (history : History) (step : Step) :
    history.push step =
      { history with past := kept history.limit (step :: history.past), future := [] } :=
  rfl

section Advance

variable (history : History) (document : Document) (idle : Bool)

@[simp] theorem advance_past : (history.advance document idle).past = history.past := by
  unfold advance
  split <;> rfl

@[simp] theorem advance_future : (history.advance document idle).future = history.future := by
  unfold advance
  split <;> rfl

@[simp] theorem advance_limit : (history.advance document idle).limit = history.limit := by
  unfold advance
  split <;> rfl

@[simp] theorem advance_batch : (history.advance document idle).batch = history.batch := by
  unfold advance
  split <;> rfl

end Advance

def dispatched (history : History) (action : Action) (document : Document) : History :=
  let next := history.advance document (action.isIdle history.current.document)
  match history.batch with
  | none => next.push ⟨history.current, none⟩
  | some _ => { next with future := [] }

theorem answer_dispatch_ok {history : History} {action : Action} {document : Document}
    (applied : action.apply history.current.document = .ok document) :
    history.answer (.dispatch action) = (history.dispatched action document, true) := by
  have dispatched : history.dispatch action = .ok (history.dispatched action document) := by
    simp only [dispatch, dispatched, applied, bind, Except.bind, advance_batch]
    cases history.batch <;> rfl
  simp only [answer, dispatched, Except.toOption, attempt]

theorem answer_dispatch_error {history : History} {action : Action} {fault : EditFault}
    (failed : action.apply history.current.document = .error fault) :
    history.answer (.dispatch action) = (history, false) := by
  have stopped : history.dispatch action = .error fault := by
    simp only [dispatch, failed, bind, Except.bind]
  simp only [answer, stopped, Except.toOption, attempt]

theorem advance_document {history : History} {action : Action} {document : Document}
    (applied : action.apply history.current.document = .ok document) :
    (history.advance document (action.isIdle history.current.document)).current.document =
      document := by
  unfold advance
  split
  · rename_i idle
    exact (Action.apply_idle idle applied).symm
  · rfl

inductive Change (history : History) : HistoryCall → History → Prop
  /-- A call that fails, or for which there is nothing to do. -/
  | same (call : HistoryCall) : Change history call history
  | dispatched {action : Action} {document : Document}
      (applied : action.apply history.current.document = .ok document) :
      Change history (.dispatch action) (history.dispatched action document)
  | begun (closed : history.batch = none) :
      Change history .beginBatch { history with batch := some ⟨history.current, none⟩ }
  | described (description : String) :
      Change history (.describeBatch description) (history.describeBatch description)
  | dropped {begun : Step} (batch : history.batch = some begun)
      (back : begun.revision.number = history.current.number) :
      Change history .endBatch { history with batch := none }
  | ended {begun : Step} (batch : history.batch = some begun)
      (moved : begun.revision.number ≠ history.current.number) :
      Change history .endBatch ({ history with batch := none }.push begun)
  | undone {step : Step} {past : List Step} (here : history.past = step :: past) :
      Change history .undo
        { history with
          current := step.revision
          past
          future := { step with revision := history.current } :: history.future }
  | redone {step : Step} {future : List Step} (here : history.future = step :: future) :
      Change history .redo
        { history with
          current := step.revision
          past := { step with revision := history.current } :: history.past
          future }
  | cleared : Change history .clear history.clear

theorem answer_change (history : History) (call : HistoryCall) :
    history.Change call (history.answer call).1 := by
  cases call with
  | dispatch action =>
      cases applied : action.apply history.current.document with
      | error fault =>
          rw [answer_dispatch_error applied]
          exact .same _
      | ok document =>
          rw [answer_dispatch_ok applied]
          exact .dispatched applied
  | beginBatch =>
      simp only [answer, beginBatch]
      split
      · rename_i closed
        exact .begun closed
      · exact .same _
  | describeBatch description => exact .described description
  | endBatch =>
      simp only [answer, endBatch]
      split
      · exact .same _
      · rename_i begun batch
        split
        · rename_i back
          exact .dropped batch back
        · rename_i moved
          exact .ended batch moved
  | undo =>
      simp only [answer, undo?]
      split
      · exact .same _
      · rename_i step past here
        exact .undone here
  | redo =>
      simp only [answer, redo?]
      split
      · exact .same _
      · rename_i step future here
        exact .redone here
  | clear => exact .cleared

/-- What every change keeps is kept by any calls. -/
theorem run_keeps (Invariant : History → Prop)
    (kept : ∀ {history next : History} {call : HistoryCall}, history.Change call next →
      Invariant history → Invariant next)
    {history : History} (start : Invariant history) (calls : List HistoryCall) :
    Invariant (history.run calls) := by
  induction calls generalizing history with
  | nil => exact start
  | cons call calls ih => exact ih (kept (history.answer_change call) start)

/-- A history holds a document as the current one, or on the other side of a step. -/
def Holds (history : History) (revision : Revision) : Prop :=
  revision = history.current ∨
    ∃ step, (step ∈ history.past ∨ step ∈ history.future ∨ history.batch = some step) ∧
      step.revision = revision

/-- A number stands for one document, and the next one for none so far. -/
structure Numbered (history : History) : Prop where
  fresh : ∀ {revision : Revision}, history.Holds revision →
    revision.number < history.nextNumber
  unique : ∀ {left right : Revision}, history.Holds left → history.Holds right →
    left.number = right.number → left = right

theorem numbered_of_document (document : Document) (limit : Nat) :
    (ofDocument document limit).Numbered := by
  have only {revision : Revision} (held : (ofDocument document limit).Holds revision) :
      revision = ⟨document, 0⟩ := by
    rcases held with current | ⟨step, past | future | batch, _⟩
    · exact current
    · exact absurd past List.not_mem_nil
    · exact absurd future List.not_mem_nil
    · cases batch
  constructor
  · intro revision held
    rw [only held]
    exact Nat.zero_lt_one
  · intro left right leftHeld rightHeld _
    rw [only leftHeld, only rightHeld]

namespace Numbered

variable {before after : History}

theorem of_fewer (numbered : before.Numbered) (number : after.nextNumber = before.nextNumber)
    (fewer : ∀ {revision : Revision}, after.Holds revision → before.Holds revision) :
    after.Numbered := by
  constructor
  · intro revision held
    rw [number]
    exact numbered.fresh (fewer held)
  · intro left right leftHeld rightHeld
    exact numbered.unique (fewer leftHeld) (fewer rightHeld)

theorem of_new (numbered : before.Numbered) (document : Document)
    (number : after.nextNumber = before.nextNumber + 1)
    (one : ∀ {revision : Revision}, after.Holds revision →
      revision = ⟨document, before.nextNumber⟩ ∨ before.Holds revision) : after.Numbered := by
  constructor
  · intro revision held
    rw [number]
    rcases one held with rfl | old
    · exact Nat.lt_succ_self _
    · exact Nat.lt_succ_of_lt (numbered.fresh old)
  · intro left right leftHeld rightHeld same
    rcases one leftHeld with rfl | leftOld
    · rcases one rightHeld with rfl | rightOld
      · rfl
      · exact absurd same (Nat.ne_of_gt (numbered.fresh rightOld))
    · rcases one rightHeld with rfl | rightOld
      · exact absurd same (Nat.ne_of_lt (numbered.fresh leftOld))
      · exact numbered.unique leftOld rightOld same

end Numbered

theorem holds_push {history : History} {step : Step} {revision : Revision}
    (held : (history.push step).Holds revision) :
    revision = step.revision ∨ history.Holds revision := by
  have steps := kept_subset history.limit (step :: history.past)
  rcases held with current | ⟨other, past | future | batch, same⟩
  · exact Or.inr (Or.inl current)
  · rcases List.mem_cons.1 (steps past) with rfl | old
    · exact Or.inl same.symm
    · exact Or.inr (Or.inr ⟨other, Or.inl old, same⟩)
  · exact absurd future List.not_mem_nil
  · exact Or.inr (Or.inr ⟨other, Or.inr (Or.inr batch), same⟩)

theorem holds_dispatched {history : History} {action : Action} {document : Document}
    {revision : Revision} (held : (history.dispatched action document).Holds revision) :
    revision = (history.advance document (action.isIdle history.current.document)).current ∨
      history.Holds revision := by
  unfold dispatched at held
  split at held
  · rcases holds_push held with before | current | ⟨other, member, same⟩
    · exact Or.inr (Or.inl before)
    · exact Or.inl current
    · simp only [advance_past, advance_future, advance_batch] at member
      exact Or.inr (Or.inr ⟨other, member, same⟩)
  · rcases held with current | ⟨other, past | future | batch, same⟩
    · exact Or.inl current
    · rw [advance_past] at past
      exact Or.inr (Or.inr ⟨other, Or.inl past, same⟩)
    · exact absurd future List.not_mem_nil
    · rw [advance_batch] at batch
      exact Or.inr (Or.inr ⟨other, Or.inr (Or.inr batch), same⟩)

theorem next_number_dispatched (history : History) (action : Action) (document : Document) :
    (history.dispatched action document).nextNumber =
      (history.advance document (action.isIdle history.current.document)).nextNumber := by
  unfold dispatched
  split <;> rfl

namespace Numbered

variable {history : History}

theorem dispatched (numbered : history.Numbered) (action : Action) (document : Document) :
    (history.dispatched action document).Numbered := by
  have number := next_number_dispatched history action document
  cases idle : action.isIdle history.current.document with
  | true =>
      rw [idle] at number
      apply numbered.of_fewer number
      intro revision held
      rcases holds_dispatched held with current | old
      · rw [idle] at current
        exact Or.inl current
      · exact old
  | false =>
      rw [idle] at number
      apply numbered.of_new document number
      intro revision held
      have known := holds_dispatched held
      rw [idle] at known
      exact known

/-- Whatever is called, numbers keep standing for one document each. -/
theorem change (numbered : history.Numbered) {call : HistoryCall} {next : History}
    (change : history.Change call next) : next.Numbered := by
  cases change with
  | same => exact numbered
  | @dispatched action document applied => exact numbered.dispatched action document
  | begun closed =>
      refine numbered.of_fewer rfl ?_
      grind [Holds]
  | described description =>
      refine numbered.of_fewer rfl ?_
      grind [Holds, describeBatch, Option.map_eq_some_iff]
  | dropped batch back =>
      refine numbered.of_fewer rfl ?_
      grind [Holds]
  | @ended step batch moved =>
      refine numbered.of_fewer rfl ?_
      intro revision held
      rcases holds_push held with before | old
      · exact Or.inr ⟨step, Or.inr (Or.inr batch), before.symm⟩
      · grind [Holds]
  | undone here =>
      refine numbered.of_fewer rfl ?_
      grind [Holds]
  | redone here =>
      refine numbered.of_fewer rfl ?_
      grind [Holds]
  | cleared =>
      refine numbered.of_fewer rfl ?_
      grind [Holds, clear]

theorem answer (numbered : history.Numbered) (call : HistoryCall) :
    (history.answer call).1.Numbered := numbered.change (history.answer_change call)

theorem run (numbered : history.Numbered) (calls : List HistoryCall) :
    (history.run calls).Numbered :=
  run_keeps History.Numbered (fun changed before => before.change changed) numbered calls

end Numbered

theorem limit_dispatched (history : History) (action : Action) (document : Document) :
    (history.dispatched action document).limit = history.limit := by
  unfold dispatched
  split <;> simp [push_eq]

theorem Change.limit {history next : History} {call : HistoryCall}
    (change : history.Change call next) : next.limit = history.limit := by
  cases change with
  | @dispatched action document applied => exact limit_dispatched history action document
  | same | begun | described | dropped | ended | undone | redone | cleared => rfl

theorem limit_answer (history : History) (call : HistoryCall) :
    (history.answer call).1.limit = history.limit := (history.answer_change call).limit

theorem limit_run (history : History) (calls : List HistoryCall) :
    (history.run calls).limit = history.limit :=
  run_keeps (fun later => later.limit = history.limit)
    (fun changed before => changed.limit.trans before) rfl calls

theorem kept_length_le {limit : Nat} (limited : 0 < limit) (step : Step) {steps : List Step}
    (bound : steps.length ≤ limit) : (kept limit (step :: steps)).length ≤ limit := by
  unfold kept
  split
  · simp only [List.length_dropLast, List.length_cons]
    omega
  · rename_i fits
    simp only [Bool.and_eq_true, decide_eq_true_eq, not_and] at fits
    exact Nat.not_lt.1 (fits limited)

def Bounded (history : History) : Prop :=
  0 < history.limit → history.past.length + history.future.length ≤ history.limit

namespace Bounded

variable {history : History}

theorem push (bounded : history.Bounded) (step : Step) : (history.push step).Bounded := by
  intro limited
  have room : history.past.length ≤ history.limit := by
    have total := bounded limited
    omega
  have fits := kept_length_le limited step room
  simpa [push_eq] using fits

theorem dispatched (bounded : history.Bounded) (action : Action) (document : Document) :
    (history.dispatched action document).Bounded := by
  have advanced (idle : Bool) : (history.advance document idle).Bounded := by
    unfold Bounded at bounded ⊢
    simpa using bounded
  unfold History.dispatched
  split
  · exact (advanced _).push _
  · intro limited
    have total := advanced _ limited
    simp only [List.length_nil]
    omega

theorem change (bounded : history.Bounded) {call : HistoryCall} {next : History}
    (change : history.Change call next) : next.Bounded := by
  cases change with
  | same | begun | described | dropped => exact bounded
  | @dispatched action document applied => exact bounded.dispatched action document
  | @ended step batch moved => exact push bounded step
  | undone here =>
      intro limited
      have total := bounded limited
      rw [here, List.length_cons] at total
      simp only [List.length_cons]
      omega
  | redone here =>
      intro limited
      have total := bounded limited
      rw [here, List.length_cons] at total
      simp only [List.length_cons]
      omega
  | cleared => exact fun _ => Nat.zero_le _

theorem run (bounded : history.Bounded) (calls : List HistoryCall) :
    (history.run calls).Bounded :=
  run_keeps History.Bounded (fun changed before => before.change changed) bounded calls

end Bounded

theorem bounded_of_document (document : Document) (limit : Nat) :
    (ofDocument document limit).Bounded := fun _ => Nat.zero_le _

end History

end PageBuilder
