import PageBuilder.Proofs.History

/-!
Batches. A batch is one step, and undoing it leads back to where it began. Below it lies what undo
and redo inside the batch have left of the steps before: they do not stop where the batch began.
-/

namespace PageBuilder

/-- The calls that leave an open batch open, and begin none. -/
def HistoryCall.Inner : HistoryCall → Prop
  | .dispatch _ | .describeBatch _ | .undo | .redo => True
  | .beginBatch | .endBatch | .clear => False

namespace History

/-- The steps that doing all again would put on the past, the first one first. -/
def ahead (current : Revision) : List Step → List Step
  | [] => []
  | step :: rest => { step with revision := current } :: ahead step.revision rest

/-- All steps that are known, the oldest first, whether or not they are undone. -/
def steps (history : History) : List Step :=
  history.past.reverse ++ ahead history.current history.future

variable {history : History}

theorem past_prefix_steps (history : History) : history.past.reverse <+: history.steps :=
  List.prefix_append _ _

/-- Inside a batch no call changes what the batch began with, and none makes up steps. -/
theorem Change.inner {next : History} {begun : Step} (batch : history.batch = some begun)
    {call : HistoryCall} (change : history.Change call next) (inner : call.Inner) :
    (∃ description, next.batch = some { begun with description }) ∧
      next.steps <+: history.steps := by
  cases change with
  | same => exact ⟨⟨begun.description, batch⟩, List.prefix_rfl⟩
  | dispatched applied =>
      simp only [History.dispatched, batch, advance_batch]
      refine ⟨⟨begun.description, rfl⟩, ?_⟩
      simp only [steps, advance_past, ahead, List.append_nil]
      exact past_prefix_steps history
  | described description =>
      refine ⟨⟨some description, ?_⟩, List.prefix_rfl⟩
      rw [describeBatch, batch, Option.map_some]
  | undone here =>
      refine ⟨⟨begun.description, batch⟩, ?_⟩
      simp [steps, here, ahead]
  | redone here =>
      refine ⟨⟨begun.description, batch⟩, ?_⟩
      simp [steps, here, ahead]
  | begun | dropped | ended | cleared => exact inner.elim

/-- Without undo and redo nothing in a batch touches the past. -/
theorem Change.inner_past {next : History} {begun : Step} (batch : history.batch = some begun)
    {call : HistoryCall} (change : history.Change call next) (inner : call.Inner)
    (edits : call ≠ .undo ∧ call ≠ .redo) : next.past = history.past := by
  cases change with
  | same | described => rfl
  | dispatched applied => simp only [History.dispatched, batch, advance_past]
  | undone => exact absurd rfl edits.1
  | redone => exact absurd rfl edits.2
  | begun | dropped | ended | cleared => exact inner.elim

theorem run_inner {begun : Step} (batch : history.batch = some begun) {calls : List HistoryCall}
    (inner : ∀ call ∈ calls, call.Inner) :
    (∃ description, (history.run calls).batch = some { begun with description }) ∧
      (history.run calls).steps <+: history.steps := by
  induction calls generalizing history begun with
  | nil => exact ⟨⟨begun.description, batch⟩, List.prefix_rfl⟩
  | cons call calls ih =>
      have change := history.answer_change call
      obtain ⟨⟨description, open_⟩, fewer⟩ := change.inner batch (inner call List.mem_cons_self)
      obtain ⟨last, rest⟩ :=
        ih open_ fun later member => inner later (List.mem_cons_of_mem _ member)
      exact ⟨last, rest.trans fewer⟩

/-- Actions alone leave the past as it was when the batch began. -/
theorem past_run_edits {begun : Step} (batch : history.batch = some begun)
    {calls : List HistoryCall} (inner : ∀ call ∈ calls, call.Inner)
    (edits : ∀ call ∈ calls, call ≠ .undo ∧ call ≠ .redo) :
    (history.run calls).past = history.past := by
  induction calls generalizing history begun with
  | nil => rfl
  | cons call calls ih =>
      have change := history.answer_change call
      have here := inner call List.mem_cons_self
      obtain ⟨⟨description, open_⟩, _⟩ := change.inner batch here
      have rest := ih open_ (fun later member => inner later (List.mem_cons_of_mem _ member))
        fun later member => edits later (List.mem_cons_of_mem _ member)
      exact rest.trans (change.inner_past batch here (edits call List.mem_cons_self))

theorem kept_newest (limit : Nat) (step : Step) (past : List Step) :
    ∃ rest, kept limit (step :: past) = step :: rest := by
  unfold kept
  split
  · rename_i full
    simp only [Bool.and_eq_true, decide_eq_true_eq, List.length_cons] at full
    cases past with
    | nil =>
        rw [List.length_nil] at full
        omega
    | cons older past => exact ⟨(older :: past).dropLast, List.dropLast_cons_cons⟩
  · exact ⟨past, rfl⟩

/-- Undoing a step that was just added and doing it again leads there and back. -/
theorem undo_redo_push (history : History) (step : Step) :
    ∃ undone redone, (history.push step).undo? = some undone ∧ undone.current = step.revision ∧
      undone.redo? = some redone ∧ redone.current = history.current := by
  obtain ⟨rest, past⟩ := kept_newest history.limit step history.past
  rw [push_eq, past]
  exact ⟨_, _, rfl, rfl, rfl, rfl⟩

theorem end_batch_changed (numbered : history.Numbered) {begun : Step}
    (batch : history.batch = some begun) (changed : history.current ≠ begun.revision) :
    history.endBatch = { history with batch := none }.push begun := by
  have moved : begun.revision.number ≠ history.current.number := by
    intro same
    have before : history.Holds begun.revision := Or.inr ⟨begun, Or.inr (Or.inr batch), rfl⟩
    exact changed (numbered.unique before (Or.inl rfl) same).symm
  simp only [endBatch, batch, if_neg moved]

/-- A batch in which the document changed is one step, from where it began to where it ended. The
steps below it are the first ones of those known when it began. They are the ones undo had left then
if they are as many, which they are when the batch holds actions only. -/
theorem batch_over_earlier_steps (document : Document) (limit : Nat)
    {earlier calls : List HistoryCall}
    (closed : ((ofDocument document limit).run earlier).batch = none)
    (inner : ∀ call ∈ calls, call.Inner) :
    let before := (ofDocument document limit).run earlier
    let inside := before.beginBatch.run calls
    (inside.current ≠ before.current →
      (∃ description, inside.endBatch.past =
        kept limit (⟨before.current, description⟩ :: inside.past)) ∧
      inside.endBatch.future = [] ∧
      ∃ undone redone, inside.endBatch.undo? = some undone ∧ undone.current = before.current ∧
        undone.redo? = some redone ∧ redone.current = inside.current) ∧
    inside.past.reverse <+: before.steps ∧
    (inside.past = before.past ↔ inside.past.length = before.past.length) ∧
    ((∀ call ∈ calls, call ≠ .undo ∧ call ≠ .redo) → inside.past = before.past) := by
  intro before inside
  have opened : before.beginBatch = { before with batch := some ⟨before.current, none⟩ } := by
    unfold beginBatch
    rw [show before.batch = none from closed]
  have batch : before.beginBatch.batch = some ⟨before.current, none⟩ := by rw [opened]
  have past : before.beginBatch.past = before.past := by rw [opened]
  have steps : before.beginBatch.steps = before.steps := by rw [opened]; rfl
  have numbered : inside.Numbered :=
    (((numbered_of_document document limit).run earlier).answer .beginBatch).run calls
  have limited : inside.limit = limit := by
    have began := limit_answer before .beginBatch
    exact (limit_run _ calls).trans (began.trans (limit_run _ earlier))
  obtain ⟨⟨description, open_⟩, fewer⟩ := run_inner batch inner
  have below : inside.past.reverse <+: before.steps := by
    rw [← steps]
    exact (past_prefix_steps inside).trans fewer
  refine ⟨fun changed => ?_, below, ⟨fun same => by rw [same], fun same => ?_⟩, fun edits => ?_⟩
  · have ended := end_batch_changed numbered open_ changed
    rw [ended]
    refine ⟨⟨description, ?_⟩, rfl, undo_redo_push _ _⟩
    rw [push_eq, ← limited]
  · have lengths : inside.past.reverse.length = before.past.reverse.length := by simpa using same
    have first := List.prefix_of_prefix_length_le below (past_prefix_steps before)
      (Nat.le_of_eq lengths)
    exact List.reverse_injective (first.eq_of_length lengths)
  · exact (past_run_edits batch inner edits).trans past

theorem batch_over_earlier_steps_sample :
    let before := (ofDocument (Document.ofRoot "r") 1).run [.dispatch (.setNodeName "r" "a")]
    let calls : List HistoryCall := [.describeBatch "two", .dispatch (.setNodeName "r" "b")]
    let inside := before.beginBatch.run calls
    before.batch = none ∧ (∀ call ∈ calls, call.Inner) ∧ inside.current ≠ before.current ∧
      inside.past = before.past ∧ inside.endBatch.past.length = 1 ∧
      ∃ undone, inside.endBatch.undo? = some undone ∧
        undone.current.document.labelOf "r" = "a" := by
  intro before calls inside
  have closed : before.batch = none := by decide +kernel
  have inner : ∀ call ∈ calls, call.Inner := by simp [calls, HistoryCall.Inner]
  have edits : ∀ call ∈ calls, call ≠ .undo ∧ call ≠ .redo := by simp [calls]
  have changed : inside.current ≠ before.current := by
    intro same
    have numbers : inside.current.number ≠ before.current.number := by decide +kernel
    exact numbers (congrArg Revision.number same)
  obtain ⟨step, _, _, same⟩ := batch_over_earlier_steps (Document.ofRoot "r") 1 closed inner
  obtain ⟨_, _, undone, _, undo, there, _⟩ := step changed
  refine ⟨closed, inner, changed, same edits, by decide +kernel, undone, undo, ?_⟩
  rw [there]
  decide +kernel

/-- Undoing in a batch can lose a step from before the batch. -/
theorem batch_loses_earlier_step :
    ¬ ∀ (document : Document) (limit : Nat) (earlier calls : List HistoryCall),
      ((ofDocument document limit).run earlier).batch = none → (∀ call ∈ calls, call.Inner) →
      let before := (ofDocument document limit).run earlier
      let inside := before.beginBatch.run calls
      inside.current.document ≠ before.current.document →
        ∃ description, inside.endBatch.past =
          kept limit (⟨before.current, description⟩ :: before.past) := by
  intro always
  let before := (ofDocument (Document.ofRoot "r") 0).run [.dispatch (.setNodeName "r" "a")]
  let inside := before.beginBatch.run [.undo]
  have closed : before.batch = none := by decide +kernel
  have changed : inside.current.document ≠ before.current.document := by
    intro same
    have labels : inside.current.document.labelOf "r" ≠ before.current.document.labelOf "r" := by
      decide +kernel
    exact labels (by rw [same])
  obtain ⟨description, past⟩ := always (Document.ofRoot "r") 0
    [.dispatch (.setNodeName "r" "a")] [.undo] closed (by simp [HistoryCall.Inner]) changed
  have all : inside.endBatch.past = ⟨before.current, description⟩ :: before.past := past
  have lengths := congrArg List.length all
  have after : inside.endBatch.past.length = 1 := by decide +kernel
  have earlier : before.past.length = 1 := by decide +kernel
  rw [after, List.length_cons, earlier] at lengths
  omega

end History

end PageBuilder
