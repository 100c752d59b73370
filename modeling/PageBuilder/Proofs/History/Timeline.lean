import PageBuilder.Proofs.History

/-!
A history as a timeline: snapshots of the document one after another, and a cursor at the one that
is current. While no batch is open, undoing and doing again move the cursor and nothing else.
-/

namespace PageBuilder

/-- What an open batch has come to. -/
structure Draft where
  document : Document
  /-- Whether an action in the batch has led to a new document. -/
  changed : Bool
  description : Option String

structure Timeline where
  /-- The oldest snapshot first. -/
  snapshots : List Document
  /-- Of the steps from each snapshot to the next. -/
  descriptions : List (Option String)
  /-- The number of steps that lead to the snapshot where the timeline stands. -/
  cursor : Nat
  draft : Option Draft

namespace Timeline

def start (document : Document) : Timeline := ⟨[document], [], 0, none⟩

def current? (timeline : Timeline) : Option Document :=
  match timeline.draft with
  | some draft => some draft.document
  | none => timeline.snapshots[timeline.cursor]?

def description? (timeline : Timeline) : Option String :=
  if timeline.cursor = 0 then none else timeline.descriptions[timeline.cursor - 1]?.join

def cut (timeline : Timeline) : Timeline :=
  { timeline with
    snapshots := timeline.snapshots.take (timeline.cursor + 1)
    descriptions := timeline.descriptions.take timeline.cursor }

def dropOldest (timeline : Timeline) : Timeline :=
  { timeline with
    snapshots := timeline.snapshots.tail
    descriptions := timeline.descriptions.tail
    cursor := timeline.cursor - 1 }

/-- One step on from the cursor. Where that is a step more than the limit, the oldest snapshot is
dropped. -/
def extend (limit : Nat) (document : Document) (description : Option String)
    (timeline : Timeline) : Timeline :=
  let longer :=
    { timeline.cut with
      snapshots := timeline.cut.snapshots ++ [document]
      descriptions := timeline.cut.descriptions ++ [description]
      cursor := timeline.cursor + 1 }
  if 0 < limit ∧ limit < longer.cursor then longer.dropOldest else longer

def dispatch (limit : Nat) (action : Action) (timeline : Timeline) : Timeline × Bool :=
  match timeline.current? with
  | none => (timeline, false)
  | some document =>
      match action.apply document, timeline.draft with
      | .error _, _ => (timeline, false)
      | .ok next, none => (timeline.extend limit next none, true)
      | .ok next, some draft =>
          ({ timeline.cut with
              draft := some
                { draft with
                  document := next
                  changed := draft.changed || !action.isIdle document } }, true)

def beginBatch (timeline : Timeline) : Timeline :=
  match timeline.draft with
  | some _ => timeline
  | none =>
      { timeline with draft := timeline.current?.map fun document => ⟨document, false, none⟩ }

def describeBatch (description : String) (timeline : Timeline) : Timeline :=
  { timeline with
    draft := timeline.draft.map fun draft => { draft with description := some description } }

def endBatch (limit : Nat) (timeline : Timeline) : Timeline :=
  match timeline.draft with
  | none => timeline
  | some draft =>
      let closed := { timeline with draft := none }
      if draft.changed then closed.extend limit draft.document draft.description else closed

def undo (timeline : Timeline) : Timeline × Bool :=
  if 0 < timeline.cursor then ({ timeline with cursor := timeline.cursor - 1 }, true)
  else (timeline, false)

def redo (timeline : Timeline) : Timeline × Bool :=
  if timeline.cursor + 1 < timeline.snapshots.length then
    ({ timeline with cursor := timeline.cursor + 1 }, true)
  else (timeline, false)

def clear (timeline : Timeline) : Timeline := ⟨timeline.current?.toList, [], 0, none⟩

def answer (limit : Nat) (timeline : Timeline) : HistoryCall → Timeline × Bool
  | .dispatch action => timeline.dispatch limit action
  | .beginBatch => (timeline.beginBatch, true)
  | .describeBatch description => (timeline.describeBatch description, true)
  | .endBatch => (timeline.endBatch limit, true)
  | .undo => timeline.undo
  | .redo => timeline.redo
  | .clear => (timeline.clear, true)

def run (limit : Nat) : Timeline → List HistoryCall → Timeline
  | timeline, [] => timeline
  | timeline, call :: calls => (timeline.answer limit call).1.run limit calls

def answers (limit : Nat) : Timeline → List HistoryCall → List Bool
  | _, [] => []
  | timeline, call :: calls =>
      (timeline.answer limit call).2 :: (timeline.answer limit call).1.answers limit calls

end Timeline

namespace History

def shot (step : Step) : Document := step.revision.document

/-- While a batch is open, the timeline stands at the document it began with. -/
def base (history : History) : Document :=
  match history.batch with
  | none => history.current.document
  | some step => shot step

def draft (history : History) : Option Draft :=
  history.batch.map fun step =>
    ⟨history.current.document, step.revision.number ≠ history.current.number, step.description⟩

def timeline (history : History) : Timeline where
  snapshots := history.past.reverse.map shot ++ history.base :: history.future.map shot
  descriptions :=
    history.past.reverse.map Step.description ++ history.future.map Step.description
  cursor := history.past.length
  draft := history.draft

/-- Undo and redo wait until no batch is open. -/
def Allows (history : History) : HistoryCall → Prop
  | .undo | .redo => history.batch.isNone = true
  | _ => True

instance decidableAllows (history : History) :
    (call : HistoryCall) → Decidable (history.Allows call)
  | .undo | .redo => inferInstanceAs (Decidable (history.batch.isNone = true))
  | .dispatch _ | .beginBatch | .describeBatch _ | .endBatch | .clear =>
      inferInstanceAs (Decidable True)

def Orderly : History → List HistoryCall → Prop
  | _, [] => True
  | history, call :: calls => history.Allows call ∧ (history.answer call).1.Orderly calls

instance decidableOrderly :
    (history : History) → (calls : List HistoryCall) → Decidable (history.Orderly calls)
  | _, [] => inferInstanceAs (Decidable True)
  | history, call :: calls =>
      have := decidableOrderly (history.answer call).1 calls
      inferInstanceAs (Decidable (history.Allows call ∧ (history.answer call).1.Orderly calls))

variable {history : History}

theorem current_timeline (history : History) :
    history.timeline.current? = some history.current.document := by
  unfold Timeline.current? timeline draft base
  cases history.batch with
  | none => simp
  | some step => rfl

theorem draft_closed (closed : history.batch = none) : history.timeline.draft = none := by
  simp [timeline, draft, closed]

theorem draft_opened {step : Step} (begun : history.batch = some step) :
    history.timeline.draft = some ⟨history.current.document,
      step.revision.number ≠ history.current.number, step.description⟩ := by
  simp [timeline, draft, begun]

theorem cut_timeline (history : History) (draft : Option Draft) :
    ({ history.timeline with draft } : Timeline).cut =
      ⟨history.past.reverse.map shot ++ [history.base],
        history.past.reverse.map Step.description, history.past.length, draft⟩ := by
  simp only [Timeline.cut, timeline, Timeline.mk.injEq, and_true]
  constructor
  · rw [List.append_cons]
    exact List.take_left' (by simp)
  · exact List.take_left' (by simp)

/-- To push a step is to go one step on, from the document that the step comes from. -/
theorem timeline_push {next : History} {step : Step} (timeline : Timeline)
    (closed : next.batch = none)
    (cut : timeline.cut =
      ⟨next.past.reverse.map shot ++ [shot step], next.past.reverse.map Step.description,
        next.past.length, none⟩) :
    (next.push step).timeline =
      timeline.extend next.limit next.current.document step.description := by
  have cursor : timeline.cursor = next.past.length := congrArg Timeline.cursor cut
  have base : (next.push step).base = next.current.document := by
    simp [History.base, push_eq, closed]
  have draft : (next.push step).draft = none := by
    simp [History.draft, push_eq, closed]
  unfold History.timeline Timeline.extend
  rw [base, draft, push_eq, cut, cursor]
  by_cases full : 0 < next.limit ∧ next.limit < next.past.length + 1
  · rw [if_pos full, kept_full full, ← List.tail_reverse, List.reverse_cons]
    simp only [Timeline.dropOldest, Timeline.mk.injEq, and_true, List.map_tail, List.map_append,
      List.map_cons, List.map_nil, List.append_nil, List.length_dropLast, List.length_cons]
    rw [List.tail_append_of_ne_nil (List.append_ne_nil_of_right_ne_nil _ (List.cons_ne_nil _ _))]
  · rw [if_neg full, kept_room full]
    simp

/-- An action changes the draft of a batch unless it is idle. -/
theorem changed_advance (numbered : history.Numbered) {step : Step}
    (begun : history.batch = some step) (document : Document) (idle : Bool) :
    decide (step.revision.number ≠ (history.advance document idle).current.number) =
      (decide (step.revision.number ≠ history.current.number) || !idle) := by
  cases idle with
  | true =>
      have same : history.advance document true = history := rfl
      simp [same]
  | false =>
      have older : step.revision.number < history.nextNumber :=
        numbered.fresh (Or.inr ⟨step, Or.inr (Or.inr begun), rfl⟩)
      have number : (history.advance document false).current.number = history.nextNumber := rfl
      simp [number, Nat.ne_of_lt older]

theorem answer_dispatch (numbered : history.Numbered) (action : Action) :
    history.timeline.answer history.limit (.dispatch action) =
      ((history.answer (.dispatch action)).1.timeline, (history.answer (.dispatch action)).2) := by
  simp only [Timeline.answer, Timeline.dispatch, current_timeline]
  cases applied : action.apply history.current.document with
  | error fault => rw [answer_dispatch_error applied]
  | ok document =>
      have led := advance_document applied
      rw [answer_dispatch_ok applied]
      cases batch : history.batch with
      | none =>
          rw [draft_closed batch]
          simp only [dispatched, batch, Prod.mk.injEq, and_true]
          rw [timeline_push history.timeline]
          · simp [led]
          · simp [batch]
          · have cut := cut_timeline history history.draft
            simpa [timeline, shot, base, draft, batch] using cut
      | some step =>
          have changed := changed_advance numbered batch document
            (action.isIdle history.current.document)
          have cut : history.timeline.cut = _ := cut_timeline history history.draft
          rw [draft_opened batch]
          simp only [dispatched, batch, cut]
          simp only [timeline, draft, base, advance_batch, advance_past, batch, Option.map_some,
            led, changed, List.map_nil, List.append_nil]

theorem answer_end_batch (numbered : history.Numbered) :
    history.timeline.endBatch history.limit = history.endBatch.timeline := by
  cases batch : history.batch with
  | none =>
      simp only [Timeline.endBatch, draft_closed batch, endBatch, batch]
  | some step =>
      simp only [Timeline.endBatch, draft_opened batch, endBatch, batch]
      by_cases same : step.revision.number = history.current.number
      · have unchanged : step.revision = history.current :=
          numbered.unique (Or.inr ⟨step, Or.inr (Or.inr batch), rfl⟩) (Or.inl rfl) same
        simp [timeline, base, draft, batch, shot, unchanged]
      · have cut := cut_timeline history none
        rw [if_neg same, timeline_push { history.timeline with draft := none } rfl]
        · simp [same]
        · simpa [base, batch] using cut

theorem answer_undo (closed : history.batch = none) :
    history.timeline.undo =
      ((history.answer .undo).1.timeline, (history.answer .undo).2) := by
  simp only [answer, undo?]
  cases past : history.past with
  | nil => simp [Timeline.undo, timeline, past, attempt]
  | cons step rest => simp [Timeline.undo, timeline, past, attempt, base, draft, closed, shot]

theorem answer_redo (closed : history.batch = none) :
    history.timeline.redo =
      ((history.answer .redo).1.timeline, (history.answer .redo).2) := by
  simp only [answer, redo?]
  cases future : history.future with
  | nil => simp [Timeline.redo, timeline, future, attempt]
  | cons step rest => simp [Timeline.redo, timeline, future, attempt, base, draft, closed, shot]

theorem answer_timeline (numbered : history.Numbered) {call : HistoryCall}
    (allowed : history.Allows call) :
    history.timeline.answer history.limit call =
      ((history.answer call).1.timeline, (history.answer call).2) := by
  cases call with
  | dispatch action => exact answer_dispatch numbered action
  | beginBatch =>
      simp only [Timeline.answer, Timeline.beginBatch, answer, beginBatch, current_timeline]
      cases batch : history.batch with
      | none => simp [timeline, draft, base, batch, shot]
      | some step => simp [timeline, draft, batch]
  | describeBatch description =>
      simp only [Timeline.answer, Timeline.describeBatch, answer, describeBatch]
      cases batch : history.batch with
      | none => simp [timeline, draft, base, batch]
      | some step => simp [timeline, draft, base, batch, shot]
  | endBatch => exact congrArg (·, true) (answer_end_batch numbered)
  | undo => exact answer_undo (Option.isNone_iff_eq_none.1 allowed)
  | redo => exact answer_redo (Option.isNone_iff_eq_none.1 allowed)
  | clear =>
      simp only [Timeline.answer, Timeline.clear, current_timeline]
      simp [answer, clear, timeline, base, draft]

/-- While its calls are in order, a history does what its timeline does. -/
theorem run_timeline (numbered : history.Numbered) {calls : List HistoryCall}
    (orderly : history.Orderly calls) :
    (history.run calls).timeline = history.timeline.run history.limit calls ∧
      history.answers calls = history.timeline.answers history.limit calls := by
  induction calls generalizing history with
  | nil => exact ⟨rfl, rfl⟩
  | cons call calls ih =>
      obtain ⟨allowed, later⟩ := orderly
      have step := answer_timeline numbered allowed
      obtain ⟨same, reports⟩ := ih (numbered.answer call) later
      rw [limit_answer] at same reports
      simp only [run, answers, Timeline.run, Timeline.answers, step]
      exact ⟨same, by rw [reports]⟩

theorem description_timeline (history : History) :
    history.timeline.description? = history.description? := by
  unfold Timeline.description? timeline description?
  cases past : history.past with
  | nil => rfl
  | cons step rest => simp

/-- A history goes through the snapshots of one timeline: what can be asked of it is what the
timeline says, whether and how it changes with a call as well, and no more steps are kept than the
limit. -/
theorem run_follows_timeline (document : Document) (limit : Nat) {calls : List HistoryCall}
    (orderly : (ofDocument document limit).Orderly calls) :
    let history := (ofDocument document limit).run calls
    let timeline := (Timeline.start document).run limit calls
    history.timeline = timeline ∧
      (ofDocument document limit).answers calls = (Timeline.start document).answers limit calls ∧
      timeline.current? = some history.current.document ∧
      history.past.length = timeline.cursor ∧
      history.past.length + 1 + history.future.length = timeline.snapshots.length ∧
      history.description? = timeline.description? ∧
      (∀ call, (history.answer call).2 = false → (history.answer call).1 = history) ∧
      (0 < limit → history.past.length + history.future.length ≤ limit) := by
  intro history timeline
  have numbered := numbered_of_document document limit
  have same : history.timeline = timeline := (run_timeline numbered orderly).1
  have bounded := (bounded_of_document document limit).run calls
  have kept : history.limit = limit := limit_run _ calls
  rw [← same]
  refine ⟨rfl, (run_timeline numbered orderly).2, current_timeline history, rfl, ?_,
    (description_timeline history).symm, fun _ => answer_failed, ?_⟩
  · simp only [History.timeline, List.length_append, List.length_map, List.length_reverse,
      List.length_cons]
    omega
  · intro limited
    rw [← kept] at limited ⊢
    exact bounded limited

/-- A step, a batch of two more, and a way back that is one undo longer than the single step that is
kept; the actions without a node and with the name that is there already are no new documents. -/
def sampleCalls : List HistoryCall :=
  [.dispatch (.setNodeName "r" "a"), .beginBatch, .describeBatch "two",
    .dispatch (.setNodeName "r" "b"), .dispatch (.removeNode "x"), .dispatch (.setNodeName "r" "c"),
    .endBatch, .undo, .undo, .redo, .beginBatch, .dispatch (.setNodeName "r" "c"), .endBatch]

theorem run_follows_timeline_sample :
    let history := ofDocument (Document.ofRoot "r") 1
    history.Orderly sampleCalls ∧
      (history.run sampleCalls).timeline.snapshots.map (fun document => document.labelOf "r") =
        ["a", "c"] ∧
      (history.run sampleCalls).description? = some "two" ∧
      history.answers sampleCalls =
        [true, true, true, true, false, true, true, true, false, true, true, true, true] := by
  intro history
  have orderly : history.Orderly sampleCalls := by decide +kernel
  obtain ⟨same, reports, _, _, _, description, _⟩ :=
    run_follows_timeline (Document.ofRoot "r") 1 orderly
  refine ⟨orderly, ?_, ?_, ?_⟩
  · rw [same]
    decide +kernel
  · rw [description]
    decide +kernel
  · rw [reports]
    decide +kernel

end History

end PageBuilder
