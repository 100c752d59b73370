import PageBuilder.Action

/-!
The history of a document: the steps that can be undone and those that can be done again. A batch
gathers several edits in one step. Every new document gets a number of its own, which it keeps when
undoing brings it back.
-/

namespace PageBuilder

structure Revision where
  document : Document
  number : Nat

/-- The document on the other side of a step. -/
structure Step where
  revision : Revision
  description : Option String

structure History where
  current : Revision
  /-- Steps to undo, the newest first. -/
  past : List Step
  /-- Steps to do again, the one undone last first. -/
  future : List Step
  /-- No more steps than this are kept; zero keeps all. -/
  limit : Nat
  /-- The open batch, with the document it began with. -/
  batch : Option Step
  nextNumber : Nat

namespace History

def defaultLimit : Nat := 100

def ofDocument (document : Document) (limit : Nat) : History :=
  ⟨⟨document, 0⟩, [], [], limit, none, 1⟩

/-- Adds a step, drops the oldest one past the limit, and forgets what was undone. -/
def push (history : History) (step : Step) : History :=
  let past := step :: history.past
  let past := if 0 < history.limit && history.limit < past.length then past.dropLast else past
  { history with past, future := [] }

/-- Moves on to a document; one that an idle action leaves as it is keeps its number. -/
def advance (history : History) (document : Document) (idle : Bool) : History :=
  if idle then history
  else
    { history with
      current := ⟨document, history.nextNumber⟩
      nextNumber := history.nextNumber + 1 }

def dispatch (history : History) (action : Action) : Except EditFault History := do
  let before := history.current
  let document ← action.apply before.document
  let history := history.advance document (action.isIdle before.document)
  match history.batch with
  | none => .ok (history.push ⟨before, none⟩)
  | some _ => .ok { history with future := [] }

def beginBatch (history : History) : History :=
  match history.batch with
  | none => { history with batch := some ⟨history.current, none⟩ }
  | some _ => history

def describeBatch (history : History) (description : String) : History :=
  { history with
    batch := history.batch.map fun step => { step with description := some description } }

/-- A batch that ends with the document it began with is no step. -/
def endBatch (history : History) : History :=
  match history.batch with
  | none => history
  | some step =>
      let history := { history with batch := none }
      if step.revision.number = history.current.number then history else history.push step

def undo? (history : History) : Option History :=
  match history.past with
  | [] => none
  | step :: past =>
      some
        { history with
          current := step.revision
          past
          future := { step with revision := history.current } :: history.future }

def redo? (history : History) : Option History :=
  match history.future with
  | [] => none
  | step :: future =>
      some
        { history with
          current := step.revision
          past := { step with revision := history.current } :: history.past
          future }

def clear (history : History) : History := { history with past := [], future := [], batch := none }

def description? (history : History) : Option String :=
  history.past.head?.bind Step.description

end History

end PageBuilder
