/-!
Lines of a text. A line feed ends a line and takes one carriage return before it along; the last
line needs no end.
-/

namespace PageBuilder.Text

/-- A carriage return is dropped only where a line feed followed it. -/
def dropReturn (line : List Char) : List Char :=
  if line.getLast? = some '\r' then line.dropLast else line

/-- `pending` holds the characters of the current line, newest first. -/
def splitLines (pending : List Char) : List Char → List (List Char)
  | [] => if pending.isEmpty then [] else [pending.reverse]
  | char :: rest =>
      if char = '\n' then dropReturn pending.reverse :: splitLines [] rest
      else splitLines (char :: pending) rest

def lines (chars : List Char) : List (List Char) := splitLines [] chars

def joinLines (lines : List (List Char)) : List Char :=
  lines.flatMap fun line => line ++ ['\n']

theorem split_lines_append (pending line rest : List Char) (unbroken : '\n' ∉ line) :
    splitLines pending (line ++ '\n' :: rest)
      = dropReturn (pending.reverse ++ line) :: splitLines [] rest := by
  induction line generalizing pending with
  | nil => simp [splitLines]
  | cons char line ih =>
      have notFeed : char ≠ '\n' := fun same => unbroken (same ▸ List.mem_cons_self)
      have later : '\n' ∉ line := fun member => unbroken (List.mem_cons_of_mem _ member)
      simp [splitLines, notFeed, ih _ later]

/-- Lines that hold no line feed and end in no carriage return are read back as they are. -/
theorem lines_join_lines (texts : List (List Char))
    (unbroken : ∀ line ∈ texts, '\n' ∉ line)
    (noReturn : ∀ line ∈ texts, line.getLast? ≠ some '\r') :
    lines (joinLines texts) = texts := by
  induction texts with
  | nil => rfl
  | cons line texts ih =>
      have first := split_lines_append [] line (joinLines texts) (unbroken line (by simp))
      have tail := ih (fun line member => unbroken line (by simp [member]))
        (fun line member => noReturn line (by simp [member]))
      have kept : dropReturn line = line := by simp [dropReturn, noReturn line (by simp)]
      simp only [joinLines, lines, List.flatMap_cons, List.append_assoc, List.singleton_append,
        List.reverse_nil, List.nil_append, kept] at first tail ⊢
      rw [first, tail]

end PageBuilder.Text
