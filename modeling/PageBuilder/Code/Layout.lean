import PageBuilder.Code.Indent
import PageBuilder.Text.Blank

/-!
Layout of code: every line is indented by the brackets and tags that are open before it. However
many of them one line opens, what follows is indented by one level. Lines that start inside a text
between backticks stay as they are.
-/

namespace PageBuilder.Code

inductive LayoutFault where
  | unbalanced (line : Nat)
  | unterminatedString (line : Nat)
  deriving DecidableEq

def LayoutFault.message : LayoutFault → String
  | .unbalanced line => s!"Unbalanced brackets at line {line}"
  | .unterminatedString line => s!"Unterminated string literal at line {line}"

namespace Layout

/-- Where a character stands: in code, between quotes, or between backticks. -/
inductive Mode where
  | code
  | quoted (quote : Char)
  | template
  deriving DecidableEq

/-- The levels that a line closes below where it starts, and those that it leaves open. -/
structure Movement where
  closed : Nat
  opened : Nat
  deriving DecidableEq

def Movement.still : Movement := ⟨0, 0⟩

def Movement.open (movement : Movement) : Movement :=
  { movement with opened := movement.opened + 1 }

def Movement.close (movement : Movement) : Movement :=
  if 0 < movement.opened then { movement with opened := movement.opened - 1 }
  else { movement with closed := movement.closed + 1 }

def isOpening (char : Char) : Bool := char = '(' || char = '\x7b' || char = '['

def isClosing (char : Char) : Bool := char = ')' || char = '\x7d' || char = ']'

def isQuote (char : Char) : Bool := char = '"' || char = '\''

/-- The mode at the end of a line and its movement. The rest of a line after two slashes in code
does not count. -/
def scan : Mode → Movement → List Char → Mode × Movement
  | mode, movement, [] => (mode, movement)
  | .code, movement, '/' :: '/' :: _ => (.code, movement)
  | .code, movement, char :: rest =>
      if isQuote char then scan (.quoted char) movement rest
      else if char = '`' then scan .template movement rest
      else if isOpening char then scan .code movement.open rest
      else if isClosing char then scan .code movement.close rest
      else scan .code movement rest
  | mode, movement, '\\' :: _ :: rest => scan mode movement rest
  | .quoted quote, movement, char :: rest =>
      if char = quote then scan .code movement rest else scan (.quoted quote) movement rest
  | .template, movement, char :: rest =>
      if char = '`' then scan .code movement rest else scan .template movement rest

structure LineScan where
  movement : Movement
  inTemplate : Bool

def scanLine (inTemplate : Bool) (number : Nat) (line : List Char) :
    Except LayoutFault LineScan :=
  match scan (if inTemplate then .template else .code) .still line with
  | (.quoted _, _) => .error (.unterminatedString number)
  | (mode, movement) => .ok ⟨movement, mode = .template⟩

/-- Whether a line starts a tag that it does not end. -/
def opensTag (line : List Char) : Bool :=
  line.head? = some '<'
    && !(line.getLast? = some '>' && line.dropLast.getLast? = some '/')
    && (line.getLast? = some '>' || !line.contains '>')

def closesTag (line : List Char) : Bool := line.take 2 = ['<', '/']

def withTags (line : List Char) (movement : Movement) : Movement :=
  if line = ['>'] then ⟨1, 1⟩
  else if line = ['/', '>'] then ⟨1, 0⟩
  else if closesTag line then { movement with closed := movement.closed + 1 }
  else if opensTag line then movement.open
  else movement

/-- The open levels in groups, one for each line that opened some, the last line first. -/
abbrev Groups := List Nat

def closeLevels : Nat → Groups → Option Groups
  | 0, groups => some groups
  | _ + 1, [] => none
  | count + 1, top :: rest =>
      if count + 1 < top then some ((top - (count + 1)) :: rest)
      else closeLevels (count + 1 - top) rest

def openLevels (count : Nat) (groups : Groups) : Groups :=
  if count = 0 then groups else count :: groups

structure State where
  groups : Groups
  inTemplate : Bool
  deriving DecidableEq

def State.start : State := ⟨[], false⟩

def close (number count : Nat) (groups : Groups) : Except LayoutFault Groups :=
  match closeLevels count groups with
  | some groups => .ok groups
  | none => .error (.unbalanced number)

/-- A line as it is laid out, and the state after it. -/
def layoutLine (state : State) (number : Nat) (raw : List Char) :
    Except LayoutFault (List Char × State) :=
  if state.inTemplate then do
    let scanned ← scanLine true number raw
    let groups ← close number scanned.movement.closed state.groups
    .ok (raw, ⟨openLevels scanned.movement.opened groups, scanned.inTemplate⟩)
  else
    let line := Text.trim raw
    if line.isEmpty then .ok ([], state)
    else do
      let scanned ← scanLine false number line
      let movement := withTags line scanned.movement
      let groups ← close number movement.closed state.groups
      .ok
        (indentation groups.length ++ line,
          ⟨openLevels movement.opened groups, scanned.inTemplate⟩)

/-- `number` counts the lines before these. -/
def layoutLines (state : State) (number : Nat) :
    List (List Char) → Except LayoutFault (List (List Char))
  | [] => if state.groups.isEmpty then .ok [] else .error (.unbalanced number)
  | raw :: rest => do
      let (line, state) ← layoutLine state (number + 1) raw
      let lines ← layoutLines state (number + 1) rest
      .ok (line :: lines)

end Layout

def layout (text : String) : Except LayoutFault String := do
  let lines ← Layout.layoutLines .start 0 (Text.lines text.toList)
  .ok (String.ofList (Text.joinLines lines))

end PageBuilder.Code
