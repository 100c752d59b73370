import PageBuilder.Json.Printer
import PageBuilder.Reference.Token

/-!
References: a name and the path taken from it. The displayed form of a reference is one of the
texts that say it.
-/

namespace PageBuilder

inductive PathSegment where
  | field (name : String)
  | index (number : Nat)
  | key (text : String)
  deriving DecidableEq

structure Reference where
  root : String
  segments : List PathSegment
  deriving DecidableEq

/-- What a place in a reference asks for. -/
inductive Expected where
  | root
  | segment
  | field
  | indexOrKey
  | closing
  deriving DecidableEq

def Expected.text : Expected → String
  | .root => "a name"
  | .segment => "`.` or `[`"
  | .field => "a field name"
  | .indexOrKey => "an index or a quoted key"
  | .closing => "`]`"

inductive ReferenceFault where
  | unclosed (place : Nat)
  | empty (place : Nat)
  | unexpectedToken (place : Nat) (expected : Expected) (found : PathToken)
  | unexpectedEnd (place : Nat) (expected : Expected)
  | invalidToken (place : Nat)
  deriving DecidableEq

def ReferenceFault.message : ReferenceFault → String
  | .unclosed place => s!"Unclosed interpolation starting at {place}"
  | .empty place => s!"Empty interpolation at {place}"
  | .unexpectedToken place expected found =>
      s!"Unexpected token at {place}: expected {expected.text}, found {found.describe}"
  | .unexpectedEnd place expected =>
      s!"Unexpected end of interpolation at {place}: expected {expected.text}"
  | .invalidToken place => s!"Invalid character at {place}"

namespace PathSegment

def field? : PathSegment → Option String
  | .field word => some word
  | _ => none

def text : PathSegment → String
  | .field word => "." ++ word
  | .index number => s!"[{number}]"
  | .key word => "[" ++ Json.stringText word ++ "]"

def textOf (segments : List PathSegment) : String := String.join (segments.map text)

end PathSegment

namespace Reference

def text (reference : Reference) : String :=
  reference.root ++ PathSegment.textOf reference.segments

open PathToken (Placed)

def segmentFault (finish : Nat) : List Placed → ReferenceFault
  | [] => .unexpectedEnd finish .segment
  | [⟨.dot, _⟩] => .unexpectedEnd finish .field
  | ⟨.dot, _⟩ :: found :: _ => .unexpectedToken found.place .field found.token
  | [⟨.opening, _⟩] => .unexpectedEnd finish .indexOrKey
  | [⟨.opening, _⟩, ⟨.number _, _⟩] => .unexpectedEnd finish .closing
  | [⟨.opening, _⟩, ⟨.text _, _⟩] => .unexpectedEnd finish .closing
  | ⟨.opening, _⟩ :: ⟨.number _, _⟩ :: found :: _ =>
      .unexpectedToken found.place .closing found.token
  | ⟨.opening, _⟩ :: ⟨.text _, _⟩ :: found :: _ =>
      .unexpectedToken found.place .closing found.token
  | ⟨.opening, _⟩ :: found :: _ => .unexpectedToken found.place .indexOrKey found.token
  | found :: _ => .unexpectedToken found.place .segment found.token

def segmentsOf (finish : Nat) : List Placed → Except ReferenceFault (List PathSegment)
  | [] => .ok []
  | ⟨.dot, _⟩ :: ⟨.name field, _⟩ :: rest =>
      (segmentsOf finish rest).map (.field field :: ·)
  | ⟨.opening, _⟩ :: ⟨.number index, _⟩ :: ⟨.closing, _⟩ :: rest =>
      (segmentsOf finish rest).map (.index index :: ·)
  | ⟨.opening, _⟩ :: ⟨.text key, _⟩ :: ⟨.closing, _⟩ :: rest =>
      (segmentsOf finish rest).map (.key key :: ·)
  | tokens => .error (segmentFault finish tokens)

def ofTokens (start finish : Nat) : List Placed → Except ReferenceFault Reference
  | [] => .error (.empty start)
  | ⟨.name root, _⟩ :: rest => (segmentsOf finish rest).map (⟨root, ·⟩)
  | found :: _ => .error (.unexpectedToken found.place .root found.token)

/-- Reads a reference that starts at byte `start` of a longer text. A character that belongs to no
token counts before anything else that is wrong. -/
def readAt (start : Nat) (chars : List Char) : Except ReferenceFault Reference :=
  match PathToken.scan start chars with
  | .error place => .error (.invalidToken place)
  | .ok tokens => ofTokens start (start + PathToken.byteSize chars) tokens

def read (text : String) : Except ReferenceFault Reference := readAt 0 text.toList

end Reference

end PageBuilder
