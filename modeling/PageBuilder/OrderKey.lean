import PageBuilder.Text.Quoted

/-!
Order keys: the places of siblings as texts that sort like numbers. A key is a fraction between
zero and one in base 62, with the digits of `0-9A-Za-z`, which stand in code point order. It never
ends in zero, so between any two keys there is room for one more.
-/

namespace PageBuilder.OrderKey

inductive Fault where
  | empty
  | foreignCharacter (key : String)
  | trailingZero (key : String)
  | outOfOrder (low high : String)
  deriving DecidableEq

def Fault.message : Fault → String
  | .empty => "Index keys can't be empty"
  | .foreignCharacter key => s!"{Text.quoted key} contains a character outside the key alphabet"
  | .trailingZero key => s!"{Text.quoted key} has a trailing zero digit"
  | .outOfOrder low high => s!"{Text.quoted low} must sort before {Text.quoted high}"

def base : Nat := 62

def digit? (char : Char) : Option Nat :=
  let code := char.toNat
  if 48 ≤ code && code ≤ 57 then some (code - 48)
  else if 65 ≤ code && code ≤ 90 then some (code - 55)
  else if 97 ≤ code && code ≤ 122 then some (code - 61)
  else none

def digitChar (digit : Nat) : Char :=
  if digit < 10 then Char.ofNat (digit + 48)
  else if digit < 36 then Char.ofNat (digit + 55)
  else Char.ofNat (digit + 61)

def check (key : String) : Except Fault Unit :=
  if key.isEmpty then .error .empty
  else if key.toList.any fun char => (digit? char).isNone then .error (.foreignCharacter key)
  else if key.toList.getLast? = some '0' then .error (.trailingZero key)
  else .ok ()

/-- Digits that lie after all of `low`. -/
def digitsAfter : List Nat → List Nat
  | [] => [(base + 1) / 2]
  | digit :: rest =>
      if 1 < base - digit then [(digit + base + 1) / 2] else digit :: digitsAfter rest

/-- Digits between `low` and `high`. Missing digits of `low` count as zeros; an exhausted `high`
sets no bound. -/
def digitsBetween (low : List Nat) : List Nat → List Nat
  | [] => digitsAfter low
  | high :: rest =>
      let digit := low.headD 0
      if digit = high then high :: digitsBetween low.tail rest
      else if 1 < high - digit then [(digit + high + 1) / 2]
      else if rest.isEmpty then digit :: digitsAfter low.tail
      else [high]

def digits (key : String) : List Nat := key.toList.filterMap digit?

def ofDigits (digits : List Nat) : String := String.ofList (digits.map digitChar)

def checkEnd : Option String → Except Fault Unit
  | none => .ok ()
  | some key => check key

def checkOrder : Option String → Option String → Except Fault Unit
  | some low, some high => if low < high then .ok () else .error (.outOfOrder low high)
  | _, _ => .ok ()

/-- A new key after `low` and before `high`. A missing end is open. -/
def between (low high : Option String) : Except Fault String := do
  checkEnd low
  checkEnd high
  checkOrder low high
  let start := digits (low.getD "")
  match high with
  | none => .ok (ofDigits (digitsAfter start))
  | some key => .ok (ofDigits (digitsBetween start (digits key)))

def after (last : Option String) : Except Fault String := between last none

def before (first : Option String) : Except Fault String := between none first

theorem digit_char (digit : Nat) (small : digit < base) :
    digit? (digitChar digit) = some digit := by
  have closed : ∀ d : Fin 62, digit? (digitChar d) = some d.val := by decide +kernel
  exact closed ⟨digit, small⟩

end PageBuilder.OrderKey
