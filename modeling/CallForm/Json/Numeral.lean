/-
  CallForm.Json.Numeral — numbers as JSON writes them, and what they are worth: integers
  within 64 bits, floats beyond. Digits that no longer fit into 64 bits count only by their
  place, and a float is its significand times or divided by one power of ten.
-/

import CallForm.Decimal.Shortest

namespace CallForm.Json

/-- The parts of a number's text. Without a point `fraction` is empty; `mark` is the letter and
    the sign of the exponent, empty if there is none. -/
structure Numeral where
  negative : Bool := false
  whole : List Char
  fraction : List Char := []
  mark : List Char := []
  exponent : List Char := []
  deriving DecidableEq, Repr

namespace Numeral

def text (n : Numeral) : String :=
  String.ofList ((if n.negative then ['-'] else []) ++ n.whole ++
    (if n.fraction.isEmpty then [] else '.' :: n.fraction) ++ n.mark ++ n.exponent)

def ofNat (n : Nat) : Numeral := { whole := Nat.toDigits 10 n }

end Numeral

def digitValue (c : Char) : Nat := c.toNat - 48

/-- The number that decimal digits spell. -/
def digitsValue (cs : List Char) : Nat := cs.foldl (fun n c => 10 * n + digitValue c) 0

inductive Number where
  | natural (n : Nat)
  /-- The integer below zero of this size. -/
  | negative (n : Nat)
  | float (x : Float)

def maxNatural : Nat := UInt64.size - 1

/-- The digits that are kept, and the power of ten they are to be taken with. -/
structure Significand where
  value : Nat := 0
  exponent : Int := 0
  full : Bool := false

/-- A digit before the point: the first that does not fit, and all after it, only shift. -/
def Significand.whole (s : Significand) (c : Char) : Significand :=
  let value := 10 * s.value + digitValue c
  if s.full || maxNatural < value then ⟨s.value, s.exponent + 1, true⟩
  else ⟨value, s.exponent, false⟩

/-- A digit after the point: the first that does not fit, and all after it, are dropped. -/
def Significand.fraction (s : Significand) (c : Char) : Significand :=
  let value := 10 * s.value + digitValue c
  if s.full || maxNatural < value then ⟨s.value, s.exponent, true⟩
  else ⟨value, s.exponent - 1, false⟩

/-- A power of ten that a float can hold. -/
def powerOfTen (n : Nat) : Float := Float.ofScientific 1 false n

/-- `x · 10 ^ exponent`, or none if that is too large for a float. Four steps of 308 places
    bring every 64-bit number down to zero. -/
def scaled? (x : Float) (exponent : Int) : (steps : Nat) → Option Float
  | 0 => some x
  | steps + 1 =>
    if exponent.natAbs ≤ 308 then
      if 0 ≤ exponent then
        let y := x * powerOfTen exponent.natAbs
        if y.isInf then none else some y
      else some (x / powerOfTen exponent.natAbs)
    else if x == 0.0 then some x
    else if 0 ≤ exponent then none
    else scaled? (x / powerOfTen 308) (exponent + 308) steps

def Numeral.exponentNegative (n : Numeral) : Bool := n.mark.contains '-'

/-- The float that a number stands for, or none if it is too large. -/
def Numeral.float? (n : Numeral) (s : Significand) : Option Float :=
  let places := digitsValue n.exponent
  let size :=
    if Nat.pow 2 31 ≤ places then
      if s.value ≠ 0 ∧ ¬ n.exponentNegative then none else some 0.0
    else
      scaled? (Float.ofNat s.value)
        (if n.exponentNegative then s.exponent - places else s.exponent + places) 5
  size.map fun x => if n.negative then -x else x

/-- What a number is worth, or none if it is too large for a float. -/
def Numeral.value? (n : Numeral) : Option Number :=
  let whole := n.whole.foldl Significand.whole {}
  if n.fraction.isEmpty && n.mark.isEmpty && !whole.full then
    if !n.negative then some (.natural whole.value)
    else if whole.value = 0 || Nat.pow 2 63 < whole.value then
      some (.float (-(Float.ofNat whole.value)))
    else some (.negative whole.value)
  else
    (n.float? (n.fraction.foldl Significand.fraction { whole with full := false })).map .float

end CallForm.Json
