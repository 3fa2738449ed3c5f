/-
  CallForm.Decimal.Shortest — the shortest decimal that reads back as a given binary float.

  A finite float of size m · 2^q stands for every number that rounds to it; of the decimals
  with the fewest digits among those numbers the nearest one is chosen, and of two equally near
  ones the even one. Two layouts write it: `plain` never uses an exponent, `scientific` does
  for very large and very small numbers.
-/

namespace CallForm.Decimal

/-- The number `digits · 10 ^ exponent`. -/
structure Scaled where
  digits : Nat
  exponent : Int
  deriving DecidableEq, Repr

/-- The fraction `num / den`. -/
structure Ratio where
  num : Nat
  den : Nat

def Ratio.ofScaled (n : Nat) (base : Nat) (exponent : Int) : Ratio :=
  if 0 ≤ exponent then ⟨n * base.pow exponent.toNat, 1⟩ else ⟨n, base.pow (-exponent).toNat⟩

def Ratio.le (a b : Ratio) : Bool := a.num * b.den ≤ b.num * a.den

def Ratio.lt (a b : Ratio) : Bool := a.num * b.den < b.num * a.den

/-- How far apart two fractions are, as a fraction. -/
def Ratio.distance (a b : Ratio) : Ratio :=
  let x := a.num * b.den
  let y := b.num * a.den
  ⟨max x y - min x y, a.den * b.den⟩

def Scaled.ratio (d : Scaled) : Ratio := .ofScaled d.digits 10 d.exponent

/-- The numbers that round to a float: the float, the two ends, and whether they belong. -/
structure Interval where
  value : Ratio
  low : Ratio
  high : Ratio
  closed : Bool

def Interval.contains (i : Interval) (x : Ratio) : Bool :=
  if i.closed then i.low.le x && x.le i.high else i.low.lt x && x.lt i.high

/-- The interval of the float m · 2^q; the gap below it is halved if `narrow`. -/
def Interval.ofBinary (m : Nat) (q : Int) (narrow : Bool) : Interval where
  value := .ofScaled (4 * m) 2 (q - 2)
  low := .ofScaled (if narrow then 4 * m - 1 else 4 * m - 2) 2 (q - 2)
  high := .ofScaled (4 * m + 2) 2 (q - 2)
  closed := m % 2 = 0

/-- The least `k` with `x < 10 ^ k`, for a positive fraction. -/
def magnitude (x : Ratio) : Int :=
  let whole := x.num / x.den
  if 0 < whole then (Nat.toDigits 10 whole).length
  else
    let places := (Nat.toDigits 10 (x.den / x.num)).length
    if x.den = x.num * Nat.pow 10 (places - 1) then 2 - places else 1 - places

/-- The nearest decimal with `count` digits in the interval, if there is one. -/
def withDigits? (i : Interval) (count : Nat) : Option Scaled :=
  let exponent := magnitude i.value - count
  let unit := Ratio.ofScaled 1 10 exponent
  let below := i.value.num * unit.den / (i.value.den * unit.num)
  let lower : Scaled := ⟨below, exponent⟩
  let upper : Scaled := ⟨below + 1, exponent⟩
  match i.contains lower.ratio, i.contains upper.ratio with
  | true, true =>
    let down := i.value.distance lower.ratio
    let up := i.value.distance upper.ratio
    if down.lt up then some lower
    else if up.lt down then some upper
    else if below % 2 = 0 then some lower else some upper
  | true, false => some lower
  | false, true => some upper
  | false, false => none

/-- Seventeen digits always suffice. -/
def shortest (i : Interval) : Scaled :=
  ((List.range 17).findSome? fun n => withDigits? i (n + 1)).getD ⟨0, 0⟩

/-! ## Floats -/

/-- A float's sign and size. -/
inductive Parts where
  | nan
  | infinite (negative : Bool)
  | zero (negative : Bool)
  | finite (negative : Bool) (mantissa : Nat) (exponent : Int) (narrow : Bool)
  deriving DecidableEq, Repr

/-- The parts that the 64 bits of a float stand for. -/
def Parts.ofBits (bits : Nat) : Parts :=
  let negative := bits / Nat.pow 2 63 % 2 = 1
  let power : Nat := bits / Nat.pow 2 52 % 2048
  let fraction := bits % Nat.pow 2 52
  if power = 2047 then (if fraction = 0 then .infinite negative else .nan)
  else if power = 0 then
    (if fraction = 0 then .zero negative else .finite negative fraction (-1074) false)
  else .finite negative (Nat.pow 2 52 + fraction) ((power : Int) - 1075) (fraction = 0 && 1 < power)

/-- The significant digits of a decimal, without zeros at the end, and how many of them stand
    before the point (none or fewer if it is not positive). -/
def Scaled.significant (d : Scaled) : List Char × Int :=
  let all := Nat.toDigits 10 d.digits
  ((all.reverse.dropWhile (· == '0')).reverse, all.length + d.exponent)

def zeros (n : Nat) : List Char := List.replicate n '0'

/-- Digits with the point after the first `point` of them, filled up with zeros. -/
def positional (digits : List Char) (point : Int) : String :=
  if point ≤ 0 then "0." ++ String.ofList (zeros (-point).toNat ++ digits)
  else if point.toNat < digits.length then
    String.ofList (digits.take point.toNat ++ '.' :: digits.drop point.toNat)
  else String.ofList (digits ++ zeros (point.toNat - digits.length))

def signed (negative : Bool) (text : String) : String := if negative then "-" ++ text else text

/-- A float written without an exponent; a whole number has no point. -/
def plain (x : Float) : String :=
  match Parts.ofBits x.toBits.toNat with
  | .nan => "NaN"
  | .infinite negative => signed negative "inf"
  | .zero negative => signed negative "0"
  | .finite negative m q narrow =>
    let (digits, point) := (shortest (.ofBinary m q narrow)).significant
    signed negative (positional digits point)

/-- A float written so that it is seen to be one: with a point, or with an exponent, which has a
    sign in any case, from 10^16 on and below 10^-5. -/
def scientific (x : Float) : String :=
  match Parts.ofBits x.toBits.toNat with
  | .nan => "NaN"
  | .infinite negative => signed negative "inf"
  | .zero negative => signed negative "0.0"
  | .finite negative m q narrow =>
    let (digits, point) := (shortest (.ofBinary m q narrow)).significant
    let text :=
      if digits.length ≤ point ∧ point ≤ 16 then positional digits point ++ ".0"
      else if -5 < point ∧ point ≤ 16 then positional digits point
      else
        let lead := String.ofList (digits.take 1)
        let others := String.ofList (digits.drop 1)
        let mark := if point ≤ 0 then "e-" else "e+"
        lead ++ (if others.isEmpty then "" else "." ++ others) ++ mark ++ (point - 1).natAbs.repr
    signed negative text

end CallForm.Decimal
