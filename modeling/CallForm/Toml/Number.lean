/-
  CallForm.Toml.Number — numbers, dates and times of TOML, each read as far as it goes. A date
  is tried before a float and a float before an integer.
-/

import CallForm.Json.Numeral
import CallForm.Toml.Value

namespace CallForm.Toml

/-! ## Runs of digits -/

/-- Digits, of which underscores may stand between any two; the underscores are dropped. -/
def spacedDigits (isDigit : Char → Bool) : (bound : Nat) → List Char →
    Option (List Char × List Char)
  | 0, _ => none
  | bound + 1, cs =>
    match cs with
    | c :: cs =>
      if isDigit c then
        match cs with
        | '_' :: cs => (spacedDigits isDigit bound cs).map fun r => (c :: r.1, r.2)
        | d :: _ =>
          if isDigit d then (spacedDigits isDigit bound cs).map fun r => (c :: r.1, r.2)
          else some ([c], cs)
        | [] => some ([c], [])
      else none
    | [] => none

def digits? (isDigit : Char → Bool) (cs : List Char) : Option (List Char × List Char) :=
  spacedDigits isDigit cs.length cs

def hexValue (c : Char) : Nat :=
  if c.isDigit then c.toNat - 48 else if 'a' ≤ c then c.toNat - 87 else c.toNat - 55

/-- The number that digits of a base spell. -/
def valueOf (base : Nat) (ds : List Char) : Nat := ds.foldl (fun n c => base * n + hexValue c) 0

/-- A sign, if there is one. -/
def sign : List Char → Bool × List Char
  | '-' :: cs => (true, cs)
  | '+' :: cs => (false, cs)
  | cs => (false, cs)

/-- Decimal digits without a zero in front of another digit. -/
def decimal? (cs : List Char) : Option (List Char × List Char) :=
  match cs with
  | '0' :: cs => some (['0'], cs)
  | cs => digits? Char.isDigit cs

/-! ## Integers -/

def isHexDigit (c : Char) : Bool := c.isDigit || ('a' ≤ c && c ≤ 'f') || ('A' ≤ c && c ≤ 'F')

def isOctalDigit (c : Char) : Bool := '0' ≤ c && c ≤ '7'

def isBinaryDigit (c : Char) : Bool := c == '0' || c == '1'

/-- Integers have 64 bits, one of them for the sign. -/
def bounded (i : Int) : Option Value :=
  if Int64.minValue.toInt ≤ i ∧ i ≤ Int64.maxValue.toInt then some (.integer i) else none

def based? (base : Nat) (isDigit : Char → Bool) (cs : List Char) :
    Option (Value × List Char) := do
  let (ds, rest) ← digits? isDigit cs
  let v ← bounded (valueOf base ds)
  some (v, rest)

def integer? (cs : List Char) : Option (Value × List Char) :=
  match cs with
  | '0' :: 'x' :: cs => based? 16 isHexDigit cs
  | '0' :: 'o' :: cs => based? 8 isOctalDigit cs
  | '0' :: 'b' :: cs => based? 2 isBinaryDigit cs
  | cs => do
    let (negative, cs) := sign cs
    let (ds, rest) ← decimal? cs
    let n : Int := valueOf 10 ds
    let v ← bounded (if negative then -n else n)
    some (v, rest)

/-! ## Floats -/

/-- The float nearest to a decimal. -/
def nearest (negative : Bool) (ds : List Char) (exponent : Int) : Float :=
  let n := Json.digitsValue ds
  let places := (ds.dropWhile (· == '0')).length + exponent
  let size : Float :=
    if n = 0 ∨ places < -400 then 0.0
    else if 400 < places then 1.0 / 0.0
    else Float.ofScientific n (decide (exponent < 0)) exponent.natAbs
  if negative then -size else size

/-- The digits after a point, if there is one. -/
def fraction? : List Char → Option (List Char × List Char)
  | '.' :: cs => digits? Char.isDigit cs
  | cs => some ([], cs)

/-- An exponent, if there is one. -/
def exponent? (cs : List Char) : Option (Option Int × List Char) :=
  match cs with
  | c :: rest =>
    if c = 'e' ∨ c = 'E' then do
      let (negative, rest) := sign rest
      let (ds, rest) ← digits? Char.isDigit rest
      let n : Int := Json.digitsValue ds
      some (some (if negative then -n else n), rest)
    else some (none, cs)
  | [] => some (none, cs)

/-- A float with a point or an exponent; one too large for its sign is refused if positive. -/
def pointed? (cs : List Char) : Option (Value × List Char) := do
  let (negative, cs) := sign cs
  let (whole, rest) ← decimal? cs
  let (fraction, rest) ← fraction? rest
  let (exponent, rest) ← exponent? rest
  if fraction.isEmpty && exponent.isNone then none
  else
    let x := nearest negative (whole ++ fraction) (exponent.getD 0 - fraction.length)
    if x.isInf && !negative then none else some (.float x, rest)

def special? (cs : List Char) : Option (Value × List Char) :=
  let (negative, cs) := sign cs
  let size : Option (Float × List Char) := match cs with
    | 'i' :: 'n' :: 'f' :: cs => some (1.0 / 0.0, cs)
    | 'n' :: 'a' :: 'n' :: cs => some (0.0 / 0.0, cs)
    | _ => none
  size.map fun r => (.float (if negative then -r.1 else r.1), r.2)

/-! ## Dates and times -/

/-- A number of exactly `count` digits between two ends. -/
def fixed? (count low high : Nat) (cs : List Char) : Option (Nat × List Char) :=
  let ds := cs.take count
  let n := Json.digitsValue ds
  if ds.length = count ∧ ds.all Char.isDigit ∧ low ≤ n ∧ n ≤ high then some (n, cs.drop count)
  else none

def expect (c : Char) : List Char → Option (List Char)
  | d :: cs => if d = c then some cs else none
  | [] => none

def isLeap (year : Nat) : Bool := year % 4 = 0 && (year % 100 ≠ 0 || year % 400 = 0)

def daysIn (year month : Nat) : Nat :=
  if month = 2 then (if isLeap year then 29 else 28)
  else if month = 4 ∨ month = 6 ∨ month = 9 ∨ month = 11 then 30
  else 31

/-- Digits filled up with zeros on the left. -/
def padded (width n : Nat) : String :=
  let ds := Nat.toDigits 10 n
  String.ofList (List.replicate (width - ds.length) '0' ++ ds)

def date? (cs : List Char) : Option (String × List Char) := do
  let (year, rest) ← fixed? 4 0 9999 cs
  let rest ← expect '-' rest
  let (month, rest) ← fixed? 2 1 12 rest
  let rest ← expect '-' rest
  let (day, rest) ← fixed? 2 1 31 rest
  if day ≤ daysIn year month then
    some (padded 4 year ++ "-" ++ padded 2 month ++ "-" ++ padded 2 day, rest)
  else none

/-- Nine digits at most are kept of a second's fraction, without zeros at the end. -/
def secondFraction (ds : List Char) : String :=
  match ((ds.take 9).reverse.dropWhile (· == '0')).reverse with
  | [] => ""
  | ds => "." ++ String.ofList ds

/-- A time of day whose hour is at most `lastHour`. -/
def time? (lastHour : Nat) (cs : List Char) : Option (String × List Char) := do
  let (hour, rest) ← fixed? 2 0 lastHour cs
  let rest ← expect ':' rest
  let (minute, rest) ← fixed? 2 0 59 rest
  let rest ← expect ':' rest
  let (second, rest) ← fixed? 2 0 60 rest
  let text := padded 2 hour ++ ":" ++ padded 2 minute ++ ":" ++ padded 2 second
  match rest with
  | '.' :: c :: more =>
    if c.isDigit then
      let ds := (c :: more).takeWhile Char.isDigit
      some (text ++ secondFraction ds, (c :: more).dropWhile Char.isDigit)
    else some (text, rest)
  | _ => some (text, rest)

/-- The distance from universal time, if one is given; without distance the sign is plus. -/
def offset? (cs : List Char) : Option (String × List Char) :=
  match cs with
  | c :: rest =>
    if c = 'Z' ∨ c = 'z' then some ("Z", rest)
    else if c = '+' ∨ c = '-' then do
      let (hour, rest) ← fixed? 2 0 23 rest
      let rest ← expect ':' rest
      let (minute, rest) ← fixed? 2 0 59 rest
      let mark := if c = '-' ∧ (hour, minute) ≠ (0, 0) then "-" else "+"
      some (mark ++ padded 2 hour ++ ":" ++ padded 2 minute, rest)
    else some ("", cs)
  | [] => some ("", [])

/-- A date, a time, or a date with a time and perhaps an offset. -/
def moment? (cs : List Char) : Option (Value × List Char) :=
  match date? cs with
  | none => (time? 23 cs).map fun r => (.moment r.1, r.2)
  | some (date, rest) =>
    let clock : Option (String × List Char) := match rest with
      | c :: rest => if c = 'T' ∨ c = 't' ∨ c = ' ' then time? 23 rest else none
      | [] => none
    match clock with
    | none => some (.moment date, rest)
    | some (time, rest) =>
      (offset? rest).map fun r => (.moment (date ++ "T" ++ time ++ r.1), r.2)

/-- The distance from universal time at the end of a text: at most a day, whatever its minutes. -/
def longOffset? (cs : List Char) : Option String :=
  match cs with
  | [] => some ""
  | c :: rest =>
    if c = 'Z' ∨ c = 'z' then (if rest.isEmpty then some "Z" else none)
    else if c = '+' ∨ c = '-' then do
      let (hours, rest) ← fixed? 2 0 99 rest
      let rest ← expect ':' rest
      let (minutes, rest) ← fixed? 2 0 99 rest
      let total := 60 * hours + minutes
      let mark := if c = '-' ∧ total ≠ 0 then "-" else "+"
      if rest.isEmpty ∧ total ≤ 24 * 60 then
        some (mark ++ padded 2 (total / 60) ++ ":" ++ padded 2 (total % 60))
      else none
    else none

/-- The date or time that a whole text spells. It is read less strictly than in a document: the
    hour may be 24, and a date may have an offset but no time. -/
def momentText? (cs : List Char) : Option String := do
  if cs[2]? = some ':' then
    let (time, rest) ← time? 24 cs
    if rest.isEmpty then some time else none
  else
    let (date, rest) ← date? cs
    match rest with
    | [] => some date
    | c :: more =>
      if c = 'T' ∨ c = 't' ∨ c = ' ' then
        let (time, rest) ← time? 24 more
        let offset ← longOffset? rest
        some (date ++ "T" ++ time ++ offset)
      else
        let offset ← longOffset? rest
        some (date ++ offset)

/-- A number, a date or a time. -/
def number? (cs : List Char) : Option (Value × List Char) :=
  ((moment? cs).orElse fun _ => pointed? cs).orElse fun _ =>
    (special? cs).orElse fun _ => integer? cs

end CallForm.Toml
