/-
  CallForm.Config.KeyPath — places in a configuration, such as `codegen.argument_separator` or
  `parser[0]`, and how values are set there. Names are lower-cased as they are set.
-/

import CallForm.Config.Value
import CallForm.Text.Lower

namespace CallForm.Config

inductive Step where
  | field (name : String)
  | index (i : Int)
  deriving DecidableEq, Repr

/-- A first name and the steps down from it. -/
structure KeyPath where
  first : String
  steps : List Step
  deriving DecidableEq, Repr

/-- Why a text is no path. -/
inductive PathError where
  /-- A name is due. -/
  | name
  /-- A digit is due. -/
  | digit
  /-- An index does not fit into 64 bits. -/
  | range
  /-- Some other character is due. -/
  | mark
  deriving DecidableEq, Repr

def PathError.message : PathError → String
  | .name => "IsA"
  | .digit => "Digit"
  | .range => "Map on Result"
  | .mark => "Char"

/-! ## Reading -/

def isNameChar (c : Char) : Bool := c.isAlphanum || c == ' ' || c == '_' || c == '-'

def isSpace (c : Char) : Bool := c == ' ' || c == '\t'

/-- An index whose opening bracket is taken, up to and with the closing one. -/
def readIndex (cs : List Char) : Except PathError (Int × List Char) :=
  let cs := cs.dropWhile isSpace
  let (negative, cs) := match cs with
    | '-' :: cs => (true, cs)
    | cs => (false, cs)
  match cs.takeWhile Char.isDigit with
  | [] => .error .digit
  | ds =>
    let n : Int := Json.digitsValue ds
    let i := if negative then -n else n
    if Int64.minValue.toInt ≤ i ∧ i ≤ Int64.maxValue.toInt then
      match (cs.dropWhile Char.isDigit).dropWhile isSpace with
      | ']' :: rest => .ok (i, rest)
      | _ => .error .mark
    else .error .range

/-- The steps of a path; `bound` is no less than their number. -/
def readSteps : (bound : Nat) → List Char → Except PathError (List Step)
  | _, [] => .ok []
  | 0, _ => .error .mark
  | bound + 1, c :: cs =>
    if c = '.' ∧ cs.head?.any isNameChar then do
      let steps ← readSteps bound (cs.dropWhile isNameChar)
      .ok (.field (String.ofList (cs.takeWhile isNameChar)) :: steps)
    else if c = '[' then do
      let (i, rest) ← readIndex cs
      let steps ← readSteps bound rest
      .ok (.index i :: steps)
    else .error .mark

def KeyPath.ofText (text : String) : Except PathError KeyPath :=
  let cs := text.toList
  match cs.takeWhile isNameChar with
  | [] => .error .name
  | first => do
    let steps ← readSteps cs.length (cs.dropWhile isNameChar)
    .ok ⟨String.ofList first, steps⟩

/-! ## Setting -/

/-- The entries of a table; anything else gives way to an empty table. -/
def entriesOf : Option Value → Table
  | some (.table _ entries) => entries
  | _ => []

/-- The origin that a table keeps when it is changed. -/
def tableOrigin : Option Value → Option String
  | some (.table origin _) => origin
  | _ => none

mutual

/-- Sets a name of a table: a table is merged into the one that is there, entry by entry;
    any other value takes the place of what is there. -/
def setName (name : String) (v : Value) (entries : Table) : Table :=
  match v with
  | .table _ incoming =>
    let here := entries.lookup (Text.lower name)
    match here with
    | none => entries.put (Text.lower name) (.table none (setNames incoming []))
    | some old =>
      if incoming.isEmpty then entries
      else
        entries.put (Text.lower name)
          (.table (tableOrigin old) (setNames incoming (entriesOf old)))
  | v => entries.put (Text.lower name) v

def setNames (incoming : Table) (entries : Table) : Table :=
  match incoming with
  | [] => entries
  | (name, v) :: incoming => setNames incoming (setName name v entries)

end

/-- The place that an index means among so many items; a negative one counts from the end. -/
def itemPlace (i : Int) (length : Nat) : Option Nat :=
  if 0 ≤ i then some i.toNat
  else if i.natAbs ≤ length then some (length - i.natAbs) else none

/-- Changes an item of an array; gaps before it are nil. -/
def changeItem (f : Option Value → Value) (i : Int) (items : List Value) : List Value :=
  match itemPlace i items.length with
  | none => items
  | some n =>
    let items := items ++ List.replicate (n + 1 - items.length) .nil
    items.set n (f items[n]?)

/-- Changes what stands where steps lead to from a value. A step by name makes a table of
    anything else, a step by index an array. -/
def changeAt (f : Option Value → Value) : List Step → Option Value → Value
  | [], here => f here
  | .field name :: steps, here =>
    let entries := entriesOf here
    let name := Text.lower name
    .table (tableOrigin here) (entries.put name (changeAt f steps (entries.lookup name)))
  | .index i :: steps, here =>
    match here with
    | some (.array origin items) => .array origin (changeItem (changeAt f steps) i items)
    | _ => .array none (changeItem (changeAt f steps) i [])

/-- Sets the value at a path. -/
def KeyPath.set (p : KeyPath) (v : Value) (root : Table) : Table :=
  match p.steps.getLast? with
  | none => setName p.first v root
  | some last =>
    let first := Text.lower p.first
    let change : Option Value → Value := match last with
      | .field name => fun here => .table (tableOrigin here) (setName name v (entriesOf here))
      | .index i => fun here =>
        match here with
        | some (.array origin items) => .array origin (changeItem (fun _ => v) i items)
        | _ => .array none (changeItem (fun _ => v) i [])
    root.put first (changeAt change p.steps.dropLast (root.lookup first))

end CallForm.Config
