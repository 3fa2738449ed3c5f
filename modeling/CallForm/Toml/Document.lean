/-
  CallForm.Toml.Document — TOML documents: values, tables and arrays of tables.

  While a document is read, a table remembers whether a header defined it: a table that came
  into being only as a step on the way to another may be defined once later on, one that a
  dotted key made may be extended by dotted keys only, and a value is never extended.
-/

import CallForm.Toml.Number
import CallForm.Toml.Text

namespace CallForm.Toml

/-! ## Tables under construction -/

/-- How a table came into being. -/
inductive Origin where
  /-- As a step on the way of a header to another table. -/
  | passed
  /-- By a dotted key. -/
  | dotted
  /-- By a header, or as an inline table. -/
  | defined
  deriving DecidableEq, Repr

inductive Item where
  | value (v : Value)
  | table (origin : Origin) (entries : List (String × Item))
  /-- An array of tables, the newest first. -/
  | tables (elements : List (List (String × Item)))

abbrev Entries := List (String × Item)

/-- Puts an item in the place of the one of the same name, or at the end. -/
def put (name : String) (item : Item) : Entries → Entries
  | [] => [(name, item)]
  | (other, old) :: entries =>
    if other = name then (name, item) :: entries else (other, old) :: put name item entries

/-- Changes the entries of the table at a place, which is reached through tables and the newest
    elements of arrays of tables. Tables that are missing on the way are made. -/
def change (f : Entries → Option Entries) : (place : List String) → Entries → Option Entries
  | [], entries => f entries
  | name :: place, entries =>
    match entries.lookup name with
    | none => (change f place []).map fun inner => put name (.table .passed inner) entries
    | some (.table origin inner) =>
      (change f place inner).map fun inner => put name (.table origin inner) entries
    | some (.tables (newest :: older)) =>
      (change f place newest).map fun inner => put name (.tables (inner :: older)) entries
    | some (.tables []) => none
    | some (.value _) => none

/-- Adds a value at a dotted key. If the key has steps, the table that the value goes into must be
    one that dotted keys made. -/
def addAt (last : String) (v : Value) : (steps : List String) → Entries → Option Entries
  | [], entries => if (entries.lookup last).isSome then none else some (put last (.value v) entries)
  | name :: steps, entries =>
    match entries.lookup name with
    | none => (addAt last v steps []).map fun inner => put name (.table .dotted inner) entries
    | some (.table origin inner) =>
      -- a table made on the way of a header can be stepped through, but not added to
      if origin = .dotted ∨ (origin = .passed ∧ steps ≠ []) then
        (addAt last v steps inner).map fun inner => put name (.table origin inner) entries
      else none
    | some (.tables (newest :: older)) =>
      -- and so can the newest element of an array of tables
      if steps ≠ [] then
        (addAt last v steps newest).map fun inner => put name (.tables (inner :: older)) entries
      else none
    | some (.tables []) => none
    | some (.value _) => none

/-- A key's steps and its last part. -/
def splitLast (key : List String) : List String × String := (key.dropLast, key.getLastD "")

def addEntry (key : List String) (v : Value) (entries : Entries) : Option Entries :=
  addAt (splitLast key).2 v (splitLast key).1 entries

/-- Defines the table of a header; it takes its place in the order now, even if it was passed
    before. -/
def define (name : String) (entries : Entries) : Option Entries :=
  match entries.lookup name with
  | none => some (put name (.table .defined []) entries)
  | some (.table .passed inner) =>
    some (entries.filter (·.1 ≠ name) ++ [(name, .table .defined inner)])
  | some _ => none

/-- Adds a table to an array of tables. -/
def append (name : String) (entries : Entries) : Option Entries :=
  match entries.lookup name with
  | none => some (put name (.tables [[]]) entries)
  | some (.tables elements) => some (put name (.tables ([] :: elements)) entries)
  | some _ => none

mutual

def Item.finished : Item → Value
  | .value v => v
  | .table _ entries => .table (finishedEntries entries)
  | .tables elements => .array (finishedTables elements [])

def finishedEntries : List (String × Item) → List (String × Value)
  | [] => []
  | (name, item) :: entries => (name, item.finished) :: finishedEntries entries

/-- The elements of an array of tables, given the newest first, before those already done. -/
def finishedTables : List (List (String × Item)) → List Value → List Value
  | [], done => done
  | entries :: elements, done => finishedTables elements (.table (finishedEntries entries) :: done)

end

/-! ## Values -/

/-- The values of an array, of which the next is due or the bracket closes; `bound` is no less
    than their number. -/
def arrayItems (item : List Char → Option (Value × List Char)) :
    (bound : Nat) → List Char → Option (List Value × List Char)
  | 0, _ => none
  | bound + 1, cs => do
    match ← skipGap cs with
    | ']' :: rest => some ([], rest)
    | cs =>
      let (v, rest) ← item cs
      match ← skipGap rest with
      | ',' :: rest =>
        let (vs, rest) ← arrayItems item bound rest
        some (v :: vs, rest)
      | ']' :: rest => some ([v], rest)
      | _ => none

/-- The entries of an inline table, of which one is due; `bound` is no less than their number. -/
def inlineEntries (item : List Char → Option (Value × List Char)) :
    (bound : Nat) → Entries → List Char → Option (Entries × List Char)
  | 0, _, _ => none
  | bound + 1, entries, cs => do
    let (key, rest) ← key? cs
    let rest ← expect '=' rest
    let (v, rest) ← item (skipBlanks rest)
    let entries ← addEntry key v entries
    match skipBlanks rest with
    | ',' :: rest => inlineEntries item bound entries rest
    | '\x7d' :: rest => some (entries, rest)
    | _ => none

def word? (letters : String) (v : Value) (cs : List Char) : Option (Value × List Char) :=
  if letters.toList.isPrefixOf cs then some (v, cs.drop letters.length) else none

/-- A value in which arrays and inline tables nest at most `depth` deep. -/
def value? (depth : Nat) (cs : List Char) : Option (Value × List Char) :=
  match cs with
  | [] => none
  | c :: rest =>
    if c = '"' ∨ c = '\'' then (string? cs).map fun r => (.string r.1, r.2)
    else if c = 't' then word? "true" (.bool true) cs
    else if c = 'f' then word? "false" (.bool false) cs
    else if c = '[' then
      match depth with
      | 0 => none
      | depth + 1 => (arrayItems (value? depth) cs.length rest).map fun r => (.array r.1, r.2)
    else if c = '\x7b' then
      match depth with
      | 0 => none
      | depth + 1 =>
        match skipBlanks rest with
        | '\x7d' :: rest => some (.table [], rest)
        | _ =>
          (inlineEntries (value? depth) cs.length [] rest).map fun r =>
            (.table (finishedEntries r.1), r.2)
    else number? cs

/-! ## Tables that stand for moments -/

/-- The key that makes a table stand for a date or a time. -/
def momentKey : String := "$__toml_private_datetime"

/-- What a table stands for whose first key is `momentKey`: the date or time that its text
    spells, if it does; the other entries do not count. -/
def momentOf? : List (String × Value) → Option (Option Value)
  | (name, v) :: _ =>
    if name = momentKey then
      some (match v with
        | .string s => (momentText? s.toList).map .moment
        | _ => none)
    else none
  | [] => none

mutual

/-- The value with all such tables replaced, unless one of them spells no date or time. -/
def settled : Value → Option Value
  | .table entries =>
    match momentOf? entries with
    | some moment => moment
    | none => (settledEntries entries).map .table
  | .array items => (settledItems items).map .array
  | v => some v

def settledEntries : List (String × Value) → Option (List (String × Value))
  | [] => some []
  | (name, v) :: entries => do
    let v ← settled v
    let entries ← settledEntries entries
    some ((name, v) :: entries)

def settledItems : List Value → Option (List Value)
  | [] => some []
  | v :: items => do
    let v ← settled v
    let items ← settledItems items
    some (v :: items)

end

/-! ## Documents -/

/-- The tables read so far, and the place that the last header leads to. -/
structure State where
  root : Entries := []
  place : List String := []

/-- A header: of a table, or of an array of tables in double brackets. -/
def header? (s : State) (cs : List Char) : Option (State × List Char) := do
  match cs with
  | '[' :: cs =>
    let (key, rest) ← key? cs
    let rest ← expect ']' rest
    let rest ← expect ']' rest
    let root ← change (append (splitLast key).2) (splitLast key).1 s.root
    some (⟨root, key⟩, rest)
  | cs =>
    let (key, rest) ← key? cs
    let rest ← expect ']' rest
    let root ← change (define (splitLast key).2) (splitLast key).1 s.root
    some (⟨root, key⟩, rest)

/-- A key and its value. -/
def pair? (s : State) (cs : List Char) : Option (State × List Char) := do
  let (key, rest) ← key? cs
  let rest ← expect '=' rest
  let (v, rest) ← value? (depthLimit - 1) (skipBlanks rest)
  let root ← change (addEntry key v) s.place s.root
  some ({ s with root := root }, rest)

/-- Reads line by line; `bound` is no less than the number of lines. -/
def lines : (bound : Nat) → State → List Char → Option State
  | 0, s, _ => some s
  | bound + 1, s, cs =>
    match skipBlanks cs with
    | [] => some s
    | '[' :: cs =>
      match header? s cs with
      | none => none
      | some (s, rest) => (lineEnd? rest).bind (lines bound s)
    | c :: cs =>
      if c = '#' ∨ c = '\n' ∨ c = '\r' then (lineEnd? (c :: cs)).bind (lines bound s)
      else
        match pair? s (c :: cs) with
        | none => none
        | some (s, rest) => (lineEnd? rest).bind (lines bound s)

/-- The entries of a document's root table, or nothing if the text is no TOML, or if its root
    stands for a moment. A byte order mark at the beginning is passed over. -/
def ofText (text : String) : Option (List (String × Value)) :=
  let cs := match text.toList with
    | '\ufeff' :: cs => cs
    | cs => cs
  match (lines (cs.length + 1) {} cs).bind fun s => settled (.table (finishedEntries s.root)) with
  | some (.table entries) => some entries
  | _ => none

end CallForm.Toml
