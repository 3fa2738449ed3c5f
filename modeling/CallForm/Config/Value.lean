/-
  CallForm.Config.Value — configuration values. What was read from a file remembers the file's
  name; a table that grew by merging belongs to no file.
-/

import CallForm.Json
import CallForm.Toml.Value

namespace CallForm.Config

inductive Atom where
  | nil
  | bool (b : Bool)
  | integer (i : Int)
  | float (x : Float)
  | text (s : String)

inductive Value where
  | atom (origin : Option String) (a : Atom)
  | table (origin : Option String) (entries : List (String × Value))
  | array (origin : Option String) (items : List Value)

abbrev Table := List (String × Value)

/-- Puts a value in the place of the one of the same name, or at the end. -/
def Table.put (name : String) (v : Value) : Table → Table
  | [] => [(name, v)]
  | (other, old) :: entries =>
    if other = name then (name, v) :: entries else (other, old) :: Table.put name v entries

/-- Only what stands under the name changes. -/
@[simp] theorem Table.lookup_put (name other : String) (v : Value) (entries : Table) :
    List.lookup other (Table.put name v entries) =
      if other = name then some v else List.lookup other entries := by
  induction entries with
  | nil => by_cases h : other = name <;> simp [put, List.lookup_cons, h, beq_false_of_ne]
  | cons e entries ih =>
    obtain ⟨here, old⟩ := e
    by_cases hn : here = name
    · subst hn
      by_cases h : other = here <;> simp [put, List.lookup_cons, h, beq_false_of_ne]
    · by_cases h : other = here
      · subst h
        simp [put, hn]
      · simp [put, hn, List.lookup_cons, ih, beq_false_of_ne h]

namespace Value

def origin : Value → Option String
  | .atom origin _ => origin
  | .table origin _ => origin
  | .array origin _ => origin

def nil : Value := .atom none .nil

mutual

/-- A value of a TOML file; dates and times become text. -/
def ofToml (file : String) : Toml.Value → Value
  | .string s => .atom file (.text s)
  | .integer i => .atom file (.integer i)
  | .float x => .atom file (.float x)
  | .bool b => .atom file (.bool b)
  | .moment text => .atom file (.text text)
  | .array items => .array file (ofTomlItems file items)
  | .table entries => .table file (ofTomlEntries file entries)

def ofTomlItems (file : String) : List Toml.Value → List Value
  | [] => []
  | v :: vs => ofToml file v :: ofTomlItems file vs

def ofTomlEntries (file : String) : List (String × Toml.Value) → Table
  | [] => []
  | (name, v) :: entries => (name, ofToml file v) :: ofTomlEntries file entries

end

mutual

/-- A JSON value; of members of one name the last counts. -/
def ofJson : Json → Value
  | .null => nil
  | .bool b => .atom none (.bool b)
  | .number n =>
    match n.value? with
    | some (.natural k) => .atom none (.integer k)
    | some (.negative k) => .atom none (.integer (-k))
    | some (.float x) => .atom none (.float x)
    | none => nil
  | .string s => .atom none (.text s)
  | .array items => .array none (ofJsonItems items)
  | .object members => .table none (ofJsonMembers [] members)

def ofJsonItems : List Json → List Value
  | [] => []
  | v :: vs => ofJson v :: ofJsonItems vs

def ofJsonMembers (done : Table) : List (String × Json) → Table
  | [] => done
  | (name, v) :: members => ofJsonMembers (done.put name (ofJson v)) members

end

end Value

end CallForm.Config
