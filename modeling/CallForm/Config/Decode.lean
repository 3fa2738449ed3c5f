/-
  CallForm.Config.Decode — settings read from a merged configuration. A section is a table, or
  an array of its fields in order. Numbers, texts and policies are read leniently; what cannot
  be read is an error that names the key and the file, if the value came from one.
-/

import CallForm.Config.KeyPath
import CallForm.Settings

namespace CallForm.Config

inductive ConfigError where
  /-- A file that is no TOML. -/
  | fileParse
  | fileNotFound (path : String)
  | fileNotUtf8
  | badKey (e : PathError)
  /-- A value of the wrong type, at a key, perhaps from a file. -/
  | type (found expected key : String) (file : Option String)
  /-- A section of the wrong type. -/
  | sectionType (found expected : String)
  | sectionLength (length : Nat) (expected : String)
  | missingField (name : String)
  | unknownVariant (enum name : String)
  | noVariant (enum : String)
  deriving DecidableEq, Repr

def ConfigError.message : ConfigError → String
  | .fileParse => ""
  | .fileNotFound path => "configuration file \"" ++ path ++ "\" not found"
  | .fileNotUtf8 => "stream did not contain valid UTF-8"
  | .badKey e => e.message
  | .type found expected key file =>
    "invalid type: " ++ found ++ ", expected " ++ expected ++ " for key `" ++ key ++ "`" ++
      (match file with | some file => " in " ++ file | none => "")
  | .sectionType found expected => "invalid type: " ++ found ++ ", expected " ++ expected
  | .sectionLength length expected =>
    "invalid length " ++ length.repr ++ ", expected " ++ expected
  | .missingField name => "missing field `" ++ name ++ "`"
  | .unknownVariant enum name => "enum " ++ enum ++ " does not have variant constructor " ++ name
  | .noVariant enum =>
    "value of enum " ++ enum ++
      " should be represented by either string or table with exactly one key"

/-! ## Values -/

/-- What messages call a value. -/
def described : Value → String
  | .atom _ .nil => "unit value"
  | .atom _ (.bool b) => "boolean `" ++ toString b ++ "`"
  | .atom _ (.integer i) => "integer `" ++ toString i ++ "`"
  | .atom _ (.float x) =>
    let text := Decimal.plain x
    let places := if x.isFinite && !text.toList.contains '.' then ".0" else ""
    "floating point `" ++ text ++ places ++ "`"
  | .atom _ (.text s) => "string " ++ Text.quoted s
  | .table _ _ => "map"
  | .array _ _ => "sequence"

/-- A reader of one field, given its key. -/
abbrev Decoder (α : Type) := (key : String) → Value → Except ConfigError α

/-- The largest depth that can be set. -/
def maxNatural : Nat := UInt64.size - 1

/-- Words that count as a number. -/
def wordNumber? (s : String) : Option Nat :=
  let word := Text.lower s
  if word ∈ ["true", "on", "yes"] then some 1
  else if word ∈ ["false", "off", "no"] then some 0
  else none

/-- Decimal digits within 64 bits, perhaps after a plus. -/
def digitsNumber? (s : String) : Option Nat :=
  let ds := match s.toList with
    | '+' :: ds => ds
    | ds => ds
  let n := Json.digitsValue ds
  if ds.isEmpty || !ds.all Char.isDigit || maxNatural < n then none else some n

/-- A natural number: floats are rounded, a half away from zero, and held within bounds. -/
def natural : Decoder Nat := fun key v =>
  match v with
  | .atom _ (.integer i) =>
    if 0 ≤ i then .ok i.toNat
    else
      .error (.type ("64-bit integer `" ++ toString i ++ "`")
        "an unsigned 64 bit or less integer" key v.origin)
  | .atom _ (.bool b) => .ok (if b then 1 else 0)
  | .atom _ (.float x) => .ok x.round.toUInt64.toNat
  | .atom _ (.text s) =>
    match (wordNumber? s).orElse fun _ => digitsNumber? s with
    | some n => .ok n
    | none => .error (.type (described v) "an integer" key v.origin)
  | _ => .error (.type (described v) "an integer" key v.origin)

/-- A text: numbers and truth values are written out. -/
def text : Decoder String := fun key v =>
  match v with
  | .atom _ (.text s) => .ok s
  | .atom _ (.bool b) => .ok (toString b)
  | .atom _ (.integer i) => .ok (toString i)
  | .atom _ (.float x) => .ok (Decimal.plain x)
  | _ => .error (.type (described v) "a string" key v.origin)

/-- One of some named values: its name, in any case, or a table whose only key is its name. -/
def variant {α : Type} (enum : String) (values : List (String × α)) : Decoder α := fun _ v =>
  let named (name : String) : Except ConfigError α :=
    match values.lookup (Text.lower name) with
    | some a => .ok a
    | none => .error (.unknownVariant enum name)
  match v with
  | .atom _ (.text name) => named name
  | .table _ [(name, _)] => named name
  | _ => .error (.noVariant enum)

def strayPolicy : Decoder StrayPolicy :=
  variant "UnknownCharacterPolicy" [("skip", .skip), ("reject", .reject)]

def stringPolicy : Decoder StringPolicy :=
  variant "StringLiteralPolicy" [("reject", .reject), ("quote", .quote)]

/-! ## Sections -/

/-- A section's key, the name messages give to its type, and the number of its fields. -/
structure Section where
  key : String
  type : String
  size : Nat

def lexerSection : Section := ⟨"lexer", "LexerConfig", 1⟩

def parserSection : Section := ⟨"parser", "ParserConfig", 1⟩

def codegenSection : Section := ⟨"codegen", "CodegenConfig", 3⟩

/-- The fields of a section, by name or by place. -/
inductive Fields where
  | named (entries : Table)
  | placed (items : List Value)

namespace Section

variable (s : Section)

def fields (root : Table) : Except ConfigError Fields :=
  match root.lookup s.key with
  | none => .error (.missingField s.key)
  | some (.table _ entries) => .ok (.named entries)
  | some (.array _ items) => .ok (.placed items)
  | some v => .error (.sectionType (described v) ("struct " ++ s.type))

/-- Reads the field of this name and place, if it is there. -/
def read? {α : Type} (fields : Fields) (place : Nat) (name : String) (decode : Decoder α) :
    Except ConfigError (Option α) :=
  match fields with
  | .named entries =>
    match entries.lookup name with
    | none => .ok none
    | some v => (decode (s.key ++ "." ++ name) v).map some
  | .placed items =>
    match items[place]? with
    | none => .ok none
    | some v => (decode (s.key ++ "[" ++ place.repr ++ "]") v).map some

/-- A field that must be there. -/
def required {α : Type} (fields : Fields) (name : String) : Option α → Except ConfigError α
  | some a => .ok a
  | none =>
    match fields with
    | .named _ => .error (.missingField name)
    | .placed items =>
      .error (.sectionLength items.length
        ("struct " ++ s.type ++ " with " ++ s.size.repr ++
          (if s.size = 1 then " element" else " elements")))

end Section

def decodeStrays (root : Table) : Except ConfigError StrayPolicy := do
  let fields ← lexerSection.fields root
  let strays ← lexerSection.read? fields 0 "unknown_characters" strayPolicy
  lexerSection.required fields "unknown_characters" strays

def decodeDepth (root : Table) : Except ConfigError Nat := do
  let fields ← parserSection.fields root
  let depth ← parserSection.read? fields 0 "max_depth" natural
  parserSection.required fields "max_depth" depth

def decodeStyle (root : Table) : Except ConfigError CodeStyle := do
  let fields ← codegenSection.fields root
  let strings ← codegenSection.read? fields 0 "string_literals" stringPolicy
  let statement ← codegenSection.read? fields 1 "statement_separator" text
  let argument ← codegenSection.read? fields 2 "argument_separator" text
  let strings ← codegenSection.required fields "string_literals" strings
  let statement ← codegenSection.required fields "statement_separator" statement
  let argument ← codegenSection.required fields "argument_separator" argument
  .ok ⟨strings, statement, argument⟩

/-- The settings that a merged configuration holds. -/
def decode (root : Table) : Except ConfigError Settings := do
  let strays ← decodeStrays root
  let maxDepth ← decodeDepth root
  let style ← decodeStyle root
  .ok ⟨strays, maxDepth, style⟩

end CallForm.Config
