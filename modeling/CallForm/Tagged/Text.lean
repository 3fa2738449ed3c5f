/-
  CallForm.Tagged.Text — nodes and tokens read from JSON text.

  The outermost value is judged while it is read, so an error in its tag counts before any
  fault of the text behind the tag (`earlyError?`). Errors in fields count once the outermost
  value is closed, and before anything that follows it.
-/

import CallForm.Json.Reader
import CallForm.Tagged.Read
import CallForm.Token

namespace CallForm.Tagged

inductive ReadError where
  | fault (f : Json.Fault)
  | data (e : DataError)
  deriving Repr

namespace Dialect

variable {κ ν : Type} (d : Dialect κ ν)

/-- The error of an outermost tag, if it can be read and is wrong, or else the text behind it. -/
def earlyTag (cs : List Char) : Except DataError (Option (List Char)) :=
  match Json.readShallow cs with
  | .error _ => .ok none
  | .ok (v, rest) => (d.readTag false v).map fun _ => some rest

/-- The error of a member's value that counts while the object is read, that of its tag, or else
    the text behind the value, if that can be read. -/
def earlyMember (name : String) (cs : List Char) : Except DataError (Option (List Char)) :=
  if name = "type" then d.earlyTag cs
  else
    match Json.readValue (Json.maxDepth - 1) cs with
    | .error _ => .ok none
    | .ok (_, rest) => .ok (some rest)

/-- The error that stands in an object before the fault of its text, if there is one; `bound`
    is no less than the number of members. -/
def earlyErrorInObject (tagged : Bool) : (bound : Nat) → List Char → Option DataError
  | 0, _ => none
  | bound + 1, cs =>
    match Json.skipBlanks cs with
    | '"' :: rest =>
      match Json.readString rest with
      | .error _ => none
      | .ok (name, rest) =>
        if name = "type" && tagged then some (.duplicateField "type")
        else
          match Json.skipBlanks rest with
          | ':' :: rest =>
            match d.earlyMember name rest with
            | .error e => some e
            | .ok none => none
            | .ok (some rest) =>
              match Json.skipBlanks rest with
              | ',' :: rest => earlyErrorInObject (tagged || name = "type") bound rest
              | _ => none
          | _ => none
    | _ => none

/-- The error that stands before the fault of a text, if there is one. -/
def earlyError? (cs : List Char) : Option DataError :=
  match Json.skipBlanks cs with
  | '\x7b' :: rest => d.earlyErrorInObject false rest.length rest
  | '[' :: rest =>
    match d.earlyTag rest with
    | .error e => some e
    | .ok _ => none
  | _ => none

/-- The node that a text spells, of the kind asked for, if any. -/
def ofText [DecidableEq κ] (root : Option κ) (text : String) : Except ReadError ν :=
  match Json.readValue Json.maxDepth text.toList with
  | .error f =>
    match d.earlyError? text.toList with
    | some e => .error (.data e)
    | none => .error (.fault f)
  | .ok (v, rest) =>
    match d.ofJsonAs root v with
    | .error e => .error (.data e)
    | .ok node =>
      if (Json.skipBlanks rest).isEmpty then .ok node else .error (.fault .malformed)

end Dialect

/-! ## Tokens -/

inductive TokenKind where
  | paren
  | name
  | number
  deriving DecidableEq, Repr

def TokenKind.text : TokenKind → String
  | .paren => "Paren"
  | .name => "Name"
  | .number => "Number"

def TokenKind.all : List TokenKind := [.paren, .name, .number]

/-- The kind of token of this name. -/
def TokenKind.ofName (name : String) : Except DataError TokenKind :=
  match TokenKind.all.find? fun k => k.text = name with
  | some kind => .ok kind
  | none => .error (.unknownVariant name (TokenKind.all.map TokenKind.text))

/-- The token of a kind whose content is given by a value. -/
def TokenKind.token (kind : TokenKind) (v : Json) : Except DataError Token :=
  match kind, v with
  | .paren, .string s =>
    match s.toList with
    | [c] => .ok (.paren c)
    | _ => .error (.invalidValue v "a character")
  | .paren, v => .error (.invalidType v "a character")
  | .name, .string s => .ok (.name s)
  | .number, .string s => .ok (.number s)
  | _, v => .error (.invalidType v "a string")

/-- The name of the kind at the beginning of a text, and the text behind it. -/
def readKind (cs : List Char) : Except ReadError (TokenKind × List Char) := do
  match Json.skipBlanks cs with
  | '"' :: rest =>
    let (name, rest) ← (Json.readString rest).mapError .fault
    let kind ← (TokenKind.ofName name).mapError .data
    .ok (kind, rest)
  | rest => .error (.fault (Json.wrong rest))

/-- A token: an object with one member, which is judged as it is read. -/
def readToken (cs : List Char) : Except ReadError (Token × List Char) := do
  match Json.skipBlanks cs with
  | '\x7b' :: rest =>
    let (kind, rest) ← readKind rest
    match Json.skipBlanks rest with
    | ':' :: rest =>
      let (content, rest) ← (Json.readShallow rest).mapError .fault
      let token ← (kind.token content).mapError .data
      match Json.skipBlanks rest with
      | '\x7d' :: rest => .ok (token, rest)
      | rest => .error (.fault (Json.wrong rest))
    | rest => .error (.fault (Json.wrong rest))
  | rest =>
    let _ ← readKind rest
    .error (.data .bareVariant)

/-- A list of tokens: an array, whose items are judged one after the other. -/
def readTokens (cs : List Char) : Except ReadError (List Token × List Char) := do
  match Json.skipBlanks cs with
  | '[' :: rest => Json.readList .fault ']' readToken rest
  | rest =>
    let (v, _) ← (Json.readShallow rest).mapError .fault
    .error (.data (.invalidType v "a sequence"))

/-- What is read off a text, if only blanks are left of it. -/
def whole {α : Type} (r : Except ReadError (α × List Char)) : Except ReadError α := do
  let (a, rest) ← r
  if (Json.skipBlanks rest).isEmpty then .ok a else .error (.fault .malformed)

/-- The token that a text spells. -/
def tokenOfText (text : String) : Except ReadError Token := whole (readToken text.toList)

/-- The list of tokens that a text spells. -/
def tokensOfText (text : String) : Except ReadError (List Token) := whole (readTokens text.toList)

end CallForm.Tagged
