/-
  CallForm.Tagged.Read — nodes of a dialect read from JSON values.

  A node is an object with a member `type` that names its kind and one member for each field,
  in any order and beside any others, or an array of the kind's name and the fields in order.
  A dialect lists its kinds and their fields; reading is the same for all dialects.

  Every value is seen once in each role that it can be asked to play (`Roles`); what it cannot
  be is an error that counts only where the role is asked for.
-/

import CallForm.Json
import CallForm.Source.Node
import CallForm.Target.Node

namespace CallForm.Tagged

/-- Why a JSON value is no tree. -/
inductive DataError where
  | invalidType (found : Json) (expected : String)
  | invalidValue (found : Json) (expected : String)
  /-- A kind's name alone, where it should come with a value. -/
  | bareVariant
  | unknownVariant (name : String) (known : List String)
  | missingField (name : String)
  | duplicateField (name : String)
  | invalidLength (length : Nat) (expected : String)
  | wrongKind (expected found : String)
  deriving Repr

def ticked (s : String) : String := "`" ++ s ++ "`"

def DataError.message : DataError → String
  | .invalidType found expected => "invalid type: " ++ found.described ++ ", expected " ++ expected
  | .invalidValue found expected =>
    "invalid value: " ++ found.described ++ ", expected " ++ expected
  | .bareVariant => "invalid type: unit variant, expected newtype variant"
  | .unknownVariant name known =>
    "unknown variant " ++ ticked name ++ ", expected one of " ++ ", ".intercalate (known.map ticked)
  | .missingField name => "missing field " ++ ticked name
  | .duplicateField name => "duplicate field " ++ ticked name
  | .invalidLength length expected => "invalid length " ++ length.repr ++ ", expected " ++ expected
  | .wrongKind expected found => "expected " ++ expected ++ ", found " ++ found

/-- What a field holds: text, a list of nodes, or one node of a certain kind. -/
inductive Slot (κ : Type) where
  | text
  | nodes
  | child (kind : κ)
  deriving DecidableEq, Repr

/-- The fields of a node that have been read; no kind has two fields of one sort. -/
structure Fields (ν : Type) where
  text : Option String := none
  child : Option ν := none
  nodes : Option (List ν) := none

/-- A field that must have been read by now. -/
def required {α : Type} (name : String) : Option α → Except DataError α
  | some a => .ok a
  | none => .error (.missingField name)

structure Dialect (κ ν : Type) where
  kinds : List κ
  name : κ → String
  slots : κ → List (String × Slot κ)
  kindOf : ν → κ
  /-- The node of a kind with these fields; of several missing ones the first is reported. -/
  build : κ → Fields ν → Except DataError ν

/-- A value in each role. -/
structure Roles (ν : Type) where
  text : Except DataError String
  node : Except DataError ν
  nodes : Except DataError (List ν)

def plural (n : Nat) : String := n.repr ++ (if n = 1 then " element" else " elements")

namespace Dialect

variable {κ ν : Type} (d : Dialect κ ν)

/-- A node that must be of a certain kind. -/
def narrow [DecidableEq κ] (kind : κ) (node : ν) : Except DataError ν :=
  if d.kindOf node = kind then .ok node
  else .error (.wrongKind (d.name kind) (d.name (d.kindOf node)))

/-! ## Tags -/

/-- The kind that a tag names. Below the outermost node a kind may be given by its index. -/
def readTag (nested : Bool) (v : Json) : Except DataError κ :=
  match v with
  | .string s =>
    match d.kinds.find? fun k => d.name k = s with
    | some kind => .ok kind
    | none => .error (.unknownVariant s (d.kinds.map d.name))
  | .number n =>
    match nested, n.value? with
    | true, some (.natural i) =>
      match d.kinds[i]? with
      | some kind => .ok kind
      | none =>
        .error (.invalidValue v ("variant index 0 <= i < " ++ d.kinds.length.repr))
    | _, _ => .error (.invalidType v "variant identifier")
  | _ => .error (.invalidType v "variant identifier")

/-- The kind of an object: that of its only member `type`; `seen` is the kind met so far. -/
def tagOfMembers (nested : Bool) : (seen : Option κ) → List (String × Json) → Except DataError κ
  | none, [] => .error (.missingField "type")
  | some kind, [] => .ok kind
  | seen, (name, v) :: members =>
    if name = "type" then
      match seen with
      | some _ => .error (.duplicateField "type")
      | none => do
        let kind ← d.readTag nested v
        tagOfMembers nested (some kind) members
    else tagOfMembers nested seen members

/-! ## Fields -/

variable [DecidableEq κ]

/-- Puts a value into a field that is not read yet. -/
def fill (name : String) (slot : Slot κ) (value : Roles ν) (fields : Fields ν) :
    Except DataError (Fields ν) :=
  match slot with
  | .text =>
    if fields.text.isSome then .error (.duplicateField name)
    else value.text.map fun s => { fields with text := some s }
  | .nodes =>
    if fields.nodes.isSome then .error (.duplicateField name)
    else value.nodes.map fun ns => { fields with nodes := some ns }
  | .child kind =>
    if fields.child.isSome then .error (.duplicateField name)
    else (value.node.bind (d.narrow kind)).map fun n => { fields with child := some n }

/-- Reads the fields of a kind among the members of an object; other members are ignored. -/
def fillMembers (kind : κ) : Fields ν → List (String × Roles ν) → Except DataError (Fields ν)
  | fields, [] => .ok fields
  | fields, (name, value) :: members =>
    match (d.slots kind).lookup name with
    | none => fillMembers kind fields members
    | some slot => do
      let fields ← d.fill name slot value fields
      fillMembers kind fields members

/-- Reads the fields of a kind in order, of which `done` are read already. -/
def fillInOrder (kind : κ) (done : Nat) :
    Fields ν → List (String × Slot κ) → List (Roles ν) → Except DataError (Fields ν)
  | fields, [], rest =>
    if rest.isEmpty then .ok fields
    else .error (.invalidLength (done + rest.length) (plural done ++ " in sequence"))
  | _, _ :: _, [] =>
    .error (.invalidLength done
      ("struct variant TaggedNode::" ++ d.name kind ++ " with " ++ plural (d.slots kind).length))
  | fields, (name, slot) :: slots, value :: values => do
    let fields ← d.fill name slot value fields
    fillInOrder kind (done + 1) fields slots values

/-! ## Nodes -/

/-- The node of an object, whose members are given also in their roles. -/
def ofMembers (nested : Bool) (members : List (String × Json)) (roles : List (String × Roles ν)) :
    Except DataError ν := do
  let kind ← d.tagOfMembers nested none members
  let fields ← d.fillMembers kind {} roles
  d.build kind fields

/-- The node of an array, whose items are given also in their roles. -/
def ofItems (nested : Bool) (items : List Json) (roles : List (Roles ν)) : Except DataError ν :=
  match items with
  | [] => .error (.missingField "type")
  | tag :: _ => do
    let kind ← d.readTag nested tag
    let fields ← d.fillInOrder kind 0 {} (d.slots kind) (roles.drop 1)
    d.build kind fields

/-- What is asked of the value of a node. -/
def nodeValue : String := "internally tagged enum TaggedNode"

mutual

def roles : Json → Roles ν
  | .array items =>
    let each := rolesOfItems items
    ⟨.error (.invalidType (.array items) "a string"), d.ofItems true items each,
     each.mapM Roles.node⟩
  | .object members =>
    let each := rolesOfMembers members
    ⟨.error (.invalidType (.object members) "a string"), d.ofMembers true members each,
     .error (.invalidType (.object members) "a sequence")⟩
  | .string s =>
    ⟨.ok s, .error (.invalidType (.string s) nodeValue),
     .error (.invalidType (.string s) "a sequence")⟩
  | v =>
    ⟨.error (.invalidType v "a string"), .error (.invalidType v nodeValue),
     .error (.invalidType v "a sequence")⟩

def rolesOfItems : List Json → List (Roles ν)
  | [] => []
  | v :: vs => roles v :: rolesOfItems vs

def rolesOfMembers : List (String × Json) → List (String × Roles ν)
  | [] => []
  | (name, v) :: members => (name, roles v) :: rolesOfMembers members

end

/-- The node that an outermost value stands for. -/
def ofJson (v : Json) : Except DataError ν :=
  match v with
  | .array items => d.ofItems false items (d.rolesOfItems items)
  | .object members => d.ofMembers false members (d.rolesOfMembers members)
  | v => .error (.invalidType v nodeValue)

/-- The node that an outermost value stands for, of the kind asked for, if any. -/
def ofJsonAs (root : Option κ) (v : Json) : Except DataError ν := do
  let node ← d.ofJson v
  match root with
  | none => .ok node
  | some kind => d.narrow kind node

end Dialect

/-! ## The two dialects -/

def sourceDialect : Dialect Source.Node.Kind Source.Node where
  kinds := Source.Node.Kind.all
  name := Source.Node.Kind.name
  slots
    | .program => [("body", .nodes)]
    | .call => [("name", .text), ("params", .nodes)]
    | .number => [("value", .text)]
    | .string => [("value", .text)]
  kindOf := Source.Node.kind
  build
    | .program, fields => do
      let body ← required "body" fields.nodes
      .ok (.program body)
    | .call, fields => do
      let name ← required "name" fields.text
      let params ← required "params" fields.nodes
      .ok (.call name params)
    | .number, fields => (required "value" fields.text).map .number
    | .string, fields => (required "value" fields.text).map .string

def targetDialect : Dialect Target.Node.Kind Target.Node where
  kinds := Target.Node.Kind.all
  name := Target.Node.Kind.name
  slots
    | .program => [("body", .nodes)]
    | .statement => [("expression", .child .call)]
    | .call => [("callee", .child .identifier), ("arguments", .nodes)]
    | .identifier => [("name", .text)]
    | .number => [("value", .text)]
    | .string => [("value", .text)]
  kindOf := Target.Node.kind
  build
    | .program, fields => do
      let body ← required "body" fields.nodes
      .ok (.program body)
    | .statement, fields => do
      match ← required "expression" fields.child with
      | .call callee arguments => .ok (.statement callee arguments)
      | other => .error (.wrongKind "CallExpression" other.kind.name)
    | .call, fields => do
      let callee ← required "callee" fields.child
      let arguments ← required "arguments" fields.nodes
      match callee with
      | .identifier name => .ok (.call name arguments)
      | other => .error (.wrongKind "Identifier" other.kind.name)
    | .identifier, fields => (required "name" fields.text).map .identifier
    | .number, fields => (required "value" fields.text).map .number
    | .string, fields => (required "value" fields.text).map .string

end CallForm.Tagged
