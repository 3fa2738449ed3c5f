/-
  CallForm.Target.Check — expectations about a target program, checked in order. The first one
  that fails is reported with the place of the node it was checked on, such as
  `body[0].arguments[2]`. No check looks beyond the end of a body or of a list of arguments.
-/

import CallForm.Target.Node

namespace CallForm.Target

mutual

inductive CallCheck where
  | callee (name : String)
  | argumentCount (n : Nat)
  | argument (i : Nat) (check : NodeCheck)

inductive NodeCheck where
  | number (digits : String)
  | string (value : String)
  | call (checks : List CallCheck)

end

inductive ProgramCheck where
  | statementCount (n : Nat)
  | statement (i : Nat) (checks : List CallCheck)

/-- The place of a node: a body element, and the arguments on the way down from its call. -/
structure Place where
  statement : Nat
  arguments : List Nat := []
  deriving DecidableEq, Repr

def Place.argument (p : Place) (i : Nat) : Place := ⟨p.statement, p.arguments ++ [i]⟩

def Place.text (p : Place) : String :=
  "body[" ++ p.statement.repr ++ "]" ++
    String.join (p.arguments.map fun i => ".arguments[" ++ i.repr ++ "]")

/-- Why a check fails. -/
inductive Failure where
  | statementCount (expected : Nat) (body : List Node)
  | statementIndex (i count : Nat)
  | wrongKind (place : Place) (expected : Node.Kind) (found : Node)
  | callee (place : Place) (expected found : String)
  | argumentCount (place : Place) (expected : Nat) (arguments : List Node)
  | argumentIndex (place : Place) (i : Nat) (callee : String) (count : Nat)
  | number (place : Place) (expected found : String)
  | string (place : Place) (expected found : String)
  deriving DecidableEq, Repr

/-- Nodes in a row, each by its kind and label. -/
def summary (nodes : List Node) : String :=
  ", ".intercalate (nodes.map fun node => node.kind.name ++ "(" ++ node.label ++ ")")

/-- The report of two values that should be equal. -/
def unequal (message found expected : String) : String :=
  "assertion `left == right` failed: " ++ message ++ "\n  left: " ++ found ++
    "\n right: " ++ expected

def Failure.message : Failure → String
  | .statementCount expected body =>
    unequal
      ("Expected " ++ expected.repr ++ " statements, found " ++ body.length.repr ++ ": [" ++
        summary body ++ "]")
      body.length.repr expected.repr
  | .statementIndex i count =>
    "Statement index " ++ i.repr ++ " out of bounds (program has " ++ count.repr ++
      " statements)"
  | .wrongKind place expected found =>
    place.text ++ ": Expected " ++ expected.name ++ ", found " ++ found.kind.name ++ " '" ++
      found.label ++ "'"
  | .callee place expected found =>
    unequal (place.text ++ ": Expected callee '" ++ expected ++ "', found '" ++ found ++ "'")
      (Text.quoted found) (Text.quoted expected)
  | .argumentCount place expected arguments =>
    unequal
      (place.text ++ ": Expected " ++ expected.repr ++ " arguments, found " ++
        arguments.length.repr ++ ": [" ++ summary arguments ++ "]")
      arguments.length.repr expected.repr
  | .argumentIndex place i name count =>
    place.text ++ ": Argument index " ++ i.repr ++ " out of bounds (call '" ++ name ++
      "' has " ++ count.repr ++ " arguments)"
  | .number place expected found =>
    unequal (place.text ++ ": Expected number '" ++ expected ++ "', found '" ++ found ++ "'")
      (Text.quoted found) (Text.quoted expected)
  | .string place expected found =>
    unequal
      (place.text ++ ": Expected string " ++ Text.quoted expected ++ ", found " ++
        Text.quoted found)
      (Text.quoted found) (Text.quoted expected)

mutual

/-- Runs a check of a call with this callee and these arguments. -/
def CallCheck.run (place : Place) (callee : String) (arguments : List Node) :
    CallCheck → Except Failure Unit
  | .callee name => if callee = name then .ok () else .error (.callee place name callee)
  | .argumentCount n =>
    if arguments.length = n then .ok () else .error (.argumentCount place n arguments)
  | .argument i check =>
    match arguments[i]? with
    | none => .error (.argumentIndex place i callee arguments.length)
    | some node => NodeCheck.run (place.argument i) node check

def CallCheck.runAll (place : Place) (callee : String) (arguments : List Node) :
    List CallCheck → Except Failure Unit
  | [] => .ok ()
  | check :: checks =>
    match CallCheck.run place callee arguments check with
    | .error e => .error e
    | .ok () => CallCheck.runAll place callee arguments checks

def NodeCheck.run (place : Place) (node : Node) : NodeCheck → Except Failure Unit
  | .number digits =>
    match node with
    | .number found =>
      if found = digits then .ok () else .error (.number place digits found)
    | other => .error (.wrongKind place .number other)
  | .string value =>
    match node with
    | .string found =>
      if found = value then .ok () else .error (.string place value found)
    | other => .error (.wrongKind place .string other)
  | .call checks =>
    match node with
    | .call callee arguments => CallCheck.runAll place callee arguments checks
    | other => .error (.wrongKind place .call other)

end

def ProgramCheck.run (p : Program) : ProgramCheck → Except Failure Unit
  | .statementCount n =>
    if p.body.length = n then .ok () else .error (.statementCount n p.body)
  | .statement i checks =>
    match p.body[i]? with
    | none => .error (.statementIndex i p.body.length)
    | some (.statement callee arguments) => CallCheck.runAll ⟨i, []⟩ callee arguments checks
    | some other => .error (.wrongKind ⟨i, []⟩ .statement other)

def Program.check (p : Program) : List ProgramCheck → Except Failure Unit
  | [] => .ok ()
  | check :: checks =>
    match check.run p with
    | .error e => .error e
    | .ok () => p.check checks

end CallForm.Target
