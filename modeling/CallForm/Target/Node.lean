/-
  CallForm.Target.Node — trees of the target language. A call names its callee by an
  identifier and has arguments; a statement is a call that stands directly under the program.
  A hand-built tree may nest all kinds freely.
-/

import CallForm.Text.Quoted

namespace CallForm.Target

inductive Node where
  | program (body : List Node)
  | statement (callee : String) (arguments : List Node)
  | call (callee : String) (arguments : List Node)
  | identifier (name : String)
  | number (digits : String)
  | string (value : String)
  deriving Repr

structure Program where
  body : List Node
  deriving Repr

namespace Node

/-- The kinds of node, in the order in which messages list them. -/
inductive Kind where
  | program
  | statement
  | call
  | identifier
  | number
  | string
  deriving DecidableEq, Repr

def Kind.all : List Kind := [.program, .statement, .call, .identifier, .number, .string]

def Kind.name : Kind → String
  | .program => "Program"
  | .statement => "ExpressionStatement"
  | .call => "CallExpression"
  | .identifier => "Identifier"
  | .number => "NumberLiteral"
  | .string => "StringLiteral"

def kind : Node → Kind
  | .program _ => .program
  | .statement _ _ => .statement
  | .call _ _ => .call
  | .identifier _ => .identifier
  | .number _ => .number
  | .string _ => .string

mutual

def decEq : (a b : Node) → Decidable (a = b)
  | .program xs, .program ys =>
    match decEqList xs ys with
    | isTrue h => isTrue (by rw [h])
    | isFalse h => isFalse fun e => h (Node.program.inj e)
  | .statement m xs, .statement n ys =>
    if hn : m = n then
      match decEqList xs ys with
      | isTrue h => isTrue (by rw [hn, h])
      | isFalse h => isFalse fun e => h (Node.statement.inj e).2
    else isFalse fun e => hn (Node.statement.inj e).1
  | .call m xs, .call n ys =>
    if hn : m = n then
      match decEqList xs ys with
      | isTrue h => isTrue (by rw [hn, h])
      | isFalse h => isFalse fun e => h (Node.call.inj e).2
    else isFalse fun e => hn (Node.call.inj e).1
  | .identifier s, .identifier t =>
    if h : s = t then isTrue (by rw [h]) else isFalse fun e => h (Node.identifier.inj e)
  | .number s, .number t =>
    if h : s = t then isTrue (by rw [h]) else isFalse fun e => h (Node.number.inj e)
  | .string s, .string t =>
    if h : s = t then isTrue (by rw [h]) else isFalse fun e => h (Node.string.inj e)
  | .program _, .statement _ _ | .program _, .call _ _ | .program _, .identifier _
  | .program _, .number _ | .program _, .string _
  | .statement _ _, .program _ | .statement _ _, .call _ _ | .statement _ _, .identifier _
  | .statement _ _, .number _ | .statement _ _, .string _
  | .call _ _, .program _ | .call _ _, .statement _ _ | .call _ _, .identifier _
  | .call _ _, .number _ | .call _ _, .string _
  | .identifier _, .program _ | .identifier _, .statement _ _ | .identifier _, .call _ _
  | .identifier _, .number _ | .identifier _, .string _
  | .number _, .program _ | .number _, .statement _ _ | .number _, .call _ _
  | .number _, .identifier _ | .number _, .string _
  | .string _, .program _ | .string _, .statement _ _ | .string _, .call _ _
  | .string _, .identifier _ | .string _, .number _ => isFalse nofun

def decEqList : (xs ys : List Node) → Decidable (xs = ys)
  | [], [] => isTrue rfl
  | [], _ :: _ => isFalse nofun
  | _ :: _, [] => isFalse nofun
  | x :: xs, y :: ys =>
    match decEq x y, decEqList xs ys with
    | isTrue h, isTrue hs => isTrue (by rw [h, hs])
    | isFalse h, _ => isFalse fun e => h (List.cons.inj e).1
    | _, isFalse hs => isFalse fun e => hs (List.cons.inj e).2

end

instance : DecidableEq Node := decEq

def label : Node → String
  | .program body => Nat.repr body.length ++ " statement(s)"
  | .statement callee _ => callee
  | .call callee _ => callee
  | .identifier name => name
  | .number digits => digits
  | .string value => Text.quoted value

/-- The node as a program: itself if it is one, else the program whose only element it is. -/
def asProgram : Node → Program
  | .program body => ⟨body⟩
  | node => ⟨[node]⟩

end Node

instance : DecidableEq Program := fun p q =>
  if h : p.body = q.body then isTrue (by cases p; cases q; exact congrArg _ h)
  else isFalse fun e => h (congrArg _ e)

end CallForm.Target
