/-
  CallForm.Source.Node — trees of the source language. A call has a name and parameters; a
  program is the root, but a hand-built tree may hold programs, and any text, anywhere.

  Two texts show a tree: `label` is its one-line summary, `text` its canonical source. The
  tokens of a tree without strings and nested programs are `flat`.
-/

import CallForm.Text.Quoted
import CallForm.Token

namespace CallForm.Source

inductive Node where
  | program (body : List Node)
  | call (name : String) (params : List Node)
  | number (digits : String)
  | string (value : String)
  deriving Repr

structure Program where
  body : List Node
  deriving Repr

namespace Node

mutual

def decEq : (a b : Node) → Decidable (a = b)
  | .program xs, .program ys =>
    match decEqList xs ys with
    | isTrue h => isTrue (by rw [h])
    | isFalse h => isFalse fun e => h (Node.program.inj e)
  | .call m xs, .call n ys =>
    if hn : m = n then
      match decEqList xs ys with
      | isTrue h => isTrue (by rw [hn, h])
      | isFalse h => isFalse fun e => h (Node.call.inj e).2
    else isFalse fun e => hn (Node.call.inj e).1
  | .number s, .number t =>
    if h : s = t then isTrue (by rw [h]) else isFalse fun e => h (Node.number.inj e)
  | .string s, .string t =>
    if h : s = t then isTrue (by rw [h]) else isFalse fun e => h (Node.string.inj e)
  | .program _, .call _ _ | .program _, .number _ | .program _, .string _
  | .call _ _, .program _ | .call _ _, .number _ | .call _ _, .string _
  | .number _, .program _ | .number _, .call _ _ | .number _, .string _
  | .string _, .program _ | .string _, .call _ _ | .string _, .number _ => isFalse nofun

def decEqList : (xs ys : List Node) → Decidable (xs = ys)
  | [], [] => isTrue rfl
  | [], _ :: _ => isFalse nofun
  | _ :: _, [] => isFalse nofun
  | x :: xs, y :: ys =>
    match decEq x y, decEqList xs ys with
    | isTrue h, isTrue hs => isTrue (by rw [h, hs])
    | isFalse h, _ => isFalse fun e => h (List.cons.inj e).1
    | _, isFalse hs => isFalse fun e => hs (List.cons.inj e).2

end

instance : DecidableEq Node := decEq

/-- The kinds of node, in the order in which messages list them. -/
inductive Kind where
  | program
  | call
  | number
  | string
  deriving DecidableEq, Repr

def Kind.all : List Kind := [.program, .call, .number, .string]

def Kind.name : Kind → String
  | .program => "Program"
  | .call => "CallExpression"
  | .number => "NumberLiteral"
  | .string => "StringLiteral"

def kind : Node → Kind
  | .program _ => .program
  | .call _ _ => .call
  | .number _ => .number
  | .string _ => .string

def children : Node → List Node
  | .program body => body
  | .call _ params => params
  | .number _ => []
  | .string _ => []

def label : Node → String
  | .program body => Nat.repr body.length ++ " expression(s)"
  | .call name _ => name
  | .number digits => digits
  | .string value => Text.quoted value

/-- The node as a program: itself if it is one, else the program whose only element it is. -/
def asProgram : Node → Program
  | .program body => ⟨body⟩
  | node => ⟨[node]⟩

/-! ## Source text -/

mutual

def text : Node → String
  | .program body => "\n".intercalate (texts body)
  | .call name params => "(" ++ " ".intercalate (name :: texts params) ++ ")"
  | .number digits => digits
  | .string value => Text.quoted value

def texts : List Node → List String
  | [] => []
  | node :: nodes => text node :: texts nodes

end

@[simp] theorem texts_eq_map (nodes : List Node) : texts nodes = nodes.map text := by
  induction nodes with
  | nil => rfl
  | cons node nodes ih => simp [texts, ih]

/-! ## Tokens -/

mutual

/-- The tokens of a tree, in source order; strings have none, and programs those of their body. -/
def flat : Node → List Token
  | .program body => flats body
  | .call name params => .paren '(' :: .name name :: (flats params ++ [.paren ')'])
  | .number digits => [.number digits]
  | .string _ => []

def flats : List Node → List Token
  | [] => []
  | node :: nodes => flat node ++ flats nodes

end

end Node

namespace Program

instance : DecidableEq Program := fun p q =>
  if h : p.body = q.body then isTrue (by cases p; cases q; exact congrArg _ h)
  else isFalse fun e => h (congrArg _ e)

def text (p : Program) : String := (Node.program p.body).text

def flat (p : Program) : List Token := Node.flats p.body

end Program

end CallForm.Source
