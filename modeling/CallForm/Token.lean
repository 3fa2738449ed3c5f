/-
  CallForm.Token — the tokens of the source language: parentheses, names and numbers. A
  hand-built token may hold any character and any text; `spelling` is the text it stands
  for, `display` the form that messages and the `token-simple` listing show.
-/

namespace CallForm

inductive Token where
  | paren (c : Char)
  | name (text : String)
  | number (digits : String)
  deriving DecidableEq, Repr

namespace Token

def isOpen : Token → Bool
  | .paren c => c == '('
  | _ => false

def isClose : Token → Bool
  | .paren c => c == ')'
  | _ => false

def isName : Token → Bool
  | .name _ => true
  | _ => false

def kind : Token → String
  | .paren _ => "paren"
  | .name _ => "name"
  | .number _ => "number"

def spelling : Token → String
  | .paren c => String.singleton c
  | .name text => text
  | .number digits => digits

def display (t : Token) : String := "<" ++ t.kind ++ ":" ++ t.spelling ++ ">"

end Token

end CallForm
