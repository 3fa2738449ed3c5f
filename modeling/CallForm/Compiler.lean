/-
  CallForm.Compiler — from source text to code in four phases: tokens, source tree, target
  tree, code. Each phase finishes before the next begins; the first failure ends the run and
  says which phase it came from. The events of a run are those of its phases in order.
-/

import CallForm.Conversion.Calls
import CallForm.Source.Reading
import CallForm.Target.Code
import CallForm.Token.Lexeme

namespace CallForm

inductive Phase where
  | lexer
  | parser
  | transformer
  | generator
  deriving DecidableEq, Repr

def Phase.name : Phase → String
  | .lexer => "lexer"
  | .parser => "parser"
  | .transformer => "transformer"
  | .generator => "code generator"

inductive CompileError where
  | lex (e : LexError)
  | parse (e : Source.ParseError)
  | convert (e : Conversion.ConversionError)
  | code (e : Target.CodeError)
  deriving DecidableEq, Repr

namespace CompileError

def phase : CompileError → Phase
  | .lex _ => .lexer
  | .parse _ => .parser
  | .convert _ => .transformer
  | .code _ => .generator

/-- What the phase itself says. -/
def detail : CompileError → String
  | .lex e => e.message
  | .parse e => e.message
  | .convert e => e.message
  | .code e => e.message

def message (e : CompileError) : String := e.phase.name ++ ": " ++ e.detail

end CompileError

namespace Settings

def tokens (s : Settings) (source : String) : Logged CompileError (List Token) :=
  (lex s.strays source).mapError .lex

def parse (s : Settings) (source : String) : Logged CompileError Source.Program := do
  let ts ← s.tokens source
  (Source.parse s.maxDepth ts).mapError .parse

def convert (s : Settings) (source : String) : Logged CompileError Target.Program := do
  let p ← s.parse source
  (Conversion.convert p).mapError .convert

def compile (s : Settings) (source : String) : Logged CompileError String := do
  let p ← s.convert source
  let code ← Logged.ofExcept ((p.code s.style).mapError .code)
  Logged.emit (.compiled source.utf8ByteSize code.utf8ByteSize)
  pure code

end Settings

end CallForm
