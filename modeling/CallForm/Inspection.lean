/-
  CallForm.Inspection — the product of one compiler stage shown in one format.
-/

import CallForm.Compiler
import CallForm.Drawing
import CallForm.Inspection.Spec
import CallForm.Tagged.Write
import CallForm.Yaml.Block

namespace CallForm.Inspection

inductive InspectError where
  | compile (e : CompileError)
  /-- A stage's product has no such form. -/
  | notSerialization (format : Format)
  deriving DecidableEq, Repr

def InspectError.message : InspectError → String
  | .compile e => e.message
  | .notSerialization format =>
    "Invalid format type: '" ++ format.name ++ "' is not a serialization format"

/-! ## One product in one format -/

def tokensIn (format : Format) (ts : List Token) : Except InspectError String :=
  match format with
  | .simple => .ok (String.join (ts.map Token.display))
  | .json => .ok (Json.array (ts.map Token.json)).pretty
  | .yaml => .ok (Yaml.ofTokens ts)
  | .treeviz | .text => .error (.notSerialization format)

def sourceIn (format : Format) (p : Source.Program) : Except InspectError String :=
  match format with
  | .treeviz => .ok p.drawn
  | .json => .ok p.json.pretty
  | .yaml => .ok (Yaml.ofJson p.json)
  | .simple | .text => .error (.notSerialization format)

def targetIn (format : Format) (p : Target.Program) : Except InspectError String :=
  match format with
  | .treeviz => .ok p.drawn
  | .json => .ok p.json.pretty
  | .yaml => .ok (Yaml.ofJson p.json)
  | .simple | .text => .error (.notSerialization format)

/-! ## Inspection -/

/-- Compiles as far as the spec's stage and shows the product; code is shown in any format. -/
def inspect (s : Settings) (spec : Spec) (source : String) : Logged InspectError String := do
  Logged.emit (.inspecting spec)
  match spec.stage with
  | .token =>
    let ts ← (s.tokens source).mapError .compile
    Logged.ofExcept (tokensIn spec.format ts)
  | .ast =>
    let p ← (s.parse source).mapError .compile
    Logged.ofExcept (sourceIn spec.format p)
  | .target =>
    let p ← (s.convert source).mapError .compile
    Logged.ofExcept (targetIn spec.format p)
  | .code => (s.compile source).mapError .compile

end CallForm.Inspection
