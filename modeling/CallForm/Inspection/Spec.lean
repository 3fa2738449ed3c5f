/-
  CallForm.Inspection.Spec — which product of the compiler to show, and in which form. A spec
  is written `stage-format`; of the twenty pairs nine are available, and only these are read.
-/

namespace CallForm.Inspection

/-- The product that is shown. -/
inductive Stage where
  | token
  | ast
  | target
  | code
  deriving DecidableEq, Repr

inductive Format where
  | simple
  | json
  | yaml
  | treeviz
  | text
  deriving DecidableEq, Repr

def Stage.name : Stage → String
  | .token => "token"
  | .ast => "ast"
  | .target => "target"
  | .code => "code"

def Stage.ofName? : String → Option Stage
  | "token" => some .token
  | "ast" => some .ast
  | "target" => some .target
  | "code" => some .code
  | _ => none

def Format.name : Format → String
  | .simple => "simple"
  | .json => "json"
  | .yaml => "yaml"
  | .treeviz => "treeviz"
  | .text => "text"

def Format.ofName? : String → Option Format
  | "simple" => some .simple
  | "json" => some .json
  | "yaml" => some .yaml
  | "treeviz" => some .treeviz
  | "text" => some .text
  | _ => none

@[simp] theorem Stage.ofName?_name (s : Stage) : Stage.ofName? s.name = some s := by cases s <;> rfl

@[simp] theorem Format.ofName?_name (f : Format) : Format.ofName? f.name = some f := by
  cases f <;> rfl

structure Spec where
  stage : Stage
  format : Format
  deriving DecidableEq, Repr

namespace Spec

def text (s : Spec) : String := s.stage.name ++ "-" ++ s.format.name

/-- The specs that can be asked for by name, in the order in which they are listed. -/
def available : List Spec :=
  [⟨.token, .simple⟩, ⟨.token, .json⟩, ⟨.ast, .json⟩, ⟨.ast, .yaml⟩, ⟨.ast, .treeviz⟩,
   ⟨.target, .json⟩, ⟨.target, .yaml⟩, ⟨.target, .treeviz⟩, ⟨.code, .text⟩]

end Spec

/-- Why a text names no available spec. -/
inductive SpecError where
  | noSeparator (text : String)
  | unknownStage (name : String)
  | unknownFormat (name : String)
  | unsupported (spec : Spec)
  deriving DecidableEq, Repr

def SpecError.message : SpecError → String
  | .noSeparator text => "Invalid format: " ++ text
  | .unknownStage name => "Invalid stage: " ++ name
  | .unknownFormat name => "Invalid format type: " ++ name
  | .unsupported spec =>
    "Invalid format type: format '" ++ spec.format.name ++ "' is not supported for the " ++
      spec.stage.name ++ " stage"

/-- The parts before and after the first `mark`. -/
def splitFirst (mark : Char) : List Char → Option (List Char × List Char)
  | [] => none
  | c :: cs =>
    if c = mark then some ([], cs)
    else (splitFirst mark cs).map fun parts => (c :: parts.1, parts.2)

/-- The spec that a text names: the stage stands before the first hyphen. -/
def Spec.ofText (text : String) : Except SpecError Spec :=
  match splitFirst '-' text.toList with
  | none => .error (.noSeparator text)
  | some (before, after) =>
    match Stage.ofName? (String.ofList before) with
    | none => .error (.unknownStage (String.ofList before))
    | some stage =>
      match Format.ofName? (String.ofList after) with
      | none => .error (.unknownFormat (String.ofList after))
      | some format =>
        if ⟨stage, format⟩ ∈ Spec.available then .ok ⟨stage, format⟩
        else .error (.unsupported ⟨stage, format⟩)

end CallForm.Inspection
