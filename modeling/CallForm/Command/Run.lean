/-
  CallForm.Command.Run — a run of the command `parenc`, as a function of its arguments, the
  text on its standard input and the files it can see. A run either succeeds and prints its
  result, or prints nothing and names the first step that failed.
-/

import CallForm.Command.Arguments
import CallForm.Config.Stack
import CallForm.Inspection

namespace CallForm.Command

/-- The step that failed, with its cause. -/
inductive Failure where
  | format (e : Inspection.SpecError)
  | config (e : Config.ConfigError)
  | readInput (e : FileError)
  | readFile (e : FileError)
  | compile (e : CompileError)
  | inspect (e : Inspection.InspectError)

namespace Failure

def step : Failure → String
  | .format _ => "Format error"
  | .config _ => "Configuration error"
  | .readInput _ => "Error reading stdin"
  | .readFile _ => "Error reading file"
  | .compile _ => "Compile error"
  | .inspect _ => "Processing error"

def cause : Failure → String
  | .format e => e.message
  | .config e => e.message
  | .readInput e => e.message
  | .readFile e => e.message
  | .compile e => e.message
  | .inspect e => e.message

def message (f : Failure) : String := f.step ++ ": " ++ f.cause

end Failure

/-- The configuration file of the working directory. -/
def localConfig : String := "parenc.toml"

/-- The local configuration file, the one that is named, and strictness above both. -/
def stack (config : Option String) (strict : Bool) : Config.Stack where
  layers := ⟨localConfig, false⟩ :: config.toList.map fun path => ⟨path, true⟩
  overrides :=
    if strict then
      [⟨⟨"lexer", [.field "unknown_characters"]⟩, .atom none (.text "reject")⟩]
    else []

variable (files : Files) (input : ByteArray)

def settings (config : Option String) (strict : Bool) : Except Failure Settings :=
  ((stack config strict).build files).mapError .config

/-- The source text: of a file, or of standard input if none or a hyphen is given. -/
def readSource (path : Option String) : Except Failure String :=
  let fromInput : Except Failure String := (decodeUtf8 input).mapError .readInput
  match path with
  | none => fromInput
  | some path =>
    if path = "-" then fromInput else (files.readText path).mapError .readFile

/-- The result of an inspection ends its line, if it has one. -/
def completed (text : String) : String :=
  if text.isEmpty || text.toList.getLast? = some '\n' then text else text ++ "\n"

def listing : String :=
  "Available formats:\n\n" ++
    String.join (Inspection.Spec.available.map fun spec => "  " ++ spec.text ++ "\n")

/-- Runs a task; the events are those of the compiler. -/
def perform (config : Option String) : Task → Logged Failure String
  | .compile path strict => do
    let s ← Logged.ofExcept (settings files config strict)
    let source ← Logged.ofExcept (readSource files input path)
    let code ← (s.compile source).mapError .compile
    pure (code ++ "\n")
  | .inspect path format => do
    let spec ← Logged.ofExcept ((Inspection.Spec.ofText format).mapError .format)
    let s ← Logged.ofExcept (settings files config false)
    let source ← Logged.ofExcept (readSource files input path)
    let text ← (Inspection.inspect s spec source).mapError .inspect
    pure (completed text)
  | .listFormats => pure listing

/-- What a run leaves. -/
structure Outcome where
  code : Nat
  stdout : String := ""
  stderr : String := ""
  deriving DecidableEq, Repr

def programName : String := "parenc"

def versionNumber : String := "0.1.0"

/-- The lines that explain how the command is used. -/
def Place.usage : Place → String
  | .root => "Usage: parenc [OPTIONS] <COMMAND>\n\nCommands: compile, inspect, list-formats, help\n"
  | .compile => "Usage: parenc compile [OPTIONS] [path]\n\nOptions: --strict, --config, --verbose\n"
  | .inspect => "Usage: parenc inspect [OPTIONS] [path]\n\nOptions: --format, --config, --verbose\n"
  | .listFormats => "Usage: parenc list-formats [OPTIONS]\n\nOptions: --config, --verbose\n"

def Event.line (e : Event) : String :=
  e.level.name ++ " parenc: " ++ e.message ++
    String.join (e.fields.map fun f => " " ++ f.1 ++ "=" ++ f.2) ++ "\n"

/-- A verbose run reports the compiler's debug events. -/
def reported (verbose : Bool) (events : List Event) : String :=
  if verbose then String.join ((events.filter (·.level = .debug)).map Event.line) else ""

def Invocation.run (i : Invocation) : Outcome :=
  let done := perform files input i.config i.task
  let report := reported i.verbose done.events
  match done.result with
  | .ok text => ⟨0, text, report⟩
  | .error f => ⟨1, "", report ++ f.message ++ "\n"⟩

def Stop.outcome : Stop → Outcome
  | .usage e => ⟨2, "", "error: " ++ e.message ++ "\n\n" ++ Place.root.usage⟩
  | .help place => ⟨0, place.usage, ""⟩
  | .version => ⟨0, programName ++ " " ++ versionNumber ++ "\n", ""⟩

def run (args : List String) : Outcome :=
  match Invocation.ofArguments args with
  | .error stop => stop.outcome
  | .ok i => i.run files input

/-! ## What a run needs -/

/-- The paths that a run may read. -/
def Invocation.paths (i : Invocation) : List String :=
  let configs := localConfig :: i.config.toList
  let sources := match i.task with
    | .compile path _ => path.toList
    | .inspect path _ => path.toList
    | .listFormats => []
  configs ++ configs.filterMap Config.withExtension? ++ sources

/-- Whether a run reads standard input. -/
def Invocation.readsInput (i : Invocation) : Bool :=
  match i.task with
  | .compile path _ | .inspect path _ => path.all (· = "-")
  | .listFormats => false

end CallForm.Command
