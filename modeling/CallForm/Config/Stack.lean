/-
  CallForm.Config.Stack — settings from the defaults, files stacked over them, and overrides
  above all files. Every layer is merged into what lies below it, key by key.
-/

import CallForm.Config.Decode
import CallForm.Files
import CallForm.Toml.Document

namespace CallForm.Config

/-- A file; one that is not required may be missing. -/
structure Layer where
  path : String
  required : Bool
  deriving DecidableEq, Repr

structure Override where
  path : KeyPath
  value : Value

/-- The layers from the lowest up, and what is set above them all. -/
structure Stack where
  layers : List Layer := []
  overrides : List Override := []

/-! ## Defaults -/

def defaultEntry (text : String) : Value := .atom none (.text text)

/-- The bottom layer: the default settings. -/
def defaults : Table :=
  [("lexer", .table none [("unknown_characters", defaultEntry "skip")]),
   ("parser", .table none [("max_depth", .atom none (.integer defaultMaxDepth))]),
   ("codegen", .table none
     [("string_literals", defaultEntry "reject"),
      ("statement_separator", defaultEntry "\n"),
      ("argument_separator", defaultEntry ", ")])]

/-! ## Files -/

/-- A path without the slashes and single dots at its end, which do not change where it leads;
    given and returned last character first. -/
def trimEnd : List Char → List Char
  | '/' :: cs => trimEnd cs
  | '.' :: '/' :: cs => trimEnd cs
  | cs => cs

/-- The path with the extension of configuration files added to its last name, if it has one. -/
def withExtension? (path : String) : Option String :=
  let trimmed := String.ofList (trimEnd path.toList.reverse).reverse
  let name := (Snapshot.names trimmed).getLastD ""
  if name = "" ∨ name = "." ∨ name = ".." then none else some (trimmed ++ ".toml")

/-- The file that a path means: itself, or with the extension added. -/
def findFile (files : Files) (path : String) : Option String :=
  if files.isFile path then some path
  else (withExtension? path).filter files.isFile

/-- A path as messages name it: without empty parts and single dots. -/
def shownPath (path : String) : String :=
  "/".intercalate ((Snapshot.names path).filter fun name => name ≠ "" && name ≠ ".")

/-- The top-level entries of a layer. -/
def Layer.entries (layer : Layer) (files : Files) : Except ConfigError Table :=
  let missing (e : ConfigError) : Except ConfigError Table :=
    if layer.required then .error e else .ok []
  match findFile files layer.path with
  | none => missing (.fileNotFound layer.path)
  | some path =>
    match files.readText path with
    | .error _ => missing .fileNotUtf8
    | .ok text =>
      match Toml.ofText text with
      | none => .error .fileParse
      | some entries => .ok (Value.ofTomlEntries (shownPath path) entries)

/-! ## Merging -/

/-- Sets an entry of a layer; its name may be a path, and is taken literally if it is none. -/
def mergeEntry (root : Table) (entry : String × Value) : Table :=
  match KeyPath.ofText entry.1 with
  | .ok path => path.set entry.2 root
  | .error _ => setName entry.1 entry.2 root

def mergeLayer (root : Table) (entries : Table) : Table := entries.foldl mergeEntry root

/-- Merges the layers in order. -/
def mergeLayers (files : Files) : Table → List Layer → Except ConfigError Table
  | root, [] => .ok root
  | root, layer :: layers => do
    let entries ← layer.entries files
    mergeLayers files (mergeLayer root entries) layers

namespace Stack

/-- An override of the value at a key; the key is read at once. -/
def override (s : Stack) (key : String) (v : Value) : Except ConfigError Stack :=
  match KeyPath.ofText key with
  | .ok path => .ok { s with overrides := s.overrides.filter (·.path ≠ path) ++ [⟨path, v⟩] }
  | .error e => .error (.badKey e)

def addLayer (s : Stack) (layer : Layer) : Stack := { s with layers := s.layers ++ [layer] }

/-- The configuration of all layers and overrides. -/
def merged (s : Stack) (files : Files) : Except ConfigError Table := do
  let root ← mergeLayers files defaults s.layers
  .ok (s.overrides.foldl (fun root o => o.path.set o.value root) root)

/-- The settings of all layers and overrides. -/
def build (s : Stack) (files : Files) : Except ConfigError Settings := do
  let root ← s.merged files
  decode root

end Stack

end CallForm.Config
