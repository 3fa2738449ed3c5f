/-
  CallForm.Command.Arguments — the arguments of the command `parenc`.

  Two options may stand before the subcommand as well as after it, where the later one counts;
  on the same side no option may be repeated. Asking for help or for the version ends the
  reading at once, as does the first mistake.
-/

namespace CallForm.Command

/-- Where an argument stands: before the subcommand, or after a certain one. -/
inductive Place where
  | root
  | compile
  | inspect
  | listFormats
  deriving DecidableEq, Repr

inductive Opt where
  | config
  | verbose
  | strict
  | format
  | help
  | version
  deriving DecidableEq, Repr

namespace Opt

def long : Opt → String
  | .config => "config"
  | .verbose => "verbose"
  | .strict => "strict"
  | .format => "format"
  | .help => "help"
  | .version => "version"

/-- The letter of an option, if it has one. -/
def letter : Opt → Option Char
  | .config => some 'c'
  | .verbose => some 'v'
  | .strict => none
  | .format => some 'f'
  | .help => some 'h'
  | .version => some 'V'

def takesValue : Opt → Bool
  | .config | .format => true
  | _ => false

end Opt

namespace Place

/-- The options that are known at a place. -/
def options : Place → List Opt
  | .root => [.config, .verbose, .help, .version]
  | .compile => [.strict, .config, .verbose, .help]
  | .inspect => [.format, .config, .verbose, .help]
  | .listFormats => [.config, .verbose, .help]

def takesPath : Place → Bool
  | .compile | .inspect => true
  | .root | .listFormats => false

def subcommand? : String → Option Place
  | "compile" => some .compile
  | "inspect" => some .inspect
  | "list-formats" => some .listFormats
  | _ => none

end Place

inductive UsageError where
  | unknownOption (text : String)
  | unexpectedValue (o : Opt)
  | missingValue (o : Opt)
  | repeated (o : Opt)
  | unexpectedArgument (text : String)
  | unknownSubcommand (text : String)
  | noSubcommand
  deriving DecidableEq, Repr

def UsageError.message : UsageError → String
  | .unknownOption text => "unexpected argument '" ++ text ++ "' found"
  | .unexpectedValue o => "unexpected value for '--" ++ o.long ++ "' found"
  | .missingValue o => "a value is required for '--" ++ o.long ++ "' but none was supplied"
  | .repeated o => "the argument '--" ++ o.long ++ "' cannot be used multiple times"
  | .unexpectedArgument text => "unexpected argument '" ++ text ++ "' found"
  | .unknownSubcommand text => "unrecognized subcommand '" ++ text ++ "'"
  | .noSubcommand => "a subcommand is required"

/-- Why reading the arguments ends before there is something to run. -/
inductive Stop where
  | usage (e : UsageError)
  | help (place : Place)
  | version
  deriving DecidableEq, Repr

/-- What was given at one place. -/
structure Given where
  config : Option String := none
  verbose : Bool := false
  strict : Bool := false
  format : Option String := none
  path : Option String := none
  deriving DecidableEq, Repr

namespace Given

/-- Takes an option that has no value. -/
def flag (g : Given) (place : Place) (o : Opt) : Except Stop Given :=
  match o with
  | .verbose => if g.verbose then .error (.usage (.repeated o)) else .ok { g with verbose := true }
  | .strict => if g.strict then .error (.usage (.repeated o)) else .ok { g with strict := true }
  | .help => .error (.help place)
  | .version => .error .version
  | .config | .format => .error (.usage (.missingValue o))

/-- Takes an option with its value. -/
def option (g : Given) (o : Opt) (value : String) : Except Stop Given :=
  match o with
  | .config =>
    if g.config.isSome then .error (.usage (.repeated o)) else .ok { g with config := some value }
  | .format =>
    if g.format.isSome then .error (.usage (.repeated o)) else .ok { g with format := some value }
  | _ => .error (.usage (.unexpectedValue o))

/-- Takes the path of the source. -/
def source (g : Given) (place : Place) (path : String) : Except Stop Given :=
  if place.takesPath && g.path.isNone then .ok { g with path := some path }
  else .error (.usage (.unexpectedArgument path))

end Given

/-! ## Reading at one place -/

/-- An argument that begins like an option; a hyphen alone does not. -/
def isOptionLike (arg : String) : Bool :=
  match arg.toList with
  | '-' :: _ :: _ => true
  | _ => false

/-- The parts before and after the first equals sign. -/
def splitEquals : List Char → List Char × Option (List Char)
  | [] => ([], none)
  | c :: cs => if c = '=' then ([], some cs) else (c :: (splitEquals cs).1, (splitEquals cs).2)

/-- Reads the letters of one argument, and says which option still needs a value, if any. -/
def readLetters (place : Place) : Given → List Char → Except Stop (Given × Option Opt)
  | g, [] => .ok (g, none)
  | g, c :: cs =>
    match place.options.find? fun o => o.letter = some c with
    | none => .error (.usage (.unknownOption (String.ofList ['-', c])))
    | some o =>
      if o.takesValue then
        match cs with
        | [] => .ok (g, some o)
        | '=' :: value => (g.option o (String.ofList value)).map (·, none)
        | value => (g.option o (String.ofList value)).map (·, none)
      else
        match g.flag place o with
        | .error stop => .error stop
        | .ok g => readLetters place g cs

/-- Reads a long option after its hyphens, and says which option still needs a value, if any. -/
def readLong (place : Place) (g : Given) (cs : List Char) : Except Stop (Given × Option Opt) :=
  let (name, value) := splitEquals cs
  match place.options.find? fun o => o.long = String.ofList name with
  | none => .error (.usage (.unknownOption ("--" ++ String.ofList name)))
  | some o =>
    match value with
    | some value => (g.option o (String.ofList value)).map (·, none)
    | none => if o.takesValue then .ok (g, some o) else (g.flag place o).map (·, none)

/-- Reads an argument that begins like an option. -/
def readOption (place : Place) (g : Given) (arg : String) : Except Stop (Given × Option Opt) :=
  match arg.toList with
  | '-' :: '-' :: cs => readLong place g cs
  | '-' :: cs => readLetters place g cs
  | _ => .error (.usage (.unknownOption arg))

/-- Reads arguments that are no options, whatever they look like. -/
def readPaths (place : Place) : Given → List String → Except Stop Given
  | g, [] => .ok g
  | g, arg :: args => do
    let g ← g.source place arg
    readPaths place g args

/-- Reads the arguments at a place, up to a word for which `stop` holds; that word and the
    arguments after it are returned. -/
def readArguments (place : Place) (stop : Bool) :
    Given → List String → Except Stop (Given × Option (String × List String))
  | g, [] => .ok (g, none)
  | g, arg :: args =>
    if arg = "--" then (readPaths place g args).map (·, none)
    else if isOptionLike arg then
      match readOption place g arg with
      | .error e => .error e
      | .ok (g, none) => readArguments place stop g args
      | .ok (g, some o) =>
        match args with
        | [] => .error (.usage (.missingValue o))
        | value :: args =>
          if isOptionLike value then .error (.usage (.missingValue o))
          else
            match g.option o value with
            | .error e => .error e
            | .ok g => readArguments place stop g args
    else if stop then .ok (g, some (arg, args))
    else
      match g.source place arg with
      | .error e => .error e
      | .ok g => readArguments place stop g args

/-! ## Invocations -/

inductive Task where
  | compile (path : Option String) (strict : Bool)
  | inspect (path : Option String) (format : String)
  | listFormats
  deriving DecidableEq, Repr

structure Invocation where
  config : Option String
  verbose : Bool
  task : Task
  deriving DecidableEq, Repr

def defaultFormat : String := "target-treeviz"

/-- The place whose help is asked for by words after `help`. -/
def helpPlace : List String → Except Stop Invocation
  | [] => .error (.help .root)
  | [name] =>
    if name = "help" then .error (.help .root)
    else
      match Place.subcommand? name with
      | some place => .error (.help place)
      | none => .error (.usage (.unknownSubcommand name))
  | name :: _ => .error (.usage (.unknownSubcommand name))

/-- What the arguments ask to run. -/
def Invocation.ofArguments (args : List String) : Except Stop Invocation := do
  let (outer, rest) ← readArguments .root true {} args
  match rest with
  | none => .error (.usage .noSubcommand)
  | some (name, args) =>
    if name = "help" then helpPlace args
    else
      match Place.subcommand? name with
      | none => .error (.usage (.unknownSubcommand name))
      | some place =>
        let (inner, _) ← readArguments place false {} args
        let task := match place with
          | .compile => .compile inner.path inner.strict
          | .inspect => .inspect inner.path (inner.format.getD defaultFormat)
          | .root | .listFormats => .listFormats
        .ok ⟨inner.config.orElse fun _ => outer.config, inner.verbose || outer.verbose, task⟩

end CallForm.Command
