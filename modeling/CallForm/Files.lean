/-
  CallForm.Files — the files a run can see: what reading a path gives, and a snapshot of a
  directory that answers it.
-/

namespace CallForm

inductive FileError where
  | notFound
  | notDirectory
  | isDirectory
  | nameTooLong
  | nulInPath
  | notUtf8
  | other (message : String)
  deriving DecidableEq, Repr

def FileError.message : FileError → String
  | .notFound => "No such file or directory (os error 2)"
  | .notDirectory => "Not a directory (os error 20)"
  | .isDirectory => "Is a directory (os error 21)"
  | .nameTooLong => "File name too long (os error 36)"
  | .nulInPath => "file name contained an unexpected NUL byte"
  | .notUtf8 => "stream did not contain valid UTF-8"
  | .other message => message

/-- What reading each path gives. -/
abbrev Files := String → Except FileError ByteArray

/-- Bytes as text. -/
def decodeUtf8 (bytes : ByteArray) : Except FileError String :=
  match String.fromUTF8? bytes with
  | some text => .ok text
  | none => .error .notUtf8

def Files.readText (files : Files) (path : String) : Except FileError String :=
  match files path with
  | .ok bytes => decodeUtf8 bytes
  | .error e => .error e

def Files.isFile (files : Files) (path : String) : Bool := (files path).toOption.isSome

/-! ## Snapshots of a directory -/

inductive Entry where
  | file (bytes : ByteArray)
  | directory

/-- The entries of a directory, at any depth; a directory above an entry need not be listed. -/
structure Snapshot where
  entries : List (List String × Entry)

/-- The parts of a text between the marks. -/
def splitAll (mark : Char) : List Char → List (List Char)
  | [] => [[]]
  | c :: cs =>
    if c = mark then [] :: splitAll mark cs
    else
      match splitAll mark cs with
      | part :: parts => (c :: part) :: parts
      | [] => [[c]]

namespace Snapshot

/-- The names on a path. -/
def names (path : String) : List String := (splitAll '/' path.toList).map String.ofList

def ofList (entries : List (String × Entry)) : Snapshot :=
  ⟨entries.map fun e => (names e.1, e.2)⟩

/-- What stands at a place. -/
def entry? (s : Snapshot) (place : List String) : Option Entry :=
  match s.entries.lookup place with
  | some e => some e
  | none =>
    if place.isEmpty || s.entries.any fun e => place.isPrefixOf e.1 then some .directory else none

/-- The longest name, and the first length of a path that is too long, in bytes. -/
def maxName : Nat := 255

def maxPath : Nat := 4096

/-- The place that names lead to from a place; `up` counts the levels above the snapshot, where
    nothing is known but that directories lead back. -/
def walk (s : Snapshot) : (up : Nat) → (place : List String) → List String →
    Except FileError (Nat × List String)
  | up, place, [] => .ok (up, place)
  | up, place, name :: rest =>
    let here : Except FileError Unit :=
      if up ≠ 0 then .ok ()
      else
        match s.entry? place with
        | some .directory => .ok ()
        | some (.file _) => .error .notDirectory
        | none => .error .notFound
    match here with
    | .error e => .error e
    | .ok () =>
      if name = "" ∨ name = "." then walk s up place rest
      else if name = ".." then
        match place with
        | [] => walk s (up + 1) [] rest
        | _ => walk s up place.dropLast rest
      else if maxName < name.utf8ByteSize then .error .nameTooLong
      else if up ≠ 0 then .error .notFound
      else walk s up (place ++ [name]) rest

/-- Reads a path relative to the directory. -/
def files (s : Snapshot) : Files := fun path =>
  if path.toList.contains '\x00' then .error .nulInPath
  else if path = "" then .error .notFound
  else if maxPath ≤ path.utf8ByteSize then .error .nameTooLong
  else if path.startsWith "/" then
    -- of what lies outside only the root is known
    .error (if (names path).all (· ∈ ["", ".", ".."]) then .isDirectory else .notFound)
  else
    match s.walk 0 [] (names path) with
    | .error e => .error e
    | .ok (up, place) =>
      if up ≠ 0 then .error .isDirectory
      else
        match s.entry? place with
        | some (.file bytes) => .ok bytes
        | some .directory => .error .isDirectory
        | none => .error .notFound

end Snapshot

end CallForm
