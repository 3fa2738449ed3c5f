/-
  CallForm.Main — the command `parenc`: reads the files and the standard input that a run
  needs, and prints what the run leaves.
-/

import CallForm.Command.Run

namespace CallForm

/-- The error of the domain for one of the system. -/
def FileError.ofSystem : IO.Error → FileError
  | .noFileOrDirectory .. => .notFound
  | .inappropriateType _ code details =>
    if code = 21 then .isDirectory else if code = 20 then .notDirectory else .other details
  | e => .other (toString e)

/-- Reads one file. -/
def readPath (path : String) : IO (Except FileError ByteArray) := do
  if path.toList.contains '\x00' then return .error .nulInPath
  if path = "" then return .error .notFound
  try return .ok (← IO.FS.readBinFile path)
  catch e => return .error (.ofSystem e)

end CallForm

def main (args : List String) : IO UInt32 := do
  let (paths, readsInput) := match CallForm.Command.Invocation.ofArguments args with
    | .ok i => (i.paths, i.readsInput)
    | .error _ => ([], false)
  let contents ← paths.mapM fun path => return (path, ← CallForm.readPath path)
  let files : CallForm.Files := fun path => (contents.lookup path).getD (.error .notFound)
  let input ← if readsInput then (← IO.getStdin).readBinToEnd else pure ByteArray.empty
  let outcome := CallForm.Command.run files input args
  (← IO.getStdout).putStr outcome.stdout
  (← IO.getStderr).putStr outcome.stderr
  return outcome.code.toUInt32
