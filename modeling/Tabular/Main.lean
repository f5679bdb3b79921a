import Tabular.CommandLine

/-!
# The program

Reads the files and the input that a run needs, and prints its report. A session
is answered line by line as it is typed.
-/

open Tabular

/-- What the system says of a file that cannot be read. -/
def readFault : IO.Error → ReadFault
  | .noFileOrDirectory .. => .notFound
  | .inappropriateType _ code details =>
    if code = 21 then .isDirectory else if code = 20 then .notDirectory else .other details
  | .userError _ => .notUtf8
  | e => .other (toString e)

def readText (path : String) : IO (Except ReadFault String) := do
  try
    return .ok (← IO.FS.readFile path)
  catch e =>
    return .error (readFault e)

/-- What is known of the files at some paths. -/
def diskOf (known : List (String × Except ReadFault String)) : Disk :=
  ⟨fun path => (lookup path known).getD (.error .notFound)⟩

def readDisk (manifest : String) : IO Disk := do
  let first := [(manifest, ← readText manifest)]
  match Manifest.load (diskOf first) manifest with
  | .error _ => return diskOf first
  | .ok m =>
    let others ← m.entries.mapM fun e => do return (e.path, ← readText e.path)
    return diskOf (first ++ others)

/-- Answers lines until one asks for the end. -/
partial def converse (c : Catalog) (input output : IO.FS.Stream) : IO Unit := do
  output.putStr Session.prompt
  output.flush
  let line ← input.getLine
  if line.isEmpty then return
  match Command.ofLine line with
  | .leave => return
  | command =>
    output.putStr (Session.block c command)
    converse c input output

def main (arguments : List String) : IO UInt32 := do
  let output ← IO.getStdout
  let errors ← IO.getStderr
  match Arguments.ofList? arguments with
  | none =>
    errors.putStr CommandLine.usage
    return 2
  | some a =>
    let disk ← readDisk a.manifest
    match a.task, CommandLine.prepare disk a.manifest with
    | .session, .ok c =>
      output.putStr Session.banner
      converse c (← IO.getStdin) output
      output.putStr Session.farewell
      return 0
    | _, _ =>
      let report := CommandLine.run disk arguments ""
      output.putStr report.output
      errors.putStr report.errors
      return UInt32.ofNat report.code
