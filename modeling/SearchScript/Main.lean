import SearchScript.CommandLine.Report

/-!
# The command line

Reads what the arguments ask for, performs it, and prints the report.
-/

namespace SearchScript.CommandLine

-- powers are those of the core library, whatever else is imported
attribute [local instance (high)] instPowNat

/-- Why the system could not read. -/
def ReadFault.ofSystem : IO.Error → ReadFault
  | .noFileOrDirectory .. => .notFound
  | .permissionDenied .. => .permissionDenied
  | .inappropriateType .. => .isDirectory
  | error => .other (toString error)

/-- The text of some bytes. -/
def textOf (bytes : ByteArray) : Except ReadFault String :=
  match String.fromUTF8? bytes with
  | some text => .ok text
  | none => .error .notText

/-- Reads a file. -/
def readFile (path : String) : IO (Except ReadFault String) := do
  try
    return textOf (← IO.FS.readBinFile path)
  catch error =>
    return .error (.ofSystem error)

/-- Reads the standard input up to its end. -/
def readInput : IO (Except ReadFault String) := do
  try
    return textOf (← (← IO.getStdin).readBinToEnd)
  catch error =>
    return .error (.ofSystem error)

/-- Reads all that a request needs. -/
def readFor : Request → IO Readable
  | .run command => do
    let files ← command.paths.mapM fun path => do
      return (path, ← readFile path)
    let input ← if command.readsInput then readInput else pure (.ok "")
    return { input, file := fun path => (files.lookup path).getD (.error .notFound) }
  | _ => return { input := .ok "", file := fun _ => .error .notFound }

/-- More steps than a run can take. -/
def fuel : Nat := 2 ^ (60 : Nat)

end SearchScript.CommandLine

open SearchScript.CommandLine in
/-- Performs what the arguments ask for. -/
def main (arguments : List String) : IO UInt32 := do
  let report ← match Request.ofArguments arguments with
    | .error error => pure (Report.ofUsageError error)
    | .ok request => do
      let readable ← readFor request
      match Report.ofRequest fuel readable request with
      | some report => pure report
      | none => pure { status := 1, errors := "Error: the run was cut off\n" }
  (← IO.getStdout).putStr report.output
  (← IO.getStderr).putStr report.errors
  return report.status.toUInt32
