import ProseLint.CommandLine

/-!
# The program

Reads the files that the arguments name, runs the check, and writes the report and the log.
-/
namespace ProseLint.CommandLine

/-- The usual words for a failure of the operating system, with its number. A number may come
negated in 32 bits. -/
def osFailure (code : UInt32) (details : String) : Text :=
  let number := if code < 0x80000000 then code.toNat else (0 - code).toNat
  let words :=
    match number with
    | 2 => "No such file or directory"
    | 13 => "Permission denied"
    | 20 => "Not a directory"
    | 21 => "Is a directory"
    | _ => details
  words.toList ++ " (os error ".toList ++ Text.ofNat number ++ [')']

/-- The reason of a failed read. -/
def readFailure (e : IO.Error) : Text :=
  match e with
  | .noFileOrDirectory _ code details => osFailure code details
  | .inappropriateType _ code details => osFailure code details
  | .permissionDenied _ code details => osFailure code details
  | _ => e.toString.toList

def readContents (path : Text) : IO File.Contents := do
  try
    return .ok (← IO.FS.readBinFile (String.ofList path))
  catch e =>
    return .error (readFailure e)

/-- The files of a run, each read once. -/
def readFiles (paths : List Text) : IO File.Lookup := do
  let found ← paths.mapM fun path => do return (path, ← readContents path)
  return fun path => (found.lookup path).getD (.error (readFailure (.userError "not read")))

end ProseLint.CommandLine

open ProseLint ProseLint.CommandLine in
def main (args : List String) : IO UInt32 := do
  match parse? (args.map String.toList) with
  | none =>
    IO.eprintln "Usage: prose-lint [OPTIONS] --conf <CONF> <INPUTS>..."
    return 2
  | some arguments =>
    let paths := arguments.configuration :: arguments.characterTable.toList ++ arguments.inputs
    let outcome := run arguments (← readFiles paths)
    for line in outcome.errorLines do
      IO.eprintln (String.ofList line)
    let out ← IO.getStdout
    out.write (ByteArray.mk outcome.output.toArray)
    out.flush
    return UInt32.ofNat outcome.exitCode
