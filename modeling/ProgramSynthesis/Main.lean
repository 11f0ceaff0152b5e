import ProgramSynthesis.CommandLine.Outcome

/-!
# The program

Reads the arguments and the file they name, and prints what `Invocation.run` decides.
-/

namespace ProgramSynthesis.CommandLine

/-- The text and the number that the runtime gives for an error. -/
def systemError : IO.Error → SystemError
  | .otherError code text | .resourceBusy code text | .resourceVanished code text
  | .unsupportedOperation code text | .hardwareFault code text
  | .unsatisfiedConstraints code text | .illegalOperation code text | .protocolError code text
  | .timeExpired code text | .alreadyExists _ code text | .interrupted _ code text
  | .noFileOrDirectory _ code text | .invalidArgument _ code text
  | .permissionDenied _ code text | .resourceExhausted _ code text
  | .inappropriateType _ code text | .noSuchThing _ code text => ⟨text, some code⟩
  | error => ⟨toString error, none⟩

/-- Read a file. -/
def readFile (path : String) : IO (Except SystemError ByteArray) := do
  try
    let file ← IO.FS.Handle.mk path .read
    return .ok (← file.readBinToEnd)
  catch error =>
    return .error (systemError error)

end ProgramSynthesis.CommandLine

open ProgramSynthesis.CommandLine

/-- Run the program. -/
def main (arguments : List String) : IO UInt32 := do
  let outcome ← match Invocation.ofArguments arguments with
    | .error stop => pure (Outcome.ofStop stop)
    | .ok invocation => do
      let contents ← match invocation.path? with
        | some path => readFile path
        | none => pure (.ok .empty)
      pure (invocation.run contents)
  IO.print outcome.output
  unless outcome.diagnostic.isEmpty do
    IO.eprintln outcome.diagnostic
  return outcome.code
