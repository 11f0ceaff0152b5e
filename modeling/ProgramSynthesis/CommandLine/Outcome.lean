import ProgramSynthesis.CommandLine.Invocation
import ProgramSynthesis.Example.Record

/-!
# Outcomes

What a run of the program prints and the code it exits with. A program that was found is
printed; when none was found within the bounds the program says so and exits with 2, the code
of a usage error. A file that cannot be used and a problem that is not valid exit with 1, a
broken invariant with 101.
-/

namespace ProgramSynthesis.CommandLine

/-- The end of a run. -/
structure Outcome where
  /-- The exit code. -/
  code : UInt32
  /-- What is printed on the output. -/
  output : String
  /-- What is reported apart from the output. -/
  diagnostic : String
deriving DecidableEq, Repr

/-- The name and version of the program. -/
def versionText : String := "stunsynth 0.1.0\n"

/-- How the program is used. -/
def usageText : String :=
  "Usage: stunsynth [--strategy enumerative|stun] [--level N] [--policy exhaustive|restricted]\n" ++
  "                 [--pool-limit N] [--cover-rounds N] COMMAND\n" ++
  "Commands:\n" ++
  "  file PATH [--vars NAMES]... [--consts NUMBERS]...\n" ++
  "  demo min|sum-or-negate|nested [--sample N] [--seed N]\n"

namespace Outcome

/-- The outcome of arguments that name no command. -/
def ofStop : Stop → Outcome
  | .usage => ⟨2, "", usageText⟩
  | .version => ⟨0, versionText, ""⟩
  | .help => ⟨0, usageText, ""⟩

/-- The outcome of a search. -/
def ofAnswer : Except Fault (Except ProblemError (Report Expr)) → Outcome
  | .ok (.ok ⟨some program, _⟩) => ⟨0, "RESULT: " ++ program.render ++ "\n", ""⟩
  | .ok (.ok ⟨none, _⟩) => ⟨2, "FAIL\n", ""⟩
  | .ok (.error error) => ⟨1, "", error.message⟩
  | .error fault => ⟨101, "", fault.message⟩

end Outcome

/-- Do what the program is asked to do, given the contents of the file it asks for, or the error
of reading it. -/
def Invocation.run (invocation : Invocation) (contents : Except SystemError ByteArray) :
    Outcome :=
  let synthesizeFrom (names : List String) (constants : List Int64)
      (examples : List Example) : Outcome :=
    .ofAnswer (synthesize invocation.strategy invocation.config names constants examples)
  match invocation.source with
  | .file _ names constants =>
    match Example.load contents with
    | .ok examples => synthesizeFrom names constants examples
    | .error error => ⟨1, "", error.message⟩
  | .demo demo sample seed =>
    match demo.examples sample seed with
    | .ok examples => synthesizeFrom demo.names demo.constants examples
    | .error fault => ⟨101, "", fault.message⟩

/-- Run the program on arguments, with a function that reads files; a demonstration reads none. -/
def run (files : String → Except SystemError ByteArray) (arguments : List String) : Outcome :=
  match Invocation.ofArguments arguments with
  | .ok invocation => invocation.run ((invocation.path?.map files).getD (.ok .empty))
  | .error stop => .ofStop stop

end ProgramSynthesis.CommandLine
