import ProgramSynthesis.CommandLine.Arguments
import ProgramSynthesis.Demo
import ProgramSynthesis.Synthesis

/-!
# Invocations

The arguments of the program name settings, then a command: synthesize from a file of example
records, or from a demonstration problem. Settings stand before the command and belong to the
program; what stands after the command belongs to the command.
-/

namespace ProgramSynthesis.CommandLine

/-- The settings that were given. -/
structure Settings where
  /-- How to search. -/
  strategy : Option Strategy := none
  /-- Growth rounds. -/
  level : Option Nat := none
  /-- Where operands come from. -/
  policy : Option GrowthPolicy := none
  /-- The largest pool. -/
  poolLimit : Option Nat := none
  /-- Growth rounds for pieces. -/
  coverRounds : Option Nat := none

/-- The strategy of a name. -/
def strategy? : String → Option Strategy
  | "enumerative" => some .enumerative
  | "stun" => some .unification
  | _ => none

/-- The policy of a name. -/
def policy? : String → Option GrowthPolicy
  | "exhaustive" => some .exhaustive
  | "restricted" => some .restricted
  | _ => none

/-- The demonstration problem of a name. -/
def demo? : String → Option Demo
  | "min" => some .min
  | "sum-or-negate" => some .sumOrNegate
  | "nested" => some .nested
  | _ => none

namespace Settings

/-- The options of the program; each may be given once. -/
def options : List (OptionSpec Settings) :=
  [{ name := "strategy", hyphenValues := false, store := fun value settings => do
      return { settings with strategy := ← once settings.strategy (strategy? value) } },
    { name := "level", hyphenValues := false, store := fun value settings => do
      return { settings with level := ← once settings.level (natural? value) } },
    { name := "policy", hyphenValues := false, store := fun value settings => do
      return { settings with policy := ← once settings.policy (policy? value) } },
    { name := "pool-limit", hyphenValues := false, store := fun value settings => do
      return { settings with poolLimit := ← once settings.poolLimit (natural? value) } },
    { name := "cover-rounds", hyphenValues := false, store := fun value settings => do
      return { settings with coverRounds := ← once settings.coverRounds (natural? value) } }]

/-- The search settings, the standard ones where none was given. -/
def config (settings : Settings) : SearchConfig :=
  let standard := SearchConfig.standard
  { standard with
    maxLevel := settings.level.getD standard.maxLevel
    policy := settings.policy.getD standard.policy
    poolLimit := settings.poolLimit.getD standard.poolLimit
    coverRounds := settings.coverRounds.getD standard.coverRounds }

end Settings

/-- Where the problem comes from. -/
inductive Source where
  /-- A file of example records, with the declared variables and literals. -/
  | file (path : String) (names : List String) (constants : List Int64)
  /-- A demonstration problem, with drawn inputs if a number of them is given. -/
  | demo (demo : Demo) (sample : Option Nat) (seed : UInt64)
deriving DecidableEq, Repr

/-- What was given to the command that reads a file. -/
structure FileArguments where
  /-- The file. -/
  path : Option String := none
  /-- The declared variables. -/
  names : List String := []
  /-- The literals. -/
  constants : List Int64 := []

namespace FileArguments

/-- The options of the command: lists, split at commas, which may be given again to go on. -/
def options : List (OptionSpec FileArguments) :=
  [{ name := "vars", hyphenValues := false, store := fun value arguments =>
      some { arguments with names := arguments.names ++ value.splitOn "," } },
    { name := "consts", hyphenValues := true, store := fun value arguments => do
      return { arguments with
        constants := arguments.constants ++ (← (value.splitOn ",").mapM integer?) } }]

/-- The positional argument of the command is a path, which is not empty. -/
def places : List (String → FileArguments → Option FileArguments) :=
  [fun value arguments => if value.isEmpty then none else some { arguments with path := value }]

/-- Read the arguments of the command. -/
def read (arguments : List String) : Except Stop Source := do
  let read ← readArguments options {} places arguments
  match read.path with
  | some path => return .file path read.names read.constants
  | none => .error .usage

end FileArguments

/-- What was given to the command that runs a demonstration. -/
structure DemoArguments where
  /-- The demonstration problem. -/
  demo : Option Demo := none
  /-- How many inputs to draw. -/
  sample : Option Nat := none
  /-- What to draw them with. -/
  seed : Option Nat := none

namespace DemoArguments

/-- The options of the command; each may be given once. -/
def options : List (OptionSpec DemoArguments) :=
  [{ name := "sample", hyphenValues := false, store := fun value arguments => do
      return { arguments with sample := ← once arguments.sample (natural? value) } },
    { name := "seed", hyphenValues := false, store := fun value arguments => do
      return { arguments with seed := ← once arguments.seed (natural? value) } }]

/-- The positional argument of the command is the name of a problem. -/
def places : List (String → DemoArguments → Option DemoArguments) :=
  [fun value arguments => do return { arguments with demo := some (← demo? value) }]

/-- Read the arguments of the command. -/
def read (arguments : List String) : Except Stop Source := do
  let read ← readArguments options {} places arguments
  match read.demo with
  | some demo => return .demo demo read.sample (.ofNat (read.seed.getD 0))
  | none => .error .usage

end DemoArguments

/-- What the program is asked to do. -/
structure Invocation where
  /-- How to search. -/
  strategy : Strategy
  /-- The search settings. -/
  config : SearchConfig
  /-- Where the problem comes from. -/
  source : Source

namespace Invocation

/-- What ends a request for help: the usage, of the program or of one command. -/
def helpStop : List String → Stop
  | [] | ["file"] | ["demo"] | ["help"] => .help
  | _ => .usage

/-- Read the command and its arguments. -/
def readCommand (settings : Settings) (command : String) (arguments : List String) :
    Except Stop Invocation := do
  let source ← match command with
    | "file" => FileArguments.read arguments
    | "demo" => DemoArguments.read arguments
    | "help" => .error (helpStop arguments)
    | _ => .error .usage
  return ⟨settings.strategy.getD .unification, settings.config, source⟩

/-- Read settings up to the command, then the command. The version can be asked for in place
of a setting. -/
def readFrom (settings : Settings) (arguments : List String) : Except Stop Invocation :=
  match arguments with
  | [] => .error .usage
  | argument :: rest =>
    match Shape.of argument with
    | .separator => .error .usage
    | .long "version" none => .error .version
    | .long "help" none => .error .help
    | .long name attached =>
      match storeOption Settings.options settings name attached rest with
      | some (settings, ⟨later, _⟩) => readFrom settings later
      | none => .error .usage
    | .short ('V' :: _) => .error .version
    | .short ('h' :: _) => .error .help
    | .short _ => .error .usage
    | .plain => readCommand settings argument rest
termination_by arguments.length

/-- Read the arguments of the program. -/
def ofArguments (arguments : List String) : Except Stop Invocation := readFrom {} arguments

/-- The file to read, if the problem comes from one. -/
def path? (invocation : Invocation) : Option String :=
  match invocation.source with
  | .file path _ _ => some path
  | .demo _ _ _ => none

end Invocation

end ProgramSynthesis.CommandLine
