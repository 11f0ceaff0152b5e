import ProgramSynthesis.Search.Unification

/-!
# Synthesizers that serve several requests

A synthesizer keeps its settings and counters from request to request; a request brings its own
grammar and examples. To score pieces or to merge two of them adds to the counters, and a whole
search starts them anew.
-/

namespace ProgramSynthesis

/-- A synthesizer that grows whole programs. -/
structure EnumeratingSynthesizer where
  /-- The bounds of its searches. -/
  config : SearchConfig
  /-- The operators of its programs. -/
  ops : List Op
  /-- The counters of its last search. -/
  counters : Counters
deriving DecidableEq

namespace EnumeratingSynthesizer

/-- A synthesizer with the operators of its settings, before its first search. -/
def fresh (config : SearchConfig) : EnumeratingSynthesizer := ⟨config, config.ops, .zero⟩

/-- The same synthesizer with other operators. -/
def withOps (synthesizer : EnumeratingSynthesizer) (ops : List Op) : EnumeratingSynthesizer :=
  { synthesizer with ops }

/-- The first correct candidate for some examples, and the synthesizer after the search. -/
def run (synthesizer : EnumeratingSynthesizer) (grammar : Grammar) (examples : List Example) :
    Except Fault (Option Candidate × EnumeratingSynthesizer) := do
  let report ← enumerativeSearch ⟨grammar, synthesizer.config.policy, synthesizer.ops⟩ examples
    synthesizer.config.maxLevel synthesizer.config.poolLimit
  return (report.result, { synthesizer with counters := report.counters })

/-- The answers to several searches in order, each with the synthesizer after it. -/
def runAll (synthesizer : EnumeratingSynthesizer) :
    List (Grammar × List Example) → Except Fault (List (Option Candidate × EnumeratingSynthesizer))
  | [] => .ok []
  | (grammar, examples) :: problems => do
    let (answer, after) ← synthesizer.run grammar examples
    return (answer, after) :: (← after.runAll problems)

end EnumeratingSynthesizer

/-- A synthesizer that covers the examples by pieces and unifies them. -/
structure UnifyingSynthesizer where
  /-- The bounds of its searches and the operators of its programs. -/
  config : SearchConfig
  /-- The counters since its last whole search began. -/
  counters : Counters
deriving DecidableEq

namespace UnifyingSynthesizer

/-- What a synthesizer can be asked. -/
inductive Request where
  /-- To score the pieces for some examples. -/
  | score (grammar : Grammar) (examples : List Example)
  /-- To merge two pieces under a condition. -/
  | unify (grammar : Grammar) (examples : List Example) (first second : Piece)
  /-- To cover some examples and unify the pieces. -/
  | run (grammar : Grammar) (examples : List Example)
deriving DecidableEq, Repr

/-- What a synthesizer answers; there is none in an answer when bounds were exhausted first. -/
inductive Answer where
  /-- The scored candidates. -/
  | scored (scored : Option (List Scored))
  /-- The merged piece. -/
  | merged (piece : Option Piece)
  /-- The program. -/
  | found (program : Option Expr)
deriving DecidableEq, Repr

/-- A synthesizer before its first request. -/
def fresh (config : SearchConfig) : UnifyingSynthesizer := ⟨config, .zero⟩

/-- The scored pieces for some examples, and the synthesizer after the scoring. -/
def score (synthesizer : UnifyingSynthesizer) (grammar : Grammar) (examples : List Example) :
    Except Fault (Option (List Scored) × UnifyingSynthesizer) := do
  let report ← ProgramSynthesis.score synthesizer.config grammar examples synthesizer.counters
  return (report.result, { synthesizer with counters := report.counters })

/-- Two pieces merged under a condition, and the synthesizer after the search for it. -/
def unify (synthesizer : UnifyingSynthesizer) (grammar : Grammar) (examples : List Example)
    (first second : Piece) : Except Fault (Option Piece × UnifyingSynthesizer) := do
  let report ← ProgramSynthesis.unify synthesizer.config grammar examples first second
    synthesizer.counters
  return (report.result, { synthesizer with counters := report.counters })

/-- A program for some examples, and the synthesizer after the search. -/
def run (synthesizer : UnifyingSynthesizer) (grammar : Grammar) (examples : List Example) :
    Except Fault (Option Expr × UnifyingSynthesizer) := do
  let report ← unificationSearch synthesizer.config grammar examples
  return (report.result, { synthesizer with counters := report.counters })

/-- The answer to a request, and the synthesizer after it. -/
def serve (synthesizer : UnifyingSynthesizer) :
    Request → Except Fault (Answer × UnifyingSynthesizer)
  | .score grammar examples => do
    let (scored, after) ← synthesizer.score grammar examples
    return (.scored scored, after)
  | .unify grammar examples first second => do
    let (piece, after) ← synthesizer.unify grammar examples first second
    return (.merged piece, after)
  | .run grammar examples => do
    let (program, after) ← synthesizer.run grammar examples
    return (.found program, after)

/-- The answers to several requests in order, each with the synthesizer after it. -/
def serveAll (synthesizer : UnifyingSynthesizer) :
    List Request → Except Fault (List (Answer × UnifyingSynthesizer))
  | [] => .ok []
  | request :: requests => do
    let (answer, after) ← synthesizer.serve request
    return (answer, after) :: (← after.serveAll requests)

end UnifyingSynthesizer

end ProgramSynthesis
