import ProgramSynthesis.Growth.Basic

/-!
# Search settings

The bounds of a search and the programs it may build.
-/

namespace ProgramSynthesis

/-- The bounds of a search and what it builds programs from. -/
structure SearchConfig where
  /-- Growth rounds, for whole programs and for branch conditions. -/
  maxLevel : Nat
  /-- Where operands come from. -/
  policy : GrowthPolicy
  /-- A round that would make the pool larger than this is not performed. -/
  poolLimit : Nat
  /-- Growth rounds for the pool that pieces are picked from. -/
  coverRounds : Nat
  /-- The operators of whole programs and of pieces. -/
  ops : List Op
  /-- The operators of branch conditions. -/
  separatorOps : List Op
deriving DecidableEq

namespace SearchConfig

/-- Three rounds, restricted growth, two million candidates, one round for pieces, every
operator. -/
def standard : SearchConfig where
  maxLevel := 3
  policy := .restricted
  poolLimit := 2000000
  coverRounds := 1
  ops := Op.all
  separatorOps := Op.booleans

/-- The space of whole programs and pieces. -/
def space (config : SearchConfig) (grammar : Grammar) : SearchSpace :=
  ⟨grammar, config.policy, config.ops⟩

/-- The space of branch conditions. -/
def separatorSpace (config : SearchConfig) (grammar : Grammar) : SearchSpace :=
  ⟨grammar, config.policy, config.separatorOps⟩

end SearchConfig

end ProgramSynthesis
