import ProgramSynthesis.Main
import ProgramSynthesis.Proofs.FirstOccurrences
import ProgramSynthesis.Proofs.Typing
import ProgramSynthesis.Proofs.Checking
import ProgramSynthesis.Proofs.Behaviour
import ProgramSynthesis.Proofs.Contexts
import ProgramSynthesis.Proofs.Growth
import ProgramSynthesis.Proofs.Reduction
import ProgramSynthesis.Proofs.Survivors
import ProgramSynthesis.Proofs.TypedPools
import ProgramSynthesis.Proofs.Counters
import ProgramSynthesis.Proofs.Levels
import ProgramSynthesis.Proofs.PoolLimit
import ProgramSynthesis.Proofs.Pruning
import ProgramSynthesis.Proofs.Admissible
import ProgramSynthesis.Proofs.Enumeration
import ProgramSynthesis.Proofs.Completeness
import ProgramSynthesis.Proofs.Marks
import ProgramSynthesis.Proofs.Views
import ProgramSynthesis.Proofs.Unifying
import ProgramSynthesis.Proofs.Stages
import ProgramSynthesis.Proofs.Validation
import ProgramSynthesis.Proofs.Safety
import ProgramSynthesis.Proofs.Picks
import ProgramSynthesis.Proofs.Nesting
import ProgramSynthesis.Proofs.Soundness
import ProgramSynthesis.Proofs.Success
import ProgramSynthesis.Proofs.SinglePiece
import ProgramSynthesis.Proofs.Agreement
import ProgramSynthesis.Proofs.SameExamples
import ProgramSynthesis.Proofs.Rearrangement
import ProgramSynthesis.Proofs.LargerBounds
import ProgramSynthesis.Proofs.LargerSpace
import ProgramSynthesis.Proofs.Repetitions
import ProgramSynthesis.Proofs.RepeatedSearch
import ProgramSynthesis.Proofs.Renaming
import ProgramSynthesis.Proofs.RenamedSearch
import ProgramSynthesis.Proofs.MarkedSets
import ProgramSynthesis.Proofs.GreedyPicks
import ProgramSynthesis.Proofs.PicksInOrder
import ProgramSynthesis.Proofs.CoverQuality
import ProgramSynthesis.Proofs.Branches
import ProgramSynthesis.Proofs.Iterations
import ProgramSynthesis.Proofs.ByteOrder
import ProgramSynthesis.Proofs.KeyOrder
import ProgramSynthesis.Proofs.Readability
import ProgramSynthesis.Proofs.WrappingArithmetic
import ProgramSynthesis.Proofs.Loading
import ProgramSynthesis.Proofs.Accounts
import ProgramSynthesis.Proofs.Statistics
import ProgramSynthesis.Proofs.StablePools
import ProgramSynthesis.Proofs.UniformDraws
import ProgramSynthesis.Proofs.Samples
import ProgramSynthesis.Proofs.AddedCounters
import ProgramSynthesis.Proofs.Sessions
