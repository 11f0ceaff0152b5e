import ProgramSynthesis.Proofs.Behaviour

/-!
# Candidates in context

A context is a candidate with places left open, any number of them at any depth, and need not be
well typed. Two candidates with one output vector have one behaviour, each operator of the
context only sees the behaviours of its operands, and output vectors are read off the behaviour:
so filling a context with one of the two or with the other has the same outcome, be it an output
vector or a fault.
-/

namespace ProgramSynthesis

/-- A candidate in which places are left open. -/
inductive Context where
  /-- An open place. -/
  | hole
  /-- A terminal. -/
  | leaf (terminal : Terminal)
  /-- An operator over its operands in order. -/
  | node (op : Op) (operands : List Context)

namespace Context

mutual

/-- The candidate that has a given one in each open place. -/
def plug (filler : Candidate) : Context → Candidate
  | hole => filler
  | leaf terminal => .leaf terminal
  | node op operands => .node op (plugAll filler operands)
termination_by structural context => context

/-- The operands that have a given candidate in each open place. -/
def plugAll (filler : Candidate) : List Context → List Candidate
  | [] => []
  | operand :: operands => operand.plug filler :: plugAll filler operands
termination_by structural operands => operands

end

/-- Operands are filled one by one. -/
theorem plugAll_eq_map (filler : Candidate) (operands : List Context) :
    plugAll filler operands = operands.map (plug filler) := by
  induction operands with
  | nil => rfl
  | cons operand operands ih => rw [plugAll, ih, List.map_cons]

/-- To prove something of every context, prove it of an open place and of terminals, and of a
node from its operands. -/
@[elab_as_elim]
theorem operandsInduction {motive : Context → Prop} (hole : motive hole)
    (leaf : ∀ terminal, motive (leaf terminal))
    (node : ∀ op operands, (∀ operand ∈ operands, motive operand) → motive (node op operands)) :
    ∀ context, motive context := by
  intro context
  refine Context.rec (motive_1 := motive)
    (motive_2 := fun operands => ∀ operand ∈ operands, motive operand)
    hole leaf (fun op operands ih => node op operands ih) ?_ ?_ context
  · intro operand inside
    cases inside
  · intro first rest firstHolds restHold operand inside
    rcases List.mem_cons.mp inside with rfl | later
    · exact firstHolds
    · exact restHold operand later

variable {examples : List Example} {left right : Candidate}

/-- Candidates of one behaviour have one behaviour in every context. -/
theorem behaviour_plug_congr (alike : left.behaviour examples = right.behaviour examples)
    (context : Context) :
    (context.plug left).behaviour examples = (context.plug right).behaviour examples := by
  induction context using operandsInduction with
  | hole => exact alike
  | leaf terminal => rfl
  | node op operands ih =>
    have each : (operands.map (plug left)).map (·.behaviour examples) =
        (operands.map (plug right)).map (·.behaviour examples) := by
      rw [List.map_map, List.map_map]
      exact List.map_congr_left ih
    rw [plug, plug, plugAll_eq_map, plugAll_eq_map]
    exact Candidate.behaviour_node_congr op each

end Context

namespace Candidate

/-- Observational equivalence is a congruence. Candidates with one output vector may replace each
other in every context, at any depth and in several places at once: the outcome on the examples is
the same output vector or the same fault. -/
theorem outputs_plug_congr (examples : List Example) (left right : Candidate)
    (vector : List Value) (returned : left.outputs examples = .ok vector)
    (returned' : right.outputs examples = .ok vector) (context : Context) :
    (context.plug left).outputs examples = (context.plug right).outputs examples := by
  have alike : left.behaviour examples = right.behaviour examples :=
    behaviour_eq_of_outputs returned returned'
  exact outputs_congr (context.behaviour_plug_congr alike)

/-- Two inputs, with the larger number in either place. -/
def orderedPairs : List Example :=
  [⟨.ofList [("x", 5), ("y", 10)], .int 5⟩, ⟨.ofList [("x", 8), ("y", 3)], .int 3⟩]

/-- The smaller of two variables. -/
def smallerOf (first second : String) : Candidate :=
  .node .ite [.node .lt [.leaf (.var first), .leaf (.var second)],
    .leaf (.var first), .leaf (.var second)]

/-- A comparison that guards an operand of the wrong type, with the same program in both. -/
def guardedContext : Context :=
  .node .and [.node .lt [.hole, .leaf (.number 4)], .hole]

/-- The conjunction does not look behind a comparison that is false, as it is on the first input.
On the second one both programs meet the fault of the operand. -/
theorem outputs_plug_guardedContext :
    (smallerOf "x" "y").outputs orderedPairs = .ok [.int 5, .int 3] ∧
    (smallerOf "y" "x").outputs orderedPairs = .ok [.int 5, .int 3] ∧
    (guardedContext.plug (smallerOf "x" "y")).outputs orderedPairs =
      (guardedContext.plug (smallerOf "y" "x")).outputs orderedPairs ∧
    (guardedContext.plug (smallerOf "x" "y")).outputs (orderedPairs.take 1) =
      .ok [.bool false] ∧
    (guardedContext.plug (smallerOf "x" "y")).outputs orderedPairs = .error (.expectedBool 3) := by
  have returned : (smallerOf "x" "y").outputs orderedPairs = .ok [.int 5, .int 3] := by
    decide +kernel
  have returned' : (smallerOf "y" "x").outputs orderedPairs = .ok [.int 5, .int 3] := by
    decide +kernel
  have same := outputs_plug_congr orderedPairs _ _ _ returned returned' guardedContext
  have guarded : (guardedContext.plug (smallerOf "x" "y")).outputs (orderedPairs.take 1) =
      .ok [.bool false] := by decide +kernel
  have faulty : (guardedContext.plug (smallerOf "x" "y")).outputs orderedPairs =
      .error (.expectedBool 3) := by decide +kernel
  exact ⟨returned, returned', same, guarded, faulty⟩

end Candidate

end ProgramSynthesis
