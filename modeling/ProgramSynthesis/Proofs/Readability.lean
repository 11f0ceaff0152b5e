import ProgramSynthesis.Proofs.Typing

/-!
# Unique readability

The written form of a program can be read in one way only. A constant, a literal or a name is a
run of letters, digits, underscores and signs, and what follows one is never of these characters.
Every other program opens with a parenthesis, and its second character, or the character after
its first part, tells the forms apart: the opening of a conditional reads like the name `if`, but
a blank follows where an operator would. So a written form determines its program and where it
ends in any longer text, and a candidate is determined by the program that it compiles to.
-/

namespace ProgramSynthesis

/-- Whether a name is a letter or an underscore, and then letters, digits and underscores. -/
def isIdentifier (name : String) : Bool :=
  match name.toList with
  | [] => false
  | first :: rest => (first.isAlpha || first = '_') &&
    rest.all fun character => character.isAlphanum || character = '_'

/-- Whether a character can stand in a constant, a literal or a name. -/
def isAtomic (character : Char) : Bool :=
  character.isAlphanum || character = '_' || character = '-'

/-- Whether a text is empty or goes on with a character that no constant, literal or name has. -/
def Delimited (rest : List Char) : Prop := ∀ character ∈ rest.head?, isAtomic character = false

/-- A character that is not atomic delimits what stands before it. -/
theorem delimited_cons {character : Char} (rest : List Char)
    (stops : isAtomic character = false) : Delimited (character :: rest) := by
  rintro _ ⟨⟩
  exact stops

/-- A run of atomic characters is what is taken from a text while its characters are atomic. -/
theorem takeWhile_of_delimited {run rest : List Char}
    (atomic : ∀ character ∈ run, isAtomic character = true) (delimited : Delimited rest) :
    (run ++ rest).takeWhile isAtomic = run := by
  rw [List.takeWhile_append_of_pos atomic]
  cases rest with
  | nil => exact List.append_nil run
  | cons character rest =>
    have stops : isAtomic character = false := delimited character rfl
    simp [stops]

/-- A run of atomic characters ends in the same place however it is read. -/
theorem eq_of_run_append_eq {run other rest ending : List Char}
    (atomic : ∀ character ∈ run, isAtomic character = true)
    (others : ∀ character ∈ other, isAtomic character = true)
    (delimited : Delimited rest) (ended : Delimited ending)
    (same : run ++ rest = other ++ ending) : run = other ∧ rest = ending := by
  have runs : run = other := by
    rw [← takeWhile_of_delimited atomic delimited, same, takeWhile_of_delimited others ended]
  subst runs
  exact ⟨rfl, List.append_cancel_left same⟩

/-- A number is written by digits, and by one at least. -/
theorem exists_head_repr (number : Nat) : ∃ first rest, number.repr.toList = first :: rest ∧
    ∀ character ∈ first :: rest, character.isDigit = true := by
  obtain ⟨first, rest, written⟩ := List.exists_cons_of_ne_nil
    (Nat.toDigits_ne_nil : Nat.toDigits 10 number ≠ [])
  refine ⟨first, rest, Nat.toList_repr.trans written, fun character inside => ?_⟩
  rw [← written] at inside
  exact Nat.isDigit_of_mem_toDigits (by decide) (by decide) inside

/-- A number is determined by its digits. -/
theorem eq_of_repr_eq {number other : Nat} (same : number.repr.toList = other.repr.toList) :
    number = other := by
  rw [Nat.toList_repr, Nat.toList_repr] at same
  calc
    number = Nat.ofDigitChars 10 (Nat.toDigits 10 number) 0 := Nat.ofDigitChars_ten_toDigits.symm
    _ = Nat.ofDigitChars 10 (Nat.toDigits 10 other) 0 := by rw [same]
    _ = other := Nat.ofDigitChars_ten_toDigits

/-- A literal is written by the digits of its magnitude, behind a sign if it is negative. -/
theorem toList_decimal_cases (value : Int64) :
    (∃ number, value.toInt = .ofNat number ∧ (decimal value).toList = number.repr.toList) ∨
    ∃ number, value.toInt = .negSucc number ∧
      (decimal value).toList = '-' :: (number + 1).repr.toList := by
  show (∃ number, value.toInt = .ofNat number ∧ value.toInt.repr.toList = _) ∨
    ∃ number, value.toInt = .negSucc number ∧ value.toInt.repr.toList = _
  cases value.toInt with
  | ofNat number => exact .inl ⟨number, rfl, rfl⟩
  | negSucc number =>
    refine .inr ⟨number, rfl, ?_⟩
    show ("-" ++ (number + 1).repr).toList = _
    rw [String.toList_append]
    rfl

/-- A literal starts with a sign or a digit, and all its characters are atomic. -/
theorem exists_head_decimal (value : Int64) : ∃ first rest,
    (decimal value).toList = first :: rest ∧ (first = '-' ∨ first.isDigit = true) ∧
      ∀ character ∈ first :: rest, isAtomic character = true := by
  have atomic : ∀ character : Char, character.isDigit = true → isAtomic character = true := by
    intro character digit
    simp [isAtomic, Char.isAlphanum, digit]
  rcases toList_decimal_cases value with ⟨number, _, written⟩ | ⟨number, _, written⟩
  · obtain ⟨first, rest, digits, each⟩ := exists_head_repr number
    exact ⟨first, rest, written.trans digits, .inr (each first List.mem_cons_self),
      fun character inside => atomic character (each character inside)⟩
  · obtain ⟨first, rest, digits, each⟩ := exists_head_repr (number + 1)
    refine ⟨'-', first :: rest, written.trans (congrArg _ digits), .inl rfl, ?_⟩
    refine List.forall_mem_cons.mpr ⟨by decide, fun character inside => ?_⟩
    exact atomic character (each character inside)

/-- A literal is determined by its written form: a sign is no digit, and the digits determine the
magnitude. -/
theorem eq_of_decimal_eq {value other : Int64} (same : decimal value = decimal other) :
    value = other := by
  have unsigned : ∀ (number : Nat) (digits : List Char), number.repr.toList ≠ '-' :: digits := by
    intro number digits signed
    obtain ⟨first, rest, written, each⟩ := exists_head_repr number
    obtain rfl : first = '-' := (List.cons.inj (written.symm.trans signed)).1
    exact absurd (each '-' List.mem_cons_self) (by decide)
  have written := congrArg String.toList same
  apply Int64.toInt_inj.mp
  rcases toList_decimal_cases value with ⟨number, exact, digits⟩ | ⟨number, exact, digits⟩ <;>
    rcases toList_decimal_cases other with
      ⟨another, exact', digits'⟩ | ⟨another, exact', digits'⟩ <;>
    rw [digits, digits'] at written
  · rw [exact, exact', eq_of_repr_eq written]
  · exact absurd written (unsigned _ _)
  · exact absurd written.symm (unsigned _ _)
  · have magnitudes := eq_of_repr_eq (List.cons.inj written).2
    rw [exact, exact', Nat.add_right_cancel magnitudes]

/-- An identifier starts with a letter or an underscore, and all its characters are atomic. -/
theorem exists_head_identifier {name : String} (identifier : isIdentifier name = true) :
    ∃ first rest, name.toList = first :: rest ∧ (first.isAlpha = true ∨ first = '_') ∧
      ∀ character ∈ first :: rest, isAtomic character = true := by
  rw [isIdentifier] at identifier
  split at identifier
  · cases identifier
  · rename_i first rest written
    simp only [Bool.and_eq_true, Bool.or_eq_true, decide_eq_true_eq, List.all_eq_true]
      at identifier
    obtain ⟨starts, follows⟩ := identifier
    refine ⟨first, rest, written, starts, List.forall_mem_cons.mpr ⟨?_, ?_⟩⟩
    · rcases starts with letter | rfl
      · simp [isAtomic, Char.isAlphanum, letter]
      · decide
    · intro character inside
      rcases follows character inside with letter | rfl
      · simp [isAtomic, letter]
      · decide

/-- What starts a literal does not start a name. -/
theorem ne_of_heads {first other : Char} (literal : first = '-' ∨ first.isDigit = true)
    (name : other.isAlpha = true ∨ other = '_') : first ≠ other := by
  rintro rfl
  rcases literal with rfl | digit
  · exact absurd name (by decide)
  · have most : first.val.toNat ≤ 57 := (Char.isDigit_iff_toNat.mp digit).2
    rcases name with letter | rfl
    · rcases (Bool.or_eq_true _ _).mp letter with upper | lower
      · have least : 65 ≤ first.val.toNat :=
          UInt32.le_iff_toNat_le.mp (of_decide_eq_true upper).1
        omega
      · have least : 97 ≤ first.val.toNat :=
          UInt32.le_iff_toNat_le.mp (of_decide_eq_true ((Bool.and_eq_true _ _).mp lower).1)
        omega
    · exact absurd digit (by decide)

namespace Expr

/-- Whether an expression is written without parentheses. -/
def IsAtom : Expr → Prop
  | falsity | number _ | var _ => True
  | not _ | binary _ _ _ | ite _ _ _ => False

/-- Whether all variables of an expression are identifiers and none is named like the constant. -/
def Named : Expr → Prop
  | falsity | number _ => True
  | var name => isIdentifier name = true ∧ name ≠ "false"
  | not operand => operand.Named
  | binary _ left right => left.Named ∧ right.Named
  | ite condition consequent alternative =>
    condition.Named ∧ consequent.Named ∧ alternative.Named

variable {program other : Expr} {rest ending : List Char}

/-- An expression without parentheses is written in atomic characters, at least one. -/
theorem IsAtom.characters (atom : program.IsAtom) (named : program.Named) :
    program.render.toList ≠ [] ∧
      ∀ character ∈ program.render.toList, isAtomic character = true := by
  cases program with
  | falsity =>
    have identifier : isIdentifier "false" = true := by decide
    obtain ⟨first, rest, written, _, atomic⟩ := exists_head_identifier identifier
    rw [render, written]
    exact ⟨List.cons_ne_nil _ _, atomic⟩
  | number value =>
    obtain ⟨first, rest, written, _, atomic⟩ := exists_head_decimal value
    rw [render, written]
    exact ⟨List.cons_ne_nil _ _, atomic⟩
  | var name =>
    obtain ⟨first, rest, written, _, atomic⟩ := exists_head_identifier named.1
    rw [render, written]
    exact ⟨List.cons_ne_nil _ _, atomic⟩
  | not operand => cases atom
  | binary op left right => cases atom
  | ite condition consequent alternative => cases atom

/-- Every other expression opens with a parenthesis. -/
theorem exists_open (compound : ¬program.IsAtom) :
    ∃ tail, program.render.toList = '(' :: tail := by
  cases program with
  | falsity | number _ | var _ => exact absurd trivial compound
  | not operand | binary op left right | ite condition consequent alternative =>
    simp [render]

/-- Expressions that are written alike without parentheses are equal. A literal is written unlike
a name or the constant, whose first characters are letters. -/
theorem IsAtom.eq_of_render_eq (atom : program.IsAtom) (named : program.Named)
    (atomOther : other.IsAtom) (namedOther : other.Named)
    (same : program.render = other.render) : program = other := by
  have apart : ∀ value name, (isIdentifier name = true) → decimal value ≠ name := by
    intro value name identifier same
    obtain ⟨first, rest, written, literal, _⟩ := exists_head_decimal value
    obtain ⟨head, tail, spelled, letter, _⟩ := exists_head_identifier identifier
    rw [same, spelled] at written
    exact ne_of_heads literal letter (List.cons.inj written).1.symm
  cases program with
  | falsity =>
    cases other with
    | falsity => rfl
    | number value => exact absurd same.symm (apart value "false" (by decide))
    | var name => exact absurd same.symm namedOther.2
    | not operand | binary op left right | ite condition consequent alternative => cases atomOther
  | number value =>
    cases other with
    | falsity => exact absurd same (apart value "false" (by decide))
    | number another =>
      rw [eq_of_decimal_eq same]
    | var name => exact absurd same (apart value name namedOther.1)
    | not operand | binary op left right | ite condition consequent alternative => cases atomOther
  | var name =>
    cases other with
    | falsity => exact absurd same named.2
    | number value => exact absurd same.symm (apart value name named.1)
    | var another => exact congrArg var same
    | not operand | binary op left right | ite condition consequent alternative => cases atomOther
  | not operand | binary op left right | ite condition consequent alternative => cases atom

/-- An expression without parentheses determines itself and where it ends in a longer text. -/
theorem IsAtom.eq_of_append_eq (atom : program.IsAtom) (named : program.Named)
    (namedOther : other.Named) (delimited : Delimited rest) (ended : Delimited ending)
    (same : program.render.toList ++ rest = other.render.toList ++ ending) :
    program = other ∧ rest = ending := by
  obtain ⟨nonempty, atomic⟩ := atom.characters named
  by_cases atomOther : other.IsAtom
  · obtain ⟨_, others⟩ := atomOther.characters namedOther
    obtain ⟨runs, rests⟩ := eq_of_run_append_eq atomic others delimited ended same
    exact ⟨atom.eq_of_render_eq named atomOther namedOther (String.toList_inj.mp runs), rests⟩
  · -- An atomic character would have to be a parenthesis.
    obtain ⟨tail, opens⟩ := exists_open atomOther
    obtain ⟨first, run, written⟩ := List.exists_cons_of_ne_nil nonempty
    rw [written, opens] at same
    have head : first = '(' := (List.cons.inj same).1
    have parenthesis : isAtomic '(' = true := head ▸ atomic first (written ▸ List.mem_cons_self)
    exact absurd parenthesis (by decide)

/-- An expression without parentheses is found again at the front of a longer text. -/
theorem IsAtom.eq_of_eq_append (atom : other.IsAtom) (named : program.Named)
    (namedOther : other.Named) (delimited : Delimited rest) (ended : Delimited ending)
    (same : program.render.toList ++ rest = other.render.toList ++ ending) :
    program = other ∧ rest = ending := by
  obtain ⟨programs, rests⟩ := atom.eq_of_append_eq namedOther named ended delimited same.symm
  exact ⟨programs.symm, rests.symm⟩

/-- No expression starts with the sign of a negation. -/
theorem head_ne_negation (named : program.Named) (tail : List Char) :
    program.render.toList ++ rest ≠ '!' :: tail := by
  intro same
  by_cases atom : program.IsAtom
  · obtain ⟨nonempty, atomic⟩ := atom.characters named
    obtain ⟨first, run, written⟩ := List.exists_cons_of_ne_nil nonempty
    rw [written] at same
    have head : first = '!' := (List.cons.inj same).1
    have sign : isAtomic '!' = true := head ▸ atomic first (written ▸ List.mem_cons_self)
    exact absurd sign (by decide)
  · obtain ⟨run, opens⟩ := exists_open atom
    rw [opens] at same
    exact absurd (List.cons.inj same).1 (by decide)

/-- The written form of a negation in front of a text. -/
theorem negation_append (operand : Expr) (rest : List Char) :
    operand.not.render.toList ++ rest = '(' :: '!' :: (operand.render.toList ++ ')' :: rest) := by
  simp [render]

/-- The written form of a two-operand form in front of a text. -/
theorem binary_append (op : BinaryOp) (left right : Expr) (rest : List Char) :
    (binary op left right).render.toList ++ rest = '(' :: (left.render.toList ++
      (op.symbol.toList ++ (right.render.toList ++ ')' :: rest))) := by
  simp [render]

/-- The written form of a conditional in front of a text: it opens like the name `if`. -/
theorem ite_append (condition consequent alternative : Expr) (rest : List Char) :
    (ite condition consequent alternative).render.toList ++ rest =
      '(' :: ((var "if").render.toList ++ ' ' :: (condition.render.toList ++
        ' ' :: ("then ".toList ++ (consequent.render.toList ++
          ' ' :: ("else ".toList ++ (alternative.render.toList ++ ')' :: rest)))))) := by
  simp [render]

/-- A sign is no atomic character and no blank. -/
theorem exists_head_symbol (op : BinaryOp) (rest : List Char) : ∃ first tail,
    op.symbol.toList ++ rest = first :: tail ∧ isAtomic first = false ∧ first ≠ ' ' := by
  cases op with
  | plus => exact ⟨'+', rest, rfl, by decide, by decide⟩
  | times => exact ⟨'*', rest, rfl, by decide, by decide⟩
  | lt => exact ⟨'<', rest, rfl, by decide, by decide⟩
  | and => exact ⟨'&', '&' :: rest, rfl, by decide, by decide⟩

/-- No sign is the beginning of another one. -/
theorem symbol_append_inj {op form : BinaryOp}
    (same : op.symbol.toList ++ rest = form.symbol.toList ++ ending) :
    op = form ∧ rest = ending := by
  cases op <;> cases form <;> simp_all [BinaryOp.symbol]

/-- The sign of a two-operand form delimits its first operand. -/
theorem delimited_symbol (op : BinaryOp) (rest : List Char) :
    Delimited (op.symbol.toList ++ rest) := by
  obtain ⟨first, tail, opens, stops, _⟩ := exists_head_symbol op rest
  rw [opens]
  exact delimited_cons tail stops

/-- The name that a conditional opens like is an identifier. -/
theorem named_opening : (var "if").Named := ⟨by decide, by decide⟩

/-- A two-operand form is not read as a conditional: where its first operand is the name `if`, a
sign follows and not a blank. -/
theorem operand_append_ne_opening (op : BinaryOp) (named : program.Named) :
    program.render.toList ++ (op.symbol.toList ++ rest) ≠
      (var "if").render.toList ++ ' ' :: ending := by
  intro same
  have blank : Delimited (' ' :: ending) := delimited_cons ending (by decide)
  have atom : (var "if").IsAtom := trivial
  obtain ⟨_, rests⟩ := atom.eq_of_append_eq named_opening named blank (delimited_symbol op rest)
    same.symm
  obtain ⟨first, tail, opens, _, sign⟩ := exists_head_symbol op rest
  rw [opens] at rests
  exact sign (List.cons.inj rests).1.symm

/-- Unique readability. An expression determines, by its written form alone, itself and where it
ends in a longer text. -/
theorem eq_of_append_eq (named : program.Named) (namedOther : other.Named)
    (delimited : Delimited rest) (ended : Delimited ending)
    (same : program.render.toList ++ rest = other.render.toList ++ ending) :
    program = other ∧ rest = ending := by
  have close : ∀ rest, Delimited (')' :: rest) := fun rest => delimited_cons rest (by decide)
  have blank : ∀ rest, Delimited (' ' :: rest) := fun rest => delimited_cons rest (by decide)
  induction program generalizing other rest ending with
  | falsity | number _ | var _ =>
    exact IsAtom.eq_of_append_eq trivial named namedOther delimited ended same
  | not operand ih =>
    cases other with
    | falsity | number _ | var _ =>
      exact IsAtom.eq_of_eq_append trivial named namedOther delimited ended same
    | not another =>
      rw [negation_append, negation_append] at same
      have operandNamed : another.Named := namedOther
      obtain ⟨rfl, rests⟩ := ih named operandNamed (close rest) (close ending)
        (List.cons.inj (List.cons.inj same).2).2
      exact ⟨rfl, (List.cons.inj rests).2⟩
    | binary op left right =>
      rw [negation_append, binary_append] at same
      exact absurd (List.cons.inj same).2.symm (head_ne_negation namedOther.1 _)
    | ite condition consequent alternative =>
      rw [negation_append, ite_append] at same
      exact absurd (List.cons.inj same).2.symm (head_ne_negation named_opening _)
  | binary op left right leftIh rightIh =>
    cases other with
    | falsity | number _ | var _ =>
      exact IsAtom.eq_of_eq_append trivial named namedOther delimited ended same
    | not another =>
      rw [negation_append, binary_append] at same
      exact absurd (List.cons.inj same).2 (head_ne_negation named.1 _)
    | binary form first second =>
      rw [binary_append, binary_append] at same
      obtain ⟨rfl, afterLeft⟩ := leftIh named.1 namedOther.1 (delimited_symbol op _)
        (delimited_symbol form _) (List.cons.inj same).2
      obtain ⟨rfl, afterSign⟩ := symbol_append_inj afterLeft
      obtain ⟨rfl, rests⟩ := rightIh named.2 namedOther.2 (close rest) (close ending) afterSign
      exact ⟨rfl, (List.cons.inj rests).2⟩
    | ite condition consequent alternative =>
      rw [binary_append, ite_append] at same
      exact absurd (List.cons.inj same).2 (operand_append_ne_opening op named.1)
  | ite condition consequent alternative conditionIh consequentIh alternativeIh =>
    cases other with
    | falsity | number _ | var _ =>
      exact IsAtom.eq_of_eq_append trivial named namedOther delimited ended same
    | not another =>
      rw [negation_append, ite_append] at same
      exact absurd (List.cons.inj same).2 (head_ne_negation named_opening _)
    | binary op left right =>
      rw [binary_append, ite_append] at same
      exact absurd (List.cons.inj same).2.symm (operand_append_ne_opening op namedOther.1)
    | ite test first second =>
      rw [ite_append, ite_append] at same
      obtain ⟨rfl, afterCondition⟩ := conditionIh named.1 namedOther.1 (blank _) (blank _)
        (List.cons.inj (List.append_cancel_left (List.cons.inj same).2)).2
      obtain ⟨rfl, afterConsequent⟩ := consequentIh named.2.1 namedOther.2.1 (blank _) (blank _)
        (List.append_cancel_left (List.cons.inj afterCondition).2)
      obtain ⟨rfl, rests⟩ := alternativeIh named.2.2 namedOther.2.2 (close rest) (close ending)
        (List.append_cancel_left (List.cons.inj afterConsequent).2)
      exact ⟨rfl, (List.cons.inj rests).2⟩

/-- Expressions that are written alike are equal. -/
theorem eq_of_render_eq (named : program.Named) (namedOther : other.Named)
    (same : program.render = other.render) : program = other := by
  have alike : program.render.toList ++ [] = other.render.toList ++ [] := by rw [same]
  have nothing : Delimited [] := by
    rintro _ ⟨⟩
  exact (eq_of_append_eq named namedOther nothing nothing alike).1

/-- The candidate that an expression is compiled from. -/
def candidate : Expr → Candidate
  | falsity => .leaf .falsity
  | number value => .leaf (.number value)
  | var name => .leaf (.var name)
  | not operand => .node .not [operand.candidate]
  | binary op left right => .node op.op [left.candidate, right.candidate]
  | ite condition consequent alternative =>
    .node .ite [condition.candidate, consequent.candidate, alternative.candidate]

end Expr

namespace Candidate

/-- Whether every operator of a candidate has as many operands as it asks for, and every variable
is an identifier that is not written like the constant. -/
inductive Readable : Candidate → Prop where
  /-- The constant. -/
  | falsity : Readable (leaf .falsity)
  /-- A literal. -/
  | number (value : Int64) : Readable (leaf (.number value))
  /-- A variable that is an identifier other than the constant. -/
  | var {name : String} (identifier : isIdentifier name = true) (other : name ≠ "false") :
    Readable (leaf (.var name))
  /-- An operator over as many readable operands as it asks for. -/
  | node {op : Op} {operands : List Candidate} (filled : operands.length = op.arity)
    (each : ∀ operand ∈ operands, Readable operand) : Readable (node op operands)

/-- A readable candidate compiles to an expression with the same names, from which it can be
restored. -/
theorem Readable.exists_compile {candidate : Candidate} (readable : candidate.Readable) :
    ∃ program, candidate.compile = .ok program ∧ program.Named ∧
      program.candidate = candidate := by
  induction readable with
  | falsity => exact ⟨.falsity, rfl, trivial, rfl⟩
  | number value => exact ⟨.number value, rfl, trivial, rfl⟩
  | @var name identifier other => exact ⟨.var name, rfl, ⟨identifier, other⟩, rfl⟩
  | @node op operands filled each ih =>
    rcases op.form_cases with ⟨form, rfl⟩ | rfl | rfl
    · have two : operands.length = 2 := by
        rw [filled, Op.arity, form.signature_op]
        rfl
      obtain ⟨left, right, rfl⟩ := List.length_eq_two.mp two
      obtain ⟨first, leftCompiled, leftNamed, rfl⟩ := ih left (by simp)
      obtain ⟨second, rightCompiled, rightNamed, rfl⟩ := ih right (by simp)
      refine ⟨.binary form first second, ?_, ⟨leftNamed, rightNamed⟩, rfl⟩
      rw [compile_binary, leftCompiled, rightCompiled]
      rfl
    · obtain ⟨operand, rfl⟩ := List.length_eq_one_iff.mp filled
      obtain ⟨program, compiled, named, rfl⟩ := ih operand (by simp)
      refine ⟨.not program, ?_, named, rfl⟩
      rw [compile, compiled]
      rfl
    · obtain ⟨condition, consequent, alternative, rfl⟩ := List.length_eq_three.mp filled
      obtain ⟨first, conditionCompiled, conditionNamed, rfl⟩ := ih condition (by simp)
      obtain ⟨second, consequentCompiled, consequentNamed, rfl⟩ := ih consequent (by simp)
      obtain ⟨third, alternativeCompiled, alternativeNamed, rfl⟩ := ih alternative (by simp)
      refine ⟨.ite first second third, ?_,
        ⟨conditionNamed, consequentNamed, alternativeNamed⟩, rfl⟩
      rw [compile, conditionCompiled, consequentCompiled, alternativeCompiled]
      rfl

/-- Rendered programs are unambiguous. Candidates whose operators have all their operands, and
whose variables are identifiers other than the constant, compile to programs; and two of them
whose programs are written alike are the same candidate. -/
theorem render_determines_candidate {first second : Candidate} (readable : first.Readable)
    (readableSecond : second.Readable) :
    ∃ program other, first.compile = .ok program ∧ second.compile = .ok other ∧
      (program.render = other.render ↔ first = second) := by
  obtain ⟨program, compiled, named, restored⟩ := readable.exists_compile
  obtain ⟨other, compiledOther, namedOther, restoredOther⟩ := readableSecond.exists_compile
  refine ⟨program, other, compiled, compiledOther, fun same => ?_, fun same => ?_⟩
  · have programs : program = other := Expr.eq_of_render_eq named namedOther same
    rw [← restored, programs, restoredOther]
  · subst same
    rw [Except.ok.inj (compiled.symm.trans compiledOther)]

/-- A conditional whose names are the words of a conditional. -/
def keywordConditional : Candidate :=
  node .ite [node .lt [leaf (.var "if"), leaf (.number (-1))], leaf (.var "then"),
    leaf (.var "else")]

/-- A sum that begins with the name `if` and has a negative literal after its sign. -/
def keywordSum : Candidate := node .plus [leaf (.var "if"), leaf (.number (-1))]

/-- A conditional and a sum that both begin with the word `if` are told apart. -/
theorem render_determines_keywords :
    keywordConditional.Readable ∧ keywordSum.Readable ∧
    ∃ program other, keywordConditional.compile = .ok program ∧ keywordSum.compile = .ok other ∧
      (program.render = other.render ↔ keywordConditional = keywordSum) := by
  have word : ∀ name, isIdentifier name = true → name ≠ "false" → (leaf (.var name)).Readable :=
    fun _ identifier other => .var identifier other
  have opening : (leaf (.var "if")).Readable := word "if" (by decide) (by decide)
  have first : keywordConditional.Readable := by
    refine .node rfl ?_
    simp only [List.forall_mem_cons]
    refine ⟨.node rfl ?_, word "then" (by decide) (by decide), word "else" (by decide) (by decide),
      List.forall_mem_nil _⟩
    simp only [List.forall_mem_cons]
    exact ⟨opening, .number (-1), List.forall_mem_nil _⟩
  have second : keywordSum.Readable := by
    refine .node rfl ?_
    simp only [List.forall_mem_cons]
    exact ⟨opening, .number (-1), List.forall_mem_nil _⟩
  exact ⟨first, second, render_determines_candidate first second⟩

end Candidate

end ProgramSynthesis
