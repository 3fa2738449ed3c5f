/-
  CallForm.Proofs.Target.Check — what a chain of checks asks, and in which order.

  A chain is a list of steps, each a single question about the node at one place
  (`Step.Holds`). Checks nest, and a check of an argument is run on a node and not on a place;
  still, whatever the chain and the program, the steps are asked in the order in which they
  stand in it, and the outcome is that of the first one that is false, reported for the node
  that stands at its place (`asked_check`).
-/

import CallForm.Proofs.InTurn
import CallForm.Target.Check

namespace CallForm.Target

/-! ## Places -/

namespace Node

/-- The callee and the arguments of a call, also of one that is a statement. -/
def call? : Node → Option (String × List Node)
  | .statement callee arguments | .call callee arguments => some (callee, arguments)
  | .program _ | .identifier _ | .number _ | .string _ => none

def argument? (m : Node) (i : Nat) : Option Node := m.call?.bind fun c => c.2[i]?

/-- The node that is reached from this one by the arguments with these indices. -/
def under? : Node → List Nat → Option Node
  | m, [] => some m
  | m, i :: path => (m.argument? i).bind fun n => n.under? path

theorem under?_append (m : Node) (path : List Nat) (i : Nat) :
    m.under? (path ++ [i]) = (m.under? path).bind fun n => n.argument? i := by
  induction path generalizing m with
  | nil => cases h : m.argument? i <;> simp [under?, h]
  | cons j path ih =>
    rw [List.cons_append, under?, under?, Option.bind_assoc]
    exact congrArg _ (funext fun n => ih n)

end Node

variable {q : Program} {place : Place}

/-- The node at a place. -/
def Program.node? (q : Program) (place : Place) : Option Node :=
  q.body[place.statement]?.bind fun m => m.under? place.arguments

/-- The callee and the arguments of the call at a place. -/
def Program.call? (q : Program) (place : Place) : Option (String × List Node) :=
  (q.node? place).bind Node.call?

@[simp] theorem Program.node?_statement (q : Program) (i : Nat) :
    q.node? ⟨i, []⟩ = q.body[i]? := by
  cases h : q.body[i]? <;> simp [node?, h, Node.under?]

theorem Program.node?_argument (q : Program) (place : Place) (i : Nat) :
    q.node? (place.argument i) = (q.call? place).bind fun c => c.2[i]? := by
  simp only [node?, call?, Place.argument, Node.under?_append, Option.bind_assoc]
  rfl

/-! ## Reports -/

/-- The place of the node that is reported; none if the program is. -/
def Failure.place? : Failure → Option Place
  | .statementCount _ _ | .statementIndex _ _ => none
  | .wrongKind place _ _ | .callee place _ _ | .argumentCount place _ _ | .argumentIndex place _ _ _
  | .number place _ _ | .string place _ _ => some place

/-- The message names the place: it begins with it, or has it right behind the words that stand
    in front when two values are unequal. -/
def Names (place : Place) (message : String) : Prop :=
  ∃ opening ∈ ["", "assertion `left == right` failed: "], ∃ details,
    message = opening ++ place.text ++ ": " ++ details

theorem names_append {lead : String} (word : String) (h : lead = ": " ++ word)
    (place : Place) (more : String) : Names place (place.text ++ (lead ++ more)) := by
  refine ⟨"", List.mem_cons_self, word ++ more, ?_⟩
  rw [h, String.empty_append]
  simp only [String.append_assoc]

theorem names_unequal {lead : String} (word : String) (h : lead = ": " ++ word)
    (place : Place) (more found expected : String) :
    Names place (unequal (place.text ++ (lead ++ more)) found expected) := by
  refine ⟨"assertion `left == right` failed: ", List.mem_cons_of_mem _ List.mem_cons_self,
    word ++ more ++ "\n  left: " ++ found ++ "\n right: " ++ expected, ?_⟩
  rw [h]
  unfold unequal
  simp only [String.append_assoc]

/-- Every report about a node names its place. -/
theorem Failure.names_place {f : Failure} (h : f.place? = some place) : Names place f.message := by
  cases f with
  | statementCount expected body => cases h
  | statementIndex i count => cases h
  | wrongKind there expected m =>
    obtain rfl := Option.some.inj h
    unfold Failure.message
    simp only [String.append_assoc]
    exact names_append "Expected " rfl _ _
  | argumentIndex there i callee count =>
    obtain rfl := Option.some.inj h
    unfold Failure.message
    simp only [String.append_assoc]
    exact names_append "Argument index " rfl _ _
  | callee there expected found =>
    obtain rfl := Option.some.inj h
    unfold Failure.message
    simp only [String.append_assoc]
    exact names_unequal "Expected callee '" rfl _ _ _ _
  | argumentCount there expected arguments =>
    obtain rfl := Option.some.inj h
    unfold Failure.message
    simp only [String.append_assoc]
    exact names_unequal "Expected " rfl _ _ _ _
  | number there expected found =>
    obtain rfl := Option.some.inj h
    unfold Failure.message
    simp only [String.append_assoc]
    exact names_unequal "Expected number '" rfl _ _ _ _
  | string there expected found =>
    obtain rfl := Option.some.inj h
    unfold Failure.message
    simp only [String.append_assoc]
    exact names_unequal "Expected string " rfl _ _ _ _

/-! ## Steps -/

/-- A single question about a program. -/
inductive Step where
  | statementCount (n : Nat)
  /-- The body element is there, and it is a statement. -/
  | statement (i : Nat)
  | callee (place : Place) (name : String)
  | argumentCount (place : Place) (n : Nat)
  /-- The call at the place has this argument. -/
  | argument (place : Place) (i : Nat)
  | number (place : Place) (digits : String)
  | string (place : Place) (value : String)
  | call (place : Place)
  deriving DecidableEq, Repr

namespace Step

def Holds (q : Program) : Step → Prop
  | .statementCount n => q.body.length = n
  | .statement i => ∃ m, q.node? ⟨i, []⟩ = some m ∧ m.kind = .statement
  | .callee place name => ∃ c, q.call? place = some c ∧ c.1 = name
  | .argumentCount place n => ∃ c, q.call? place = some c ∧ c.2.length = n
  | .argument place i => ∃ m, q.node? (place.argument i) = some m
  | .number place digits => q.node? place = some (.number digits)
  | .string place value => q.node? place = some (.string value)
  | .call place => ∃ m, q.node? place = some m ∧ m.kind = .call

/-- The place of the node that the step is about; none for the one about the whole program. -/
def place? : Step → Option Place
  | .statementCount _ => none
  | .statement i => some ⟨i, []⟩
  | .argument place i => some (place.argument i)
  | .callee place _ | .argumentCount place _ | .number place _ | .string place _
  | .call place => some place

/-- What is reported if the step is false: what was asked for and what stands there. -/
def failure (q : Program) : Step → Option Failure
  | .statementCount n => some (.statementCount n q.body)
  | .statement i =>
    match q.node? ⟨i, []⟩ with
    | none => some (.statementIndex i q.body.length)
    | some m => some (.wrongKind ⟨i, []⟩ .statement m)
  | .callee place name => (q.call? place).map fun c => .callee place name c.1
  | .argumentCount place n => (q.call? place).map fun c => .argumentCount place n c.2
  | .argument place i => (q.call? place).map fun c => .argumentIndex place i c.1 c.2.length
  | .number place digits =>
    (q.node? place).map fun
      | .number found => .number place digits found
      | m => .wrongKind place .number m
  | .string place value =>
    (q.node? place).map fun
      | .string found => .string place value found
      | m => .wrongKind place .string m
  | .call place => (q.node? place).map (.wrongKind place .call)

/-- What is false of a node that is there is reported with its place. -/
theorem place_of_failure {step : Step} {f : Failure} (hplace : step.place? = some place)
    (hnode : ∃ m, q.node? place = some m) (hfalse : ¬ step.Holds q)
    (hf : step.failure q = some f) : f.place? = some place := by
  obtain ⟨m, hm⟩ := hnode
  cases step with
  | statementCount n => cases hplace
  | statement i =>
    obtain rfl := Option.some.inj hplace
    rw [failure, hm] at hf
    obtain rfl := Option.some.inj hf
    rfl
  | argument there i =>
    obtain rfl := Option.some.inj hplace
    exact absurd ⟨m, hm⟩ hfalse
  | callee there name | argumentCount there n =>
    obtain rfl := Option.some.inj hplace
    obtain ⟨c, -, rfl⟩ := Option.map_eq_some_iff.mp hf
    rfl
  | number there text | string there text =>
    obtain rfl := Option.some.inj hplace
    obtain ⟨n, -, rfl⟩ := Option.map_eq_some_iff.mp hf
    cases n <;> rfl
  | call there =>
    obtain rfl := Option.some.inj hplace
    obtain ⟨n, -, rfl⟩ := Option.map_eq_some_iff.mp hf
    rfl

end Step

mutual

def CallCheck.steps (place : Place) : CallCheck → List Step
  | .callee name => [.callee place name]
  | .argumentCount n => [.argumentCount place n]
  | .argument i check => .argument place i :: NodeCheck.steps (place.argument i) check

def CallCheck.stepsAll (place : Place) : List CallCheck → List Step
  | [] => []
  | check :: checks => CallCheck.steps place check ++ CallCheck.stepsAll place checks

def NodeCheck.steps (place : Place) : NodeCheck → List Step
  | .number digits => [.number place digits]
  | .string value => [.string place value]
  | .call checks => .call place :: CallCheck.stepsAll place checks

end

def ProgramCheck.steps : ProgramCheck → List Step
  | .statementCount n => [.statementCount n]
  | .statement i checks => .statement i :: CallCheck.stepsAll ⟨i, []⟩ checks

/-! ## The order of the steps -/

/-- The outcome of steps that are asked one after another, up to the first that is false. -/
abbrev Asked (q : Program) : List Step → Except Failure Unit → Prop :=
  InTurn (fun step => step.Holds q) (fun step f => ¬ step.Holds q ∧ step.failure q = some f)
    fun _ => True

/-- A step that is decided by a comparison. -/
theorem asked_one {step : Step} {f : Failure} {p : Prop} [Decidable p] (h : step.Holds q ↔ p)
    (hf : step.failure q = some f) : Asked q [step] (if p then .ok () else .error f) := by
  split
  · rename_i hp
    exact .next (h.mpr hp) (.done trivial)
  · rename_i hp
    exact .stop ⟨fun hholds => hp (h.mp hholds), hf⟩

mutual

theorem asked_callCheck (place : Place) {callee : String} {arguments : List Node}
    (h : q.call? place = some (callee, arguments)) :
    (check : CallCheck) → Asked q (check.steps place) (check.run place callee arguments)
  | .callee name => by
    rw [CallCheck.steps, CallCheck.run]
    exact asked_one (by simp [Step.Holds, h]) (by rw [Step.failure, h]; rfl)
  | .argumentCount n => by
    rw [CallCheck.steps, CallCheck.run]
    exact asked_one (by simp [Step.Holds, h]) (by rw [Step.failure, h]; rfl)
  | .argument i check => by
    have hnode : q.node? (place.argument i) = arguments[i]? := by
      rw [Program.node?_argument, h]
      rfl
    rw [CallCheck.steps, CallCheck.run]
    cases hi : arguments[i]? with
    | none => exact .stop ⟨by simp [Step.Holds, hnode, hi], by rw [Step.failure, h]; rfl⟩
    | some m =>
      have hm := hnode.trans hi
      exact .next ⟨m, hm⟩ (asked_nodeCheck (place.argument i) hm check)

theorem asked_callChecks (place : Place) {callee : String} {arguments : List Node}
    (h : q.call? place = some (callee, arguments)) :
    (checks : List CallCheck) →
      Asked q (CallCheck.stepsAll place checks) (CallCheck.runAll place callee arguments checks)
  | [] => .done trivial
  | check :: checks => by
    have hcheck := asked_callCheck place h check
    rw [CallCheck.stepsAll, CallCheck.runAll]
    cases hr : check.run place callee arguments with
    | ok =>
      rw [hr] at hcheck
      exact hcheck.append_of_ok (asked_callChecks place h checks)
    | error f =>
      rw [hr] at hcheck
      exact hcheck.append_of_error _

theorem asked_nodeCheck (place : Place) {m : Node} (h : q.node? place = some m) :
    (check : NodeCheck) → Asked q (check.steps place) (check.run place m)
  | .number digits => by
    rw [NodeCheck.steps]
    cases m with
    | number found =>
      rw [NodeCheck.run]
      exact asked_one (by simp [Step.Holds, h]) (by rw [Step.failure, h]; rfl)
    | program | statement | call | identifier | string =>
      exact .stop ⟨by simp [Step.Holds, h], by rw [Step.failure, h]; rfl⟩
  | .string value => by
    rw [NodeCheck.steps]
    cases m with
    | string found =>
      rw [NodeCheck.run]
      exact asked_one (by simp [Step.Holds, h]) (by rw [Step.failure, h]; rfl)
    | program | statement | call | identifier | number =>
      exact .stop ⟨by simp [Step.Holds, h], by rw [Step.failure, h]; rfl⟩
  | .call checks => by
    rw [NodeCheck.steps]
    cases m with
    | call callee arguments =>
      have hcall : q.call? place = some (callee, arguments) := by rw [Program.call?, h]; rfl
      exact .next ⟨_, h, rfl⟩ (asked_callChecks place hcall checks)
    | program | statement | identifier | number | string =>
      exact .stop ⟨by simp [Step.Holds, h, Node.kind], by rw [Step.failure, h]; rfl⟩

end

theorem asked_programCheck (q : Program) (check : ProgramCheck) :
    Asked q check.steps (check.run q) := by
  cases check with
  | statementCount n => exact asked_one Iff.rfl rfl
  | statement i checks =>
    have hnode := q.node?_statement i
    rw [ProgramCheck.steps]
    cases hi : q.body[i]? with
    | none =>
      rw [hi] at hnode
      simp only [ProgramCheck.run, hi]
      exact .stop ⟨by simp [Step.Holds, hi], by rw [Step.failure, hnode]⟩
    | some m =>
      rw [hi] at hnode
      cases m with
      | statement callee arguments =>
        have hcall : q.call? ⟨i, []⟩ = some (callee, arguments) := by
          rw [Program.call?, hnode]
          rfl
        simp only [ProgramCheck.run, hi]
        exact .next ⟨_, hnode, rfl⟩ (asked_callChecks ⟨i, []⟩ hcall checks)
      | program | call | identifier | number | string =>
        simp only [ProgramCheck.run, hi]
        exact .stop ⟨by simp [Step.Holds, hi, Node.kind], by rw [Step.failure, hnode]⟩

/-- Whatever the chain and the program, the steps of the chain are asked in order. -/
theorem asked_check (q : Program) (chain : List ProgramCheck) :
    Asked q (chain.flatMap ProgramCheck.steps) (q.check chain) := by
  induction chain with
  | nil => exact .done trivial
  | cons check chain ih =>
    have hcheck := asked_programCheck q check
    rw [List.flatMap_cons, Program.check]
    cases hr : check.run q with
    | ok =>
      rw [hr] at hcheck
      exact hcheck.append_of_ok ih
    | error f =>
      rw [hr] at hcheck
      exact hcheck.append_of_error _

end CallForm.Target
