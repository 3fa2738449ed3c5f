/-
  CallForm.Proofs.Target.Shape — the shape of target trees: induction over them, all their nodes,
  the arguments of their calls, and the programs that are in normal form.

  A statement counts as a node with its call under it, and a call as one with its callee, an
  identifier, in front of its arguments (`parts`).
-/

import CallForm.Target.Node

namespace CallForm.Target

namespace Node

/-- Induction over a tree: each node after its children. -/
@[elab_as_elim]
theorem tree_induction {P : Node → Prop}
    (program : ∀ body, (∀ m ∈ body, P m) → P (.program body))
    (statement : ∀ callee arguments, (∀ m ∈ arguments, P m) → P (.statement callee arguments))
    (call : ∀ callee arguments, (∀ m ∈ arguments, P m) → P (.call callee arguments))
    (identifier : ∀ name, P (.identifier name)) (number : ∀ digits, P (.number digits))
    (string : ∀ value, P (.string value)) : ∀ m, P m
  | .program body =>
    program body fun m _ => tree_induction program statement call identifier number string m
  | .statement callee arguments =>
    statement callee arguments
      fun m _ => tree_induction program statement call identifier number string m
  | .call callee arguments =>
    call callee arguments
      fun m _ => tree_induction program statement call identifier number string m
  | .identifier name => identifier name
  | .number digits => number digits
  | .string value => string value

/-- The nodes directly under a node. -/
def parts : Node → List Node
  | .program body => body
  | .statement callee arguments => [.call callee arguments]
  | .call callee arguments => .identifier callee :: arguments
  | .identifier _ => []
  | .number _ => []
  | .string _ => []

mutual

/-- A node and all nodes under it, each before its parts. -/
def nodes : Node → List Node
  | .program body => .program body :: nodesAll body
  | .statement callee arguments =>
    .statement callee arguments :: .call callee arguments :: .identifier callee ::
      nodesAll arguments
  | .call callee arguments =>
    .call callee arguments :: .identifier callee :: nodesAll arguments
  | .identifier name => [.identifier name]
  | .number digits => [.number digits]
  | .string value => [.string value]

def nodesAll : List Node → List Node
  | [] => []
  | node :: others => nodes node ++ nodesAll others

end

theorem mem_nodes_self (m : Node) : m ∈ m.nodes := by
  cases m <;> simp [nodes]

@[simp] theorem mem_nodesAll {n : Node} {ms : List Node} :
    n ∈ nodesAll ms ↔ ∃ m ∈ ms, n ∈ m.nodes := by
  induction ms with
  | nil => simp [nodesAll]
  | cons m ms ih => simp [nodesAll, ih]

theorem nodes_eq (m : Node) : m.nodes = m :: nodesAll m.parts := by
  cases m <;> simp [nodes, nodesAll, parts]

mutual

/-- The arguments of all calls in a tree, also of those that are arguments themselves. -/
def passed : Node → List Node
  | .program body => passedAll body
  | .statement _ arguments => arguments ++ passedAll arguments
  | .call _ arguments => arguments ++ passedAll arguments
  | .identifier _ => []
  | .number _ => []
  | .string _ => []

def passedAll : List Node → List Node
  | [] => []
  | node :: others => passed node ++ passedAll others

end

theorem forall_mem_passedAll {P : Node → Prop} {ms : List Node} :
    (∀ x ∈ passedAll ms, P x) ↔ ∀ m ∈ ms, ∀ x ∈ m.passed, P x := by
  induction ms with
  | nil => simp [passedAll]
  | cons m ms ih => simp only [passedAll, List.forall_mem_append, List.forall_mem_cons, ih]

/-- A call or a literal, as an argument has to be. -/
def Passable (m : Node) : Prop := m.kind = .call ∨ m.kind = .number ∨ m.kind = .string

end Node

/-- The nodes below the root of a program. -/
def Program.below (t : Program) : List Node := Node.nodesAll t.body

/-- Only statements and literals stand under the root, and only calls and literals are passed
    to calls. -/
structure Program.Normal (t : Program) : Prop where
  body : ∀ m ∈ t.body, m.kind = .statement ∨ m.kind = .number ∨ m.kind = .string
  passed : ∀ m ∈ Node.passedAll t.body, m.Passable

end CallForm.Target
