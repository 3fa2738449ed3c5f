/-
  CallForm.Proofs.Source.Shape — the shape of source trees: their nodes, how deep their calls
  nest, and which trees are expressions.

  `Expression d q` is the grammar of the language: a number, or a call of expressions, with at
  most `d` calls around any place. It is the same as a condition on the nodes and the depth of
  `q` (`expression_iff`), and for whole programs (`expressions_iff`).
-/

import CallForm.Source.Node

namespace CallForm.Source

namespace Node

mutual

/-- A node and all nodes under it, each before its children. -/
def nodes : Node → List Node
  | .program body => .program body :: nodesAll body
  | .call name params => .call name params :: nodesAll params
  | .number digits => [.number digits]
  | .string value => [.string value]

def nodesAll : List Node → List Node
  | [] => []
  | node :: others => nodes node ++ nodesAll others

end

mutual

/-- How deep calls nest: 1 for a call without calls in it. Literals add nothing. -/
def callDepth : Node → Nat
  | .program body => callDepths body
  | .call _ params => callDepths params + 1
  | .number _ => 0
  | .string _ => 0

def callDepths : List Node → Nat
  | [] => 0
  | node :: others => max (callDepth node) (callDepths others)

end

end Node

/-- The nodes below the root of a program. -/
def Program.below (p : Program) : List Node := Node.nodesAll p.body

def Program.callDepth (p : Program) : Nat := Node.callDepths p.body

namespace Node

/-- Induction over a tree: each node after its children. -/
@[elab_as_elim]
theorem tree_induction {P : Node → Prop}
    (program : ∀ body, (∀ q ∈ body, P q) → P (.program body))
    (call : ∀ name params, (∀ q ∈ params, P q) → P (.call name params))
    (number : ∀ digits, P (.number digits)) (string : ∀ value, P (.string value)) : ∀ q, P q
  | .program body => program body fun q _ => tree_induction program call number string q
  | .call name params => call name params fun q _ => tree_induction program call number string q
  | .number digits => number digits
  | .string value => string value

/-- Induction over a list of trees: a call after its parameters and what stands behind it. -/
@[elab_as_elim]
theorem forest_induction {P : List Node → Prop} (nil : P [])
    (program : ∀ body qs, P qs → P (.program body :: qs))
    (call : ∀ name params qs, P params → P qs → P (.call name params :: qs))
    (number : ∀ digits qs, P qs → P (.number digits :: qs))
    (string : ∀ value qs, P qs → P (.string value :: qs)) : ∀ qs, P qs := by
  have cons : ∀ q : Node, ∀ qs, P qs → P (q :: qs) := by
    intro q
    induction q using tree_induction with
    | program body _ => exact program body
    | number digits => exact number digits
    | string value => exact string value
    | call name params ih =>
      have hparams : P params := by
        clear call
        induction params with
        | nil => exact nil
        | cons q params ihs =>
          obtain ⟨hq, hothers⟩ := List.forall_mem_cons.mp ih
          exact hq params (ihs hothers)
      exact fun qs => call name params qs hparams
  intro qs
  induction qs with
  | nil => exact nil
  | cons q qs ih => exact cons q qs ih

theorem mem_nodes_self (q : Node) : q ∈ q.nodes := by
  cases q <;> simp [nodes]

@[simp] theorem mem_nodesAll {m : Node} {qs : List Node} :
    m ∈ nodesAll qs ↔ ∃ q ∈ qs, m ∈ q.nodes := by
  induction qs with
  | nil => simp [nodesAll]
  | cons q qs ih => simp [nodesAll, ih]

theorem nodes_eq (q : Node) : q.nodes = q :: nodesAll q.children := by
  cases q <;> simp [nodes, nodesAll, children]

theorem forall_mem_nodesAll {P : Node → Prop} {qs : List Node} :
    (∀ m ∈ nodesAll qs, P m) ↔ ∀ q ∈ qs, ∀ m ∈ q.nodes, P m := by
  simp only [mem_nodesAll]
  exact ⟨fun h q hq m hm => h m ⟨q, hq, hm⟩, fun h m ⟨q, hq, hm⟩ => h q hq m hm⟩

theorem exists_mem_nodes {P : Node → Prop} {q : Node} :
    (∃ m ∈ q.nodes, P m) ↔ P q ∨ ∃ r ∈ q.children, ∃ m ∈ r.nodes, P m := by
  rw [nodes_eq]
  simp only [List.mem_cons, mem_nodesAll, or_and_right, exists_or, exists_eq_left]
  refine or_congr_right ⟨?_, ?_⟩
  · rintro ⟨m, ⟨r, hr, hm⟩, h⟩
    exact ⟨r, hr, m, hm, h⟩
  · rintro ⟨r, hr, m, hm, h⟩
    exact ⟨m, ⟨r, hr, hm⟩, h⟩

theorem forall_mem_nodes_call {P : Node → Prop} {name : String} {params : List Node} :
    (∀ m ∈ (call name params).nodes, P m) ↔
      P (.call name params) ∧ ∀ q ∈ params, ∀ m ∈ q.nodes, P m := by
  rw [nodes, List.forall_mem_cons, forall_mem_nodesAll]

theorem callDepths_le {d : Nat} {qs : List Node} :
    callDepths qs ≤ d ↔ ∀ q ∈ qs, q.callDepth ≤ d := by
  induction qs with
  | nil => simp [callDepths]
  | cons q qs ih => rw [callDepths, Nat.max_le, ih, List.forall_mem_cons]

@[simp] theorem flats_nil : flats [] = [] := rfl

@[simp] theorem flats_cons (q : Node) (qs : List Node) : flats (q :: qs) = q.flat ++ flats qs := rfl

@[simp] theorem flats_append (ps qs : List Node) : flats (ps ++ qs) = flats ps ++ flats qs := by
  induction ps with
  | nil => rfl
  | cons p ps ih => simp [ih]

/-- The tokens of a call, taken apart at the front of a text. -/
theorem flat_call_append (name : String) (params : List Node) (ts : List Token) :
    (call name params).flat ++ ts =
      .paren '(' :: .name name :: (flats params ++ .paren ')' :: ts) := by
  simp [flat]

theorem mem_flats {t : Token} {qs : List Node} : t ∈ flats qs ↔ ∃ q ∈ qs, t ∈ q.flat := by
  induction qs with
  | nil => simp
  | cons q qs ih => simp [ih]

end Node

/-! ## Expressions -/

/-- A number, or a call of expressions; at most `d` calls are open at any place in it. -/
inductive Expression : Nat → Node → Prop
  | number {d : Nat} (digits : String) : Expression d (.number digits)
  | call {d : Nat} {name : String} {params : List Node} :
      (∀ q ∈ params, Expression d q) → Expression (d + 1) (.call name params)

namespace Expression

theorem flat_ne_nil {d : Nat} {q : Node} (h : Expression d q) : q.flat ≠ [] := by
  cases h <;> simp [Node.flat]

end Expression

theorem expression_iff {d : Nat} {q : Node} :
    Expression d q ↔ (∀ m ∈ q.nodes, m.kind = .call ∨ m.kind = .number) ∧ q.callDepth ≤ d := by
  constructor
  · intro h
    induction h with
    | number digits => simp [Node.nodes, Node.kind, Node.callDepth]
    | call _ ih =>
      rw [Node.forall_mem_nodes_call, Node.callDepth, Nat.add_le_add_iff_right, Node.callDepths_le]
      exact ⟨⟨.inl rfl, fun q hq => (ih q hq).1⟩, fun q hq => (ih q hq).2⟩
  · induction q using Node.tree_induction generalizing d with
    | program body _ => intro h; simpa [Node.kind] using h.1 _ (Node.mem_nodes_self _)
    | string value => intro h; simpa [Node.kind] using h.1 _ (Node.mem_nodes_self _)
    | number digits => intro _; exact .number digits
    | call name params ih =>
      rw [Node.forall_mem_nodes_call, Node.callDepth]
      rintro ⟨⟨-, hkinds⟩, hdepth⟩
      obtain ⟨d, rfl⟩ : ∃ k, d = k + 1 := ⟨d - 1, by omega⟩
      have hdepths := Node.callDepths_le.mp (Nat.le_of_succ_le_succ hdepth)
      exact .call fun q hq => ih q hq ⟨hkinds q hq, hdepths q hq⟩

instance (d : Nat) (q : Node) : Decidable (Expression d q) := decidable_of_iff _ expression_iff.symm

theorem expressions_iff {d : Nat} {p : Program} :
    (∀ q ∈ p.body, Expression d q) ↔
      (∀ m ∈ p.below, m.kind = .call ∨ m.kind = .number) ∧ p.callDepth ≤ d := by
  rw [Program.below, Program.callDepth, Node.forall_mem_nodesAll, Node.callDepths_le]
  simp only [expression_iff]
  exact ⟨fun h => ⟨fun q hq => (h q hq).1, fun q hq => (h q hq).2⟩,
    fun h q hq => ⟨h.1 q hq, h.2 q hq⟩⟩

end CallForm.Source
