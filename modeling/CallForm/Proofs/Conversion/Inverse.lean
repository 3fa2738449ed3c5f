/-
  CallForm.Proofs.Conversion.Inverse — conversion can be undone.

  `erased` makes a statement a call again and leaves all else in its place; it undoes what
  becomes of any tree (`erased_argument`, `erased_statement`). The other way round, a target
  program in normal form is what its erased program becomes (`map_statement_erased`). As
  conversion fails only for a program below the root (`result_convert`), it is a bijection
  between the source programs without one and the target programs in normal form
  (`convert_bijective`).
-/

import CallForm.Proofs.Conversion.Logs
import CallForm.Proofs.Target.Shape

namespace CallForm

namespace Target

mutual

/-- The source tree with the same names, literals and places. An identifier, which stands for
    nothing in the source, counts as a call of its name. -/
def Node.erased : Node → Source.Node
  | .program body => .program (Node.erasedAll body)
  | .statement callee arguments => .call callee (Node.erasedAll arguments)
  | .call callee arguments => .call callee (Node.erasedAll arguments)
  | .identifier name => .call name []
  | .number digits => .number digits
  | .string value => .string value

def Node.erasedAll : List Node → List Source.Node
  | [] => []
  | node :: others => node.erased :: Node.erasedAll others

end

theorem Node.erasedAll_eq_map (ms : List Node) : Node.erasedAll ms = ms.map Node.erased := by
  induction ms with
  | nil => rfl
  | cons m ms ih => rw [Node.erasedAll, ih, List.map_cons]

def Program.erased (t : Program) : Source.Program := ⟨t.body.map Node.erased⟩

end Target

namespace Conversion

open Source (Node)

/-! ## From source to target and back -/

theorem map_erased_argument {qs : List Node} (h : ∀ q ∈ qs, q.argument.erased = q) :
    (Node.arguments qs).map Target.Node.erased = qs := by
  rw [Node.arguments_eq_map, List.map_map]
  exact (List.map_congr_left h).trans (List.map_id qs)

theorem erased_argument (q : Node) : q.argument.erased = q := by
  induction q using Node.tree_induction with
  | program body ih =>
    rw [Node.argument, Target.Node.erased, Target.Node.erasedAll_eq_map, map_erased_argument ih]
  | call name params ih =>
    rw [Node.argument, Target.Node.erased, Target.Node.erasedAll_eq_map, map_erased_argument ih]
  | number digits => rfl
  | string value => rfl

theorem erased_statement (q : Node) : q.statement.erased = q := by
  cases q with
  | call name params =>
    have h := erased_argument (.call name params)
    simpa [Node.statement, Node.argument, Target.Node.erased] using h
  | program body | number digits | string value => exact erased_argument _

theorem erased_map_statement (p : Source.Program) :
    (⟨p.body.map Node.statement⟩ : Target.Program).erased = p := by
  obtain ⟨body⟩ := p
  rw [Target.Program.erased, List.map_map]
  exact congrArg Source.Program.mk
    ((List.map_congr_left fun q _ => erased_statement q).trans (List.map_id body))

/-! ## Normal forms -/

theorem passable_argument {q : Node} (h : ∀ m ∈ q.nodes, m.kind ≠ .program) :
    q.argument.Passable ∧ ∀ x ∈ q.argument.passed, x.Passable := by
  induction q using Node.tree_induction with
  | program body _ => exact absurd rfl (h _ (Node.mem_nodes_self _))
  | number digits => exact ⟨.inr (.inl rfl), nofun⟩
  | string value => exact ⟨.inr (.inr rfl), nofun⟩
  | call name params ih =>
    have hparams := (Node.forall_mem_nodes_call.mp h).2
    refine ⟨.inl rfl, ?_⟩
    rw [Node.argument, Node.arguments_eq_map, Target.Node.passed, List.forall_mem_append,
      Target.Node.forall_mem_passedAll, List.forall_mem_map, List.forall_mem_map]
    exact ⟨fun q hq => (ih q hq (hparams q hq)).1, fun q hq => (ih q hq (hparams q hq)).2⟩

theorem passed_statement (q : Node) : q.statement.passed = q.argument.passed := by
  cases q <;> rfl

theorem normal_map_statement {p : Source.Program} (h : ∀ m ∈ p.below, m.kind ≠ .program) :
    (⟨p.body.map Node.statement⟩ : Target.Program).Normal := by
  have hbody := Node.forall_mem_nodesAll.mp h
  refine ⟨List.forall_mem_map.mpr fun q hq => ?_, ?_⟩
  · have hkind := hbody q hq q (Node.mem_nodes_self q)
    cases q with
    | program body => exact absurd rfl hkind
    | call name params => exact .inl rfl
    | number digits => exact .inr (.inl rfl)
    | string value => exact .inr (.inr rfl)
  · rw [Target.Node.forall_mem_passedAll, List.forall_mem_map]
    intro q hq
    rw [passed_statement]
    exact (passable_argument (hbody q hq)).2

theorem restores_all {f : Node → Target.Node} {ms : List Target.Node}
    (h : ∀ m ∈ ms, f m.erased = m ∧ ∀ n ∈ m.erased.nodes, n.kind ≠ .program) :
    (ms.map Target.Node.erased).map f = ms ∧
      ∀ n ∈ Node.nodesAll (ms.map Target.Node.erased), n.kind ≠ .program := by
  rw [Node.forall_mem_nodesAll, List.forall_mem_map, List.map_map]
  refine ⟨?_, fun m hm => (h m hm).2⟩
  exact (List.map_congr_left fun m hm => (h m hm).1).trans (List.map_id ms)

/-- Passable trees come back from their erased form. -/
theorem argument_erased {m : Target.Node} (hm : m.Passable) (h : ∀ x ∈ m.passed, x.Passable) :
    m.erased.argument = m ∧ ∀ n ∈ m.erased.nodes, n.kind ≠ .program := by
  induction m using Target.Node.tree_induction with
  | program body _ => simp [Target.Node.Passable, Target.Node.kind] at hm
  | statement callee arguments _ => simp [Target.Node.Passable, Target.Node.kind] at hm
  | identifier name => simp [Target.Node.Passable, Target.Node.kind] at hm
  | number digits => exact ⟨rfl, by simp [Target.Node.erased, Node.nodes, Node.kind]⟩
  | string value => exact ⟨rfl, by simp [Target.Node.erased, Node.nodes, Node.kind]⟩
  | call callee arguments ih =>
    rw [Target.Node.passed, List.forall_mem_append, Target.Node.forall_mem_passedAll] at h
    obtain ⟨hmap, hnodes⟩ :=
      restores_all (f := Node.argument) fun x hx => ih x hx (h.1 x hx) (h.2 x hx)
    rw [Target.Node.erased, Target.Node.erasedAll_eq_map, Node.argument, Node.arguments_eq_map,
      hmap]
    exact ⟨rfl, List.forall_mem_cons.mpr ⟨by simp [Node.kind], hnodes⟩⟩

theorem statement_erased {m : Target.Node}
    (hm : m.kind = .statement ∨ m.kind = .number ∨ m.kind = .string)
    (h : ∀ x ∈ m.passed, x.Passable) :
    m.erased.statement = m ∧ ∀ n ∈ m.erased.nodes, n.kind ≠ .program := by
  cases m with
  | program body | call callee arguments | identifier name => simp [Target.Node.kind] at hm
  | number digits => exact argument_erased (.inr (.inl rfl)) h
  | string value => exact argument_erased (.inr (.inr rfl)) h
  | statement callee arguments =>
    -- a statement holds what a call with these arguments would
    obtain ⟨hcall, hnodes⟩ := argument_erased (m := .call callee arguments) (.inl rfl) h
    simp only [Target.Node.erased, Node.argument, Target.Node.call.injEq, true_and] at hcall
    exact ⟨by rw [Target.Node.erased, Node.statement, hcall], hnodes⟩

/-- A program in normal form is what its erased form becomes. -/
theorem map_statement_erased {t : Target.Program} (h : t.Normal) :
    t.erased.body.map Node.statement = t.body ∧ ∀ m ∈ t.erased.below, m.kind ≠ .program :=
  restores_all fun m hm => statement_erased (h.body m hm)
    (Target.Node.forall_mem_passedAll.mp h.passed m hm)

/-! ## Conversion -/

/-- Conversion fails only for a program below the root. -/
theorem result_convert (p : Source.Program) :
    (convert p).result = if ∀ m ∈ p.below, m.kind ≠ .program then .ok ⟨p.body.map Node.statement⟩
      else .error .nestedProgram := by
  split
  · rename_i h
    rw [convert_eq h]
  · rename_i h
    have hcourse := (Visitor.logged_walk calls p ()).2
    cases hresult : (calls.walk p ()).1.result with
    | ok t =>
      rw [hresult] at hcourse
      exact absurd hcourse.kind_ne_program h
    | error e =>
      cases e
      rw [convert, Logged.bind_of_error hresult]

theorem result_convert_eq_ok_iff {p : Source.Program} {t : Target.Program} :
    (convert p).result = .ok t ↔ t.Normal ∧ t.erased = p := by
  rw [result_convert]
  constructor
  · intro h
    split at h
    · rename_i hbelow
      obtain rfl := Except.ok.inj h
      exact ⟨normal_map_statement hbelow, erased_map_statement p⟩
    · cases h
  · rintro ⟨hnormal, rfl⟩
    obtain ⟨hbody, hbelow⟩ := map_statement_erased hnormal
    rw [if_pos hbelow, hbody]

/-- Conversion gives a target program exactly if no program stands below the root, and fails
    for that alone otherwise. What it gives are the programs in normal form, each for one
    source program: the one with the same names, literals and places. -/
theorem convert_bijective (p : Source.Program) (t : Target.Program) :
    ((∃ u, (convert p).result = .ok u) ↔ ∀ m ∈ p.below, m.kind ≠ .program) ∧
    ((∃ m ∈ p.below, m.kind = .program) → (convert p).result = .error .nestedProgram) ∧
    ((convert p).result = .ok t → t.body = p.body.map Node.statement) ∧
    ((convert p).result = .ok t ↔ t.Normal ∧ t.erased = p) ∧
    (∀ q, (convert p).result = .ok t → (convert q).result = .ok t → q = p) ∧
    (t.Normal ↔ ∃ q, (convert q).result = .ok t) := by
  have hresult := result_convert p
  refine ⟨⟨?_, fun h => ?_⟩, ?_, fun h => ?_, result_convert_eq_ok_iff, fun q hp hq => ?_, ?_⟩
  · rintro ⟨u, hu⟩
    refine Decidable.byContradiction fun hbelow => ?_
    rw [hresult, if_neg hbelow] at hu
    cases hu
  · exact ⟨_, hresult.trans (if_pos h)⟩
  · rintro ⟨m, hm, hkind⟩
    exact hresult.trans (if_neg fun h => h m hm hkind)
  · obtain ⟨hnormal, rfl⟩ := result_convert_eq_ok_iff.mp h
    exact (map_statement_erased hnormal).1.symm
  · exact (result_convert_eq_ok_iff.mp hq).2.symm.trans (result_convert_eq_ok_iff.mp hp).2
  · simp only [result_convert_eq_ok_iff, exists_and_left, exists_eq', and_true]

theorem a_call_becomes_a_statement_and_back :
    let p : Source.Program := ⟨[.call "f" [.string "a", .call "g" []], .number "2"]⟩
    let t : Target.Program := ⟨[.statement "f" [.string "a", .call "g" []], .number "2"]⟩
    let nested : Source.Program := ⟨[.call "f" [.program []]]⟩
    (convert p).result = .ok t ∧ t.Normal ∧ t.erased = p ∧ t.body = p.body.map Node.statement ∧
      (∃ m ∈ nested.below, m.kind = .program) ∧
      (convert nested).result = .error .nestedProgram := by
  intro p t nested
  have hresult : (convert p).result = .ok t := rfl
  have hnested : ∃ m ∈ nested.below, m.kind = .program := by decide
  obtain ⟨-, -, hbody, hiff, -, -⟩ := convert_bijective p t
  obtain ⟨-, herror, -, -, -, -⟩ := convert_bijective nested t
  obtain ⟨hnormal, herased⟩ := hiff.mp hresult
  exact ⟨hresult, hnormal, herased, hbody hresult, hnested, herror hnested⟩

end Conversion

end CallForm
