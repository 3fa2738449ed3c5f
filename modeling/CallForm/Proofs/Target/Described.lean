/-
  CallForm.Proofs.Target.Described — the chain of checks that describes a program.

  The chain asks for the number of statements and then, statement by statement, for the callee,
  the number of arguments and each argument (`Program.described?`). Every program of
  statements whose arguments are calls and literals has one (`exists_described`). It is exact:
  no other program passes it (`check_described`). And no step of it is asked of a node that is
  not there (`finds_described`): before an index is used, the length of the list has been
  checked.
-/

import CallForm.Proofs.Target.Check
import CallForm.Proofs.Target.Shape

namespace CallForm.Target

/-! ## The chain for a program -/

/-- The checks of a call with this callee and these arguments; `checks` are those of the
    arguments. -/
def CallCheck.ofCall (callee : String) (arguments : List Node) (checks : List CallCheck) :
    List CallCheck :=
  .callee callee :: .argumentCount arguments.length :: checks

mutual

/-- The check that an argument is this node. Only literals and calls can be asked for. -/
def Node.described? : Node → Option NodeCheck
  | .number digits => some (.number digits)
  | .string value => some (.string value)
  | .call callee arguments => do
    let checks ← Node.describedFrom? 0 arguments
    return .call (CallCheck.ofCall callee arguments checks)
  | .program _ | .statement _ _ | .identifier _ => none

/-- The checks that the arguments from index `i` on are these nodes. -/
def Node.describedFrom? (i : Nat) : List Node → Option (List CallCheck)
  | [] => some []
  | m :: ms => do
    let check ← m.described?
    let checks ← Node.describedFrom? (i + 1) ms
    return .argument i check :: checks

end

/-- The checks that the body from index `i` on consists of these statements. -/
def ProgramCheck.describedFrom? (i : Nat) : List Node → Option (List ProgramCheck)
  | [] => some []
  | .statement callee arguments :: ms => do
    let checks ← Node.describedFrom? 0 arguments
    let others ← ProgramCheck.describedFrom? (i + 1) ms
    return .statement i (CallCheck.ofCall callee arguments checks) :: others
  | _ :: _ => none

/-- The chain of checks that describes a program. -/
def Program.described? (p : Program) : Option (List ProgramCheck) := do
  let checks ← ProgramCheck.describedFrom? 0 p.body
  return .statementCount p.body.length :: checks

theorem Node.described?_call {callee : String} {arguments : List Node} {check : NodeCheck} :
    (Node.call callee arguments).described? = some check ↔
      ∃ checks, Node.describedFrom? 0 arguments = some checks ∧
        .call (CallCheck.ofCall callee arguments checks) = check := by
  simp only [Node.described?, Option.bind_eq_bind, Option.bind_eq_some_iff, Option.pure_def,
    Option.some.injEq]

theorem Node.describedFrom?_cons {i : Nat} {m : Node} {ms : List Node} {checks : List CallCheck} :
    Node.describedFrom? i (m :: ms) = some checks ↔
      ∃ check, m.described? = some check ∧
        ∃ others, Node.describedFrom? (i + 1) ms = some others ∧
          .argument i check :: others = checks := by
  simp only [Node.describedFrom?, Option.bind_eq_bind, Option.bind_eq_some_iff, Option.pure_def,
    Option.some.injEq]

theorem ProgramCheck.describedFrom?_statement {i : Nat} {callee : String}
    {arguments ms : List Node} {checks : List ProgramCheck} :
    ProgramCheck.describedFrom? i (.statement callee arguments :: ms) = some checks ↔
      ∃ here, Node.describedFrom? 0 arguments = some here ∧
        ∃ others, ProgramCheck.describedFrom? (i + 1) ms = some others ∧
          .statement i (CallCheck.ofCall callee arguments here) :: others = checks := by
  simp only [ProgramCheck.describedFrom?, Option.bind_eq_bind, Option.bind_eq_some_iff,
    Option.pure_def, Option.some.injEq]

theorem Program.described?_eq_some {p : Program} {chain : List ProgramCheck} :
    p.described? = some chain ↔
      ∃ checks, ProgramCheck.describedFrom? 0 p.body = some checks ∧
        .statementCount p.body.length :: checks = chain := by
  simp only [Program.described?, Option.bind_eq_bind, Option.bind_eq_some_iff, Option.pure_def,
    Option.some.injEq]

section

variable {ms : List Node}

theorem exists_describedFrom (h : ∀ m ∈ ms, ∃ check, m.described? = some check) (i : Nat) :
    ∃ checks, Node.describedFrom? i ms = some checks := by
  induction ms generalizing i with
  | nil => exact ⟨[], rfl⟩
  | cons m ms ih =>
    obtain ⟨hm, hms⟩ := List.forall_mem_cons.mp h
    obtain ⟨check, hcheck⟩ := hm
    obtain ⟨checks, hchecks⟩ := ih hms (i + 1)
    exact ⟨_, Node.describedFrom?_cons.mpr ⟨check, hcheck, checks, hchecks, rfl⟩⟩

theorem exists_node_described {m : Node} (hm : m.Passable) (h : ∀ x ∈ m.passed, x.Passable) :
    ∃ check, m.described? = some check := by
  induction m using Node.tree_induction with
  | program body _ => simp [Node.Passable, Node.kind] at hm
  | statement callee arguments _ => simp [Node.Passable, Node.kind] at hm
  | identifier name => simp [Node.Passable, Node.kind] at hm
  | number digits => exact ⟨.number digits, rfl⟩
  | string value => exact ⟨.string value, rfl⟩
  | call callee arguments ih =>
    rw [Node.passed, List.forall_mem_append, Node.forall_mem_passedAll] at h
    obtain ⟨checks, hchecks⟩ :=
      exists_describedFrom (fun m hm => ih m hm (h.1 m hm) (h.2 m hm)) 0
    exact ⟨_, Node.described?_call.mpr ⟨checks, hchecks, rfl⟩⟩

theorem exists_statements_described (hkind : ∀ m ∈ ms, m.kind = .statement)
    (h : ∀ x ∈ Node.passedAll ms, x.Passable) (i : Nat) :
    ∃ checks, ProgramCheck.describedFrom? i ms = some checks := by
  induction ms generalizing i with
  | nil => exact ⟨[], rfl⟩
  | cons m ms ih =>
    obtain ⟨hm, hms⟩ := List.forall_mem_cons.mp hkind
    rw [Node.passedAll, List.forall_mem_append] at h
    obtain ⟨others, hothers⟩ := ih hms h.2 (i + 1)
    cases m with
    | statement callee arguments =>
      obtain ⟨hhere, hbelow⟩ := List.forall_mem_append.mp h.1
      rw [Node.forall_mem_passedAll] at hbelow
      obtain ⟨checks, hchecks⟩ :=
        exists_describedFrom (fun m hm => exists_node_described (hhere m hm) (hbelow m hm)) 0
      exact ⟨_, ProgramCheck.describedFrom?_statement.mpr ⟨checks, hchecks, others, hothers, rfl⟩⟩
    | program | call | identifier | number | string => simp [Node.kind] at hm

end

theorem exists_described {p : Program} (hbody : ∀ m ∈ p.body, m.kind = .statement)
    (hpassed : ∀ m ∈ Node.passedAll p.body, m.Passable) :
    ∃ chain, p.described? = some chain := by
  obtain ⟨checks, hchecks⟩ := exists_statements_described hbody hpassed 0
  exact ⟨_, Program.described?_eq_some.mpr ⟨checks, hchecks, rfl⟩⟩

/-! ## Who passes -/

section

variable {place : Place} {callee : String} {arguments ms : List Node}

theorem runAll_cons_eq_ok_iff {check : CallCheck} {checks : List CallCheck} :
    CallCheck.runAll place callee arguments (check :: checks) = .ok () ↔
      check.run place callee arguments = .ok () ∧
        CallCheck.runAll place callee arguments checks = .ok () := by
  rw [CallCheck.runAll]
  cases check.run place callee arguments <;> simp

theorem prefix_drop_iff {α : Type} {x : α} {xs ys : List α} {i : Nat} :
    x :: xs <+: ys.drop i ↔ ys[i]? = some x ∧ xs <+: ys.drop (i + 1) := by
  rw [List.drop_add_one_eq_tail_drop, ← List.head?_drop]
  cases ys.drop i <;> simp [List.cons_prefix_cons, eq_comm]

theorem runAll_describedFrom {i : Nat} {checks : List CallCheck}
    (h : ∀ m ∈ ms, ∀ check, m.described? = some check →
      ∀ place n, check.run place n = .ok () ↔ n = m)
    (hchecks : Node.describedFrom? i ms = some checks) :
    CallCheck.runAll place callee arguments checks = .ok () ↔ ms <+: arguments.drop i := by
  induction ms generalizing i checks with
  | nil =>
    obtain rfl := Option.some.inj hchecks
    simp [CallCheck.runAll]
  | cons m ms ih =>
    obtain ⟨hm, hms⟩ := List.forall_mem_cons.mp h
    obtain ⟨check, hcheck, others, hothers, rfl⟩ := Node.describedFrom?_cons.mp hchecks
    rw [runAll_cons_eq_ok_iff, ih hms hothers, prefix_drop_iff, CallCheck.run]
    refine and_congr_left fun _ => ?_
    cases hi : arguments[i]? with
    | none => simp
    | some n => simp [hm check hcheck]

theorem runAll_ofCall {name : String} {checks : List CallCheck}
    (h : ∀ m ∈ ms, ∀ check, m.described? = some check →
      ∀ place n, check.run place n = .ok () ↔ n = m)
    (hchecks : Node.describedFrom? 0 ms = some checks) :
    CallCheck.runAll place callee arguments (CallCheck.ofCall name ms checks) = .ok () ↔
      callee = name ∧ arguments = ms := by
  rw [CallCheck.ofCall, runAll_cons_eq_ok_iff, runAll_cons_eq_ok_iff, CallCheck.run,
    CallCheck.run, runAll_describedFrom h hchecks, List.drop_zero]
  simp only [ite_eq_left_iff, reduceCtorEq, imp_false, Decidable.not_not]
  refine and_congr_right fun _ => ⟨fun ⟨hlength, hbegins⟩ => ?_, ?_⟩
  · exact (hbegins.eq_of_length hlength.symm).symm
  · rintro rfl
    exact ⟨rfl, List.prefix_rfl⟩

end

/-- Only the node itself passes the check that describes it. -/
theorem run_described {m : Node} {check : NodeCheck} (hcheck : m.described? = some check)
    (place : Place) (n : Node) : check.run place n = .ok () ↔ n = m := by
  induction m using Node.tree_induction generalizing check place n with
  | program body _ | statement callee arguments _ | identifier name => cases hcheck
  | number digits =>
    obtain rfl := Option.some.inj hcheck
    cases n <;> simp [NodeCheck.run]
  | string value =>
    obtain rfl := Option.some.inj hcheck
    cases n <;> simp [NodeCheck.run]
  | call callee arguments ih =>
    obtain ⟨checks, hchecks, rfl⟩ := Node.described?_call.mp hcheck
    cases n with
    | call name found =>
      have hrun : CallCheck.runAll place name found (CallCheck.ofCall callee arguments checks) =
          .ok () ↔ name = callee ∧ found = arguments :=
        runAll_ofCall (fun m hm check hcheck => ih m hm hcheck) hchecks
      simp [NodeCheck.run, hrun]
    | program | statement | identifier | number | string => simp [NodeCheck.run]

theorem check_cons_eq_ok_iff {q : Program} {check : ProgramCheck} {chain : List ProgramCheck} :
    q.check (check :: chain) = .ok () ↔ check.run q = .ok () ∧ q.check chain = .ok () := by
  rw [Program.check]
  cases check.run q <;> simp

theorem check_describedFrom {q : Program} {ms : List Node} {i : Nat} {checks : List ProgramCheck}
    (hchecks : ProgramCheck.describedFrom? i ms = some checks) :
    q.check checks = .ok () ↔ ms <+: q.body.drop i := by
  induction ms generalizing i checks with
  | nil =>
    obtain rfl := Option.some.inj hchecks
    simp [Program.check]
  | cons m ms ih =>
    cases m with
    | statement callee arguments =>
      obtain ⟨here, hhere, others, hothers, rfl⟩ :=
        ProgramCheck.describedFrom?_statement.mp hchecks
      rw [check_cons_eq_ok_iff, ih hothers, prefix_drop_iff]
      refine and_congr_left fun _ => ?_
      cases hi : q.body[i]? with
      | none => simp [ProgramCheck.run, hi]
      | some m =>
        cases m with
        | statement name found =>
          have hrun : CallCheck.runAll ⟨i, []⟩ name found
              (CallCheck.ofCall callee arguments here) = .ok () ↔
                name = callee ∧ found = arguments :=
            runAll_ofCall (fun m _ check hcheck => run_described hcheck) hhere
          simp [ProgramCheck.run, hi, hrun]
        | program | call | identifier | number | string => simp [ProgramCheck.run, hi]
    | program | call | identifier | number | string => cases hchecks

/-- Only the program itself passes the chain that describes it. -/
theorem check_described {p : Program} {chain : List ProgramCheck}
    (hchain : p.described? = some chain) (q : Program) : q.check chain = .ok () ↔ q = p := by
  obtain ⟨checks, hchecks, rfl⟩ := Program.described?_eq_some.mp hchain
  rw [check_cons_eq_ok_iff, check_describedFrom hchecks, List.drop_zero, ProgramCheck.run]
  simp only [ite_eq_left_iff, reduceCtorEq, imp_false, Decidable.not_not]
  constructor
  · rintro ⟨hlength, hbegins⟩
    obtain ⟨body⟩ := p
    obtain ⟨found⟩ := q
    exact congrArg Program.mk (hbegins.eq_of_length hlength.symm).symm
  · rintro rfl
    exact ⟨rfl, List.prefix_rfl⟩

/-! ## Steps that find their nodes -/

/-- Each step that is asked, as all before it are true, is about a node that is there. -/
def FindsAll (q : Program) : List Step → Prop
  | [] => True
  | step :: steps =>
    (∀ place, step.place? = some place → ∃ m, q.node? place = some m) ∧
      (step.Holds q → FindsAll q steps)

namespace FindsAll

variable {q : Program} {place : Place} {ss ts : List Step}

theorem append (hss : FindsAll q ss) (hts : (∀ s ∈ ss, s.Holds q) → FindsAll q ts) :
    FindsAll q (ss ++ ts) := by
  induction ss with
  | nil => exact hts nofun
  | cons s ss ih =>
    obtain ⟨hs, hbehind⟩ := hss
    refine ⟨hs, fun hholds => ih (hbehind hholds) fun hall => ?_⟩
    exact hts (List.forall_mem_cons.mpr ⟨hholds, hall⟩)

theorem exists_node {before behind : List Step} {step : Step}
    (h : FindsAll q (before ++ step :: behind)) (hbefore : ∀ s ∈ before, s.Holds q)
    (hplace : step.place? = some place) : ∃ m, q.node? place = some m := by
  induction before with
  | nil => exact h.1 place hplace
  | cons s before ih =>
    obtain ⟨hs, hbefore⟩ := List.forall_mem_cons.mp hbefore
    exact ih (h.2 hs) hbefore

/-- A step about a node that is there. -/
theorem cons {step : Step} (hplace : step.place? = some place)
    (hnode : ∃ m, q.node? place = some m) (hss : step.Holds q → FindsAll q ss) :
    FindsAll q (step :: ss) := by
  refine ⟨fun there hthere => ?_, hss⟩
  obtain rfl := Option.some.inj (hplace.symm.trans hthere)
  exact hnode

end FindsAll

section

variable {q : Program} {place : Place} {ms : List Node}

theorem finds_describedFrom {callee : String} {arguments : List Node} {i : Nat}
    {checks : List CallCheck}
    (h : ∀ m ∈ ms, ∀ check, m.described? = some check →
      ∀ place, (∃ n, q.node? place = some n) → FindsAll q (check.steps place))
    (hcall : q.call? place = some (callee, arguments))
    (hlength : i + ms.length ≤ arguments.length)
    (hchecks : Node.describedFrom? i ms = some checks) :
    FindsAll q (CallCheck.stepsAll place checks) := by
  induction ms generalizing i checks with
  | nil =>
    obtain rfl := Option.some.inj hchecks
    trivial
  | cons m ms ih =>
    obtain ⟨hm, hms⟩ := List.forall_mem_cons.mp h
    obtain ⟨check, hcheck, others, hothers, rfl⟩ := Node.describedFrom?_cons.mp hchecks
    rw [List.length_cons] at hlength
    have hi : i < arguments.length := by omega
    have hnode : ∃ n, q.node? (place.argument i) = some n := by
      rw [Program.node?_argument, hcall]
      exact ⟨arguments[i], List.getElem?_eq_getElem hi⟩
    refine .append (.cons rfl hnode fun _ => hm check hcheck _ hnode) fun _ => ?_
    exact ih hms (by omega) hothers

theorem finds_ofCall {name : String} {checks : List CallCheck}
    (h : ∀ m ∈ ms, ∀ check, m.described? = some check →
      ∀ place, (∃ n, q.node? place = some n) → FindsAll q (check.steps place))
    (hchecks : Node.describedFrom? 0 ms = some checks) (hnode : ∃ n, q.node? place = some n) :
    FindsAll q (CallCheck.stepsAll place (CallCheck.ofCall name ms checks)) := by
  refine .cons rfl hnode fun _ => .cons rfl hnode fun hcount => ?_
  obtain ⟨⟨callee, arguments⟩, hcall, hlength⟩ := hcount
  have hbound : ms.length ≤ arguments.length := Nat.le_of_eq hlength.symm
  exact finds_describedFrom h hcall (by omega) hchecks

end

theorem finds_node {q : Program} {m : Node} {check : NodeCheck}
    (hcheck : m.described? = some check) (place : Place)
    (hnode : ∃ n, q.node? place = some n) : FindsAll q (check.steps place) := by
  induction m using Node.tree_induction generalizing check place with
  | program body _ | statement callee arguments _ | identifier name => cases hcheck
  | number digits =>
    obtain rfl := Option.some.inj hcheck
    exact .cons rfl hnode fun _ => trivial
  | string value =>
    obtain rfl := Option.some.inj hcheck
    exact .cons rfl hnode fun _ => trivial
  | call callee arguments ih =>
    obtain ⟨checks, hchecks, rfl⟩ := Node.described?_call.mp hcheck
    refine .cons rfl hnode fun _ => ?_
    exact finds_ofCall (fun m hm check hcheck => ih m hm hcheck) hchecks hnode

theorem finds_statements {q : Program} {ms : List Node} {i : Nat} {checks : List ProgramCheck}
    (hlength : i + ms.length ≤ q.body.length)
    (hchecks : ProgramCheck.describedFrom? i ms = some checks) :
    FindsAll q (checks.flatMap ProgramCheck.steps) := by
  induction ms generalizing i checks with
  | nil =>
    obtain rfl := Option.some.inj hchecks
    trivial
  | cons m ms ih =>
    cases m with
    | statement callee arguments =>
      obtain ⟨here, hhere, others, hothers, rfl⟩ :=
        ProgramCheck.describedFrom?_statement.mp hchecks
      rw [List.length_cons] at hlength
      have hi : i < q.body.length := by omega
      have hnode : ∃ n, q.node? ⟨i, []⟩ = some n :=
        ⟨q.body[i], (q.node?_statement i).trans (List.getElem?_eq_getElem hi)⟩
      refine .append (.cons rfl hnode fun _ => ?_) fun _ => ih (by omega) hothers
      exact finds_ofCall (fun m _ check hcheck => finds_node hcheck) hhere hnode
    | program | call | identifier | number | string => cases hchecks

/-- On whatever program it is checked, no step of the chain looks for a node that is not there:
    before an index is used, the length of the list has been found right. -/
theorem finds_described {p : Program} {chain : List ProgramCheck}
    (hchain : p.described? = some chain) (q : Program) :
    FindsAll q (chain.flatMap ProgramCheck.steps) := by
  obtain ⟨checks, hchecks, rfl⟩ := Program.described?_eq_some.mp hchain
  have hfirst : FindsAll q [.statementCount p.body.length] := ⟨nofun, fun _ => trivial⟩
  refine hfirst.append fun hcount => ?_
  have hlength : q.body.length = p.body.length := hcount _ List.mem_cons_self
  exact finds_statements (by omega) hchecks

/-- A program of statements whose arguments are calls and literals has a chain that describes
    it. No other program passes it. No step that is asked looks for a node that is not there.
    And a program that does not pass fails at the first step that is false of it, which is
    reported, for a step about a node, with the place where that node stands in it. -/
theorem described_chain_exact {p : Program} (hbody : ∀ m ∈ p.body, m.kind = .statement)
    (hpassed : ∀ m ∈ Node.passedAll p.body, m.Passable) :
    ∃ chain, p.described? = some chain ∧ ∀ q : Program,
      (q.check chain = .ok () ↔ q = p) ∧
      (∀ before step behind, chain.flatMap ProgramCheck.steps = before ++ step :: behind →
        (∀ s ∈ before, s.Holds q) →
        ∀ place, step.place? = some place → ∃ m, q.node? place = some m) ∧
      ∀ f, q.check chain = .error f → ∃ before step behind,
        chain.flatMap ProgramCheck.steps = before ++ step :: behind ∧
        (∀ s ∈ before, s.Holds q) ∧ ¬ step.Holds q ∧ step.failure q = some f ∧
        ∀ place, step.place? = some place → f.place? = some place ∧ Names place f.message := by
  obtain ⟨chain, hchain⟩ := exists_described hbody hpassed
  refine ⟨chain, hchain, fun q => ⟨check_described hchain q, ?_, ?_⟩⟩
  · intro before step behind hsplit hbefore place hplace
    have hfinds := finds_described hchain q
    rw [hsplit] at hfinds
    exact hfinds.exists_node hbefore hplace
  · intro f hf
    have hasked := asked_check q chain
    have hfinds := finds_described hchain q
    rw [hf] at hasked
    obtain ⟨before, step, behind, hsplit, hbefore, hfalse, hfailure⟩ := hasked.exists_first
    refine ⟨before, step, behind, hsplit, hbefore, hfalse, hfailure, fun place hplace => ?_⟩
    rw [hsplit] at hfinds
    have hreported :=
      Step.place_of_failure hplace (hfinds.exists_node hbefore hplace) hfalse hfailure
    exact ⟨hreported, Failure.names_place hreported⟩

/-- A statement that is passed as an argument is told apart from a call. -/
theorem a_statement_is_no_argument :
    let inner (m : Node) : Program := ⟨[.statement "add" [.number "2", m]]⟩
    let p := inner (.call "neg" [.number "1"])
    let q := inner (.statement "neg" [.number "1"])
    let chain : List ProgramCheck :=
      [.statementCount 1,
        .statement 0 [.callee "add", .argumentCount 2, .argument 0 (.number "2"),
          .argument 1 (.call [.callee "neg", .argumentCount 1, .argument 0 (.number "1")])]]
    let f : Failure := .wrongKind ⟨0, [1]⟩ .call (.statement "neg" [.number "1"])
    (∀ m ∈ p.body, m.kind = .statement) ∧ (∀ m ∈ Node.passedAll p.body, m.Passable) ∧
      p.described? = some chain ∧ p.check chain = .ok () ∧ q.check chain ≠ .ok () ∧
      q.check chain = .error f ∧
      (∃ before step behind, chain.flatMap ProgramCheck.steps = before ++ step :: behind ∧
        (∀ s ∈ before, s.Holds q) ∧ ¬ step.Holds q ∧ step.failure q = some f) ∧
      f.message =
        "body[0].arguments[1]: Expected CallExpression, found ExpressionStatement 'neg'" := by
  intro inner p q chain f
  have hbody : ∀ m ∈ p.body, m.kind = .statement := by decide
  have hpassed : ∀ m ∈ Node.passedAll p.body, m.Passable := by
    simp [p, inner, Node.passedAll, Node.passed, Node.Passable, Node.kind]
  have hchain : p.described? = some chain := rfl
  have hne : q ≠ p := by decide
  have herror : q.check chain = .error f := rfl
  obtain ⟨found, hfound, hexact⟩ := described_chain_exact hbody hpassed
  obtain rfl := Option.some.inj (hchain.symm.trans hfound)
  obtain ⟨hq, -, hfails⟩ := hexact q
  obtain ⟨before, step, behind, hsplit, hbefore, hfalse, hfailure, -⟩ := hfails f herror
  exact ⟨hbody, hpassed, hchain, (hexact p).1.mpr rfl, fun hok => hne (hq.mp hok), herror,
    ⟨before, step, behind, hsplit, hbefore, hfalse, hfailure⟩, rfl⟩

end CallForm.Target
