/-
  CallForm.Proofs.Source.Acceptance — how reading ends, and which tokens are a program.

  Reading one expression ends with an expression within the limit, whose tokens are those
  taken, or at a fault: the calls then open, the tokens after them, and the error they force
  (`resume_outcome`). The same holds of whole programs (`readAll_ending`), and the tokens of
  expressions are always taken (`readAll_flats`). So the programs that are read are those of
  the grammar (`parse_eq_ok_iff`).
-/

import CallForm.Proofs.Source.OpenCalls

namespace CallForm.Source

/-- A token that neither begins an expression nor closes an open call. -/
def Misplaced (stack : List OpenCall) : Token → Prop
  | .paren c => c ≠ '(' ∧ (c = ')' → stack = [])
  | .name _ => True
  | .number _ => False

/-- Why reading stops: with these calls open, these tokens taken after them and these left,
    this is the error. -/
inductive Fault (limit : Nat) : List OpenCall → List Token → ParseError → List Token → Prop
  | nothing : Fault limit [] [] .unexpectedEnd []
  | unterminated (call : OpenCall) (outer : List OpenCall) :
      Fault limit (call :: outer) [] (.unterminated call.name) []
  | missingHead {stack : List OpenCall} : stack.length < limit →
      Fault limit stack [.paren '('] .unexpectedEnd []
  | malformedHead {stack : List OpenCall} {t : Token} {rest : List Token} : stack.length < limit →
      t.isName = false → Fault limit stack [.paren '(', t] (.malformedHead t) rest
  | unexpected {stack : List OpenCall} {t : Token} {rest : List Token} : Misplaced stack t →
      Fault limit stack [t] (.unexpected t) rest
  | tooDeep {stack : List OpenCall} {rest : List Token} : limit ≤ stack.length →
      Fault limit stack [.paren '('] (.tooDeep limit) rest

/-- How reading one expression from `ts` may end: its answer and the tokens left. -/
inductive Outcome (limit : Nat) (ts : List Token) : Except ParseError Node → List Token → Prop
  | read {q : Node} {rest : List Token} : Expression limit q → ts = q.flat ++ rest →
      Outcome limit ts (.ok q) rest
  | stopped {stack : List OpenCall} {last rest : List Token} {e : ParseError} : Fits limit stack →
      Fault limit stack last e rest → ts = opened stack ++ (last ++ rest) →
      Outcome limit ts (.error e) rest

/-! ## One expression -/

/-- Taking a token changes neither the tokens that the stack and the rest stand for, nor the
    fit of the stack; so the end of a run tells how the run began. -/
theorem resume_outcome (limit : Nat) (stack : List OpenCall) (ts : List Token)
    (h : Fits limit stack) : Outcome limit (opened stack ++ ts) (resume limit stack ts).answer
      (resume limit stack ts).rest := by
  fun_induction resume limit stack ts with
  | case1 => exact .stopped h .nothing rfl
  | case2 call outer => exact .stopped h (.unterminated call outer) rfl
  | case3 digits rest => exact .read (.number digits) rfl
  | case4 digits rest call outer ih =>
    have hopened : opened (call :: outer) ++ .number digits :: rest =
        opened (call.add (.number digits) :: outer) ++ rest := by simp [Node.flat]
    rw [hopened]
    exact ih (h.add (.number digits))
  | case5 stack text rest => exact .stopped h (.unexpected trivial) rfl
  | case6 stack hlt => exact .stopped h (.missingHead hlt) rfl
  | case7 stack hlt name rest ih =>
    have hopened : opened stack ++ .paren '(' :: .name name :: rest =
        opened (⟨name, []⟩ :: stack) ++ rest := by simp [opened]
    rw [hopened]
    exact ih (h.open_ hlt name)
  | case8 stack hlt found rest hname =>
    have hfound : found.isName = false := by
      cases found with
      | name text => exact absurd rfl (hname text)
      | paren c => rfl
      | number digits => rfl
    exact .stopped h (.malformedHead hlt hfound) rfl
  | case9 stack rest hge => exact .stopped h (.tooDeep (Nat.le_of_not_lt hge)) rfl
  | case10 rest hne => exact .stopped h (.unexpected ⟨hne, fun _ => rfl⟩) rfl
  | case11 rest call hne =>
    refine .read h.close ?_
    have hclose := opened_close call []
    simp only [opened, List.nil_append] at hclose ⊢
    rw [← hclose, List.append_assoc, List.singleton_append]
  | case12 rest call outer others hne later ih =>
    have hopened : opened (call :: outer :: others) ++ .paren ')' :: rest =
        opened (outer.add call.close :: others) ++ rest := by
      rw [opened_add, ← opened_close, List.append_assoc, List.singleton_append]
    rw [hopened]
    exact ih (h.outer.add h.close)
  | case13 stack c rest hopen hclose =>
    exact .stopped h (.unexpected ⟨hopen, fun he => absurd he hclose⟩) rfl

theorem read_outcome (limit : Nat) (ts : List Token) :
    Outcome limit ts (read limit ts).answer (read limit ts).rest :=
  resume_outcome limit [] ts .none

/-- An expression within the limit is read, and nothing after it is taken. -/
theorem read_flat {limit : Nat} {q : Node} (h : Expression limit q) (rest : List Token) :
    read limit (q.flat ++ rest) = ⟨.ok q, rest, q.closings⟩ := by
  rw [read, resume_flat h (by simp)]
  simp [deliver, Reading.after]

/-! ## Programs -/

@[simp] theorem readAll_nil (limit : Nat) : readAll limit [] = ⟨.ok [], [], []⟩ := by
  rw [readAll, dif_pos rfl]

theorem readAll_of_ok {limit : Nat} {ts : List Token} (hne : ts ≠ []) {q : Node}
    (h : (read limit ts).answer = .ok q) :
    readAll limit ts = ⟨(readAll limit (read limit ts).rest).answer.map (q :: ·),
      (readAll limit (read limit ts).rest).rest,
      (read limit ts).events ++ (readAll limit (read limit ts).rest).events⟩ := by
  rw [readAll, dif_neg hne]
  simp only [h]

theorem readAll_of_error {limit : Nat} {ts : List Token} (hne : ts ≠ []) {e : ParseError}
    (h : (read limit ts).answer = .error e) :
    readAll limit ts = ⟨.error e, (read limit ts).rest, (read limit ts).events⟩ := by
  rw [readAll, dif_neg hne]
  simp only [h]

/-- Expressions at the front are read, and then what follows them. -/
theorem readAll_flats {limit : Nat} {body : List Node} (h : ∀ q ∈ body, Expression limit q)
    (ts : List Token) : readAll limit (Node.flats body ++ ts) =
      ⟨(readAll limit ts).answer.map (body ++ ·), (readAll limit ts).rest,
        Node.closingsAll body ++ (readAll limit ts).events⟩ := by
  induction body with
  | nil =>
    cases hts : readAll limit ts with
    | mk answer rest events => cases answer <;> simp [Node.closingsAll, hts, Except.map]
  | cons q body ih =>
    obtain ⟨hq, hbody⟩ := List.forall_mem_cons.mp h
    have hread := read_flat hq (Node.flats body ++ ts)
    have hne : q.flat ++ (Node.flats body ++ ts) ≠ [] := by simp [hq.flat_ne_nil]
    rw [Node.flats_cons, List.append_assoc, readAll_of_ok hne (by rw [hread]), hread, ih hbody]
    cases (readAll limit ts).answer <;> simp [Node.closingsAll, Except.map]

/-- How reading a program from `ts` may end. -/
inductive Ending (limit : Nat) (ts : List Token) :
    Except ParseError (List Node) → List Token → Prop
  | read {body : List Node} {rest : List Token} : (∀ q ∈ body, Expression limit q) →
      ts = Node.flats body → rest = [] → Ending limit ts (.ok body) rest
  | stopped {body : List Node} {stack : List OpenCall} {last rest : List Token} {e : ParseError} :
      (∀ q ∈ body, Expression limit q) → Fits limit stack → Fault limit stack last e rest →
      opened stack ++ (last ++ rest) ≠ [] →
      ts = Node.flats body ++ (opened stack ++ (last ++ rest)) → Ending limit ts (.error e) rest

theorem readAll_ending (limit : Nat) (ts : List Token) :
    Ending limit ts (readAll limit ts).answer (readAll limit ts).rest := by
  fun_induction readAll limit ts with
  | case1 => exact .read (by simp) rfl rfl
  | case2 ts hne first e he =>
    have hfirst := read_outcome limit ts
    rw [he] at hfirst
    cases hfirst with
    | stopped hfits hfault hts =>
      have hnone : ∀ q ∈ ([] : List Node), Expression limit q := nofun
      exact .stopped hnone hfits hfault (hts ▸ hne) hts
  | case3 ts hne first q hq later ih =>
    have hfirst := read_outcome limit ts
    rw [hq] at hfirst
    cases hfirst with
    | read hexpr hts =>
      cases hlater : later.answer with
      | ok body =>
        rw [hlater] at ih
        cases ih with
        | read hbody hrest hnil =>
          refine .read (List.forall_mem_cons.mpr ⟨hexpr, hbody⟩) ?_ hnil
          rw [hts, hrest, Node.flats_cons]
      | error e =>
        rw [hlater] at ih
        cases ih with
        | @stopped body _ _ _ _ hbody hfits hfault hstop hrest =>
          refine .stopped (List.forall_mem_cons.mpr ⟨hexpr, hbody⟩) hfits hfault hstop ?_
          rw [hts, hrest, Node.flats_cons, List.append_assoc]

theorem readAll_eq_ok_iff {limit : Nat} {ts : List Token} {body : List Node} :
    (readAll limit ts).answer = .ok body ↔
      (∀ q ∈ body, Expression limit q) ∧ ts = Node.flats body := by
  constructor
  · intro h
    have hend := readAll_ending limit ts
    rw [h] at hend
    cases hend with
    | read hbody hts _ => exact ⟨hbody, hts⟩
  · rintro ⟨hbody, rfl⟩
    have hread := readAll_flats hbody []
    rw [List.append_nil] at hread
    rw [hread]
    simp [Except.map]

theorem result_parse (limit : Nat) (ts : List Token) :
    (parse limit ts).result = (readAll limit ts).answer.map Program.mk := by
  rw [parse]
  cases (readAll limit ts).answer <;> simp [Except.map]

theorem result_parse_eq_ok {limit : Nat} {ts : List Token} {p : Program} :
    (parse limit ts).result = .ok p ↔ (readAll limit ts).answer = .ok p.body := by
  obtain ⟨body⟩ := p
  rw [result_parse]
  cases (readAll limit ts).answer <;> simp [Except.map]

theorem result_parse_eq_error {limit : Nat} {ts : List Token} {e : ParseError} :
    (parse limit ts).result = .error e ↔ (readAll limit ts).answer = .error e := by
  rw [result_parse]
  cases (readAll limit ts).answer <;> simp [Except.map]

/-- The programs that are read from tokens are the trees of calls and numbers, not nested too
    deep, that have these tokens. -/
theorem parse_eq_ok_iff (limit : Nat) (ts : List Token) (p : Program) :
    (parse limit ts).result = .ok p ↔
      (∀ m ∈ p.below, m.kind = .call ∨ m.kind = .number) ∧ p.callDepth ≤ limit ∧ ts = p.flat := by
  rw [result_parse_eq_ok, readAll_eq_ok_iff, expressions_iff, and_assoc, Program.flat]

end CallForm.Source
