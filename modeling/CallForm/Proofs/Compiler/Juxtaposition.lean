/-
  CallForm.Proofs.Compiler.Juxtaposition — texts compiled one behind the other.

  Blanks keep the tokens of two texts apart (`tokens_between_blanks`), and behind a program
  reading goes on as from the start, so two programs in a row have the code of both, joined as
  statements (`code_append`). An error of the second text stays as it is; one of the first does
  if it is not about the end of the text (`compile_juxtaposed`).
-/

import Mathlib
import CallForm.Proofs.Compiler.Tokens
import CallForm.Proofs.Source.Faults

namespace CallForm

open Source (Expression Node)

/-! ## Tokens on both sides of blanks -/

theorem tokens_between_blanks {gap : String} (hne : gap ≠ "")
    (hgap : ∀ c ∈ gap.toList, Text.isBlank c = true) (a b : String) :
    tokens (a ++ gap ++ b) = tokens a ++ tokens b := by
  have hclass : ∀ c ∈ gap.toList, (CharClass.of c).isGap = true := fun c hc =>
    isGap_of_isBlank (hgap c hc)
  rw [tokens_eq_toks, String.toList_append, String.toList_append, List.append_assoc,
    toks_around_gap (by simpa using hne) hclass, tokens_eq_toks, tokens_eq_toks]

/-! ## Code of two programs in a row -/

variable {s : Settings} {style : CodeStyle} {source : String}

theorem rendered_ne_empty (style : CodeStyle) {q : Node} (h : q.Lexical) :
    q.rendered style ≠ "" := by
  cases q with
  | program body | string value => exact h.elim
  | number digits => exact h.1
  | call name params =>
    intro he
    have hlist := congrArg String.toList he
    simp [Node.rendered] at hlist

/-- Only a program without expressions has empty code. -/
theorem code_eq_empty_iff {sep : String} {body : List Node} (h : ∀ q ∈ body, q.Lexical) :
    sep.intercalate (body.map (·.rendered style)) = "" ↔ body = [] := by
  constructor
  · intro he
    cases body with
    | nil => rfl
    | cons q body =>
      have hq := rendered_ne_empty style (h q List.mem_cons_self)
      have hlist := congrArg String.toList he
      simp [String.toList_intercalate, Node.intercalate_cons, hq] at hlist
  · rintro rfl
    rfl

theorem code_append {sep : String} {ps qs : List Node} (hps : ∀ p ∈ ps, p.Lexical)
    (hqs : ∀ q ∈ qs, q.Lexical) :
    sep.intercalate ((ps ++ qs).map (·.rendered style)) =
      (let x := sep.intercalate (ps.map (·.rendered style))
      let y := sep.intercalate (qs.map (·.rendered style))
      if x = "" then y else if y = "" then x else x ++ sep ++ y) := by
  simp only [code_eq_empty_iff hps, code_eq_empty_iff hqs]
  split
  · rename_i hp
    rw [hp, List.nil_append]
  · rename_i hp
    split
    · rename_i hq
      rw [hq, List.append_nil]
    · rename_i hq
      rw [List.map_append]
      exact String.intercalate_append_of_ne_nil (by simpa using hp) (by simpa using hq)

/-! ## Compilation -/

/-- Where no stray is refused, only the parser fails. -/
theorem parse_error_of_compile (hadmits : Admits s.strays source) {e : CompileError}
    (h : (s.compile source).result = .error e) :
    ∃ e', e = .parse e' ∧ (Source.parse s.maxDepth (tokens source)).result = .error e' := by
  rcases result_compile_of_admits hadmits with ⟨body, -, -, hok⟩ | ⟨e', hparse, herror⟩
  · rw [hok] at h
    cases h
  · exact ⟨e', Except.error.inj (h.symm.trans herror), hparse⟩

/-- An error behind expressions is the error of a program. -/
theorem parse_flats_of_error {d : Nat} {body : List Node} (hbody : ∀ q ∈ body, Expression d q)
    {ts : List Token} {e : Source.ParseError} (h : (Source.parse d ts).result = .error e) :
    (Source.parse d (Node.flats body ++ ts)).result = .error e := by
  rw [Source.result_parse_eq_error] at h ⊢
  rw [Source.readAll_flats hbody, h]
  rfl

/-- If strays are skipped, two texts with blanks between them compile to the code of both: joined
    as statements, unless that of one is empty. If only the second fails, they fail as it does.
    If the first fails, but not at its end, they fail as it does, whatever the second is. -/
theorem compile_juxtaposed (hskip : s.strays = .skip) {gap : String} (hne : gap ≠ "")
    (hgap : ∀ c ∈ gap.toList, Text.isBlank c = true) (a b : String) :
    (∀ x y, (s.compile a).result = .ok x → (s.compile b).result = .ok y →
      (s.compile (a ++ gap ++ b)).result = .ok
        (if x = "" then y else if y = "" then x else x ++ s.style.statementSeparator ++ y)) ∧
    (∀ x e, (s.compile a).result = .ok x → (s.compile b).result = .error e →
      (s.compile (a ++ gap ++ b)).result = .error e) ∧
    ∀ e, (s.compile a).result = .error (.parse e) → e.atEnd = false →
      (s.compile (a ++ gap ++ b)).result = .error (.parse e) := by
  have hadmits : ∀ source, Admits s.strays source := by
    intro source
    rw [hskip]
    exact nofun
  have htokens := tokens_between_blanks hne hgap a b
  refine ⟨fun x y hx hy => ?_, fun x e hx he => ?_, fun e he hend => ?_⟩
  · obtain ⟨ps, hps, ha, rfl⟩ := expressions_of_compile hx
    obtain ⟨qs, hqs, hb, rfl⟩ := expressions_of_compile hy
    have hboth : ∀ q ∈ ps ++ qs, Expression s.maxDepth q :=
      List.forall_mem_append.mpr ⟨hps, hqs⟩
    rw [ha, hb, ← Node.flats_append] at htokens
    rw [result_compile_of_flats (hadmits _) hboth htokens, code_append]
    · exact fun p hp => Source.lexical_of_tokens hps ha p hp p (Node.mem_nodes_self p)
    · exact fun q hq => Source.lexical_of_tokens hqs hb q hq q (Node.mem_nodes_self q)
  · obtain ⟨ps, hps, ha, -⟩ := expressions_of_compile hx
    obtain ⟨e', rfl, hparse⟩ := parse_error_of_compile (hadmits b) he
    apply result_compile_of_parse_error (hadmits _)
    rw [htokens, ha]
    exact parse_flats_of_error hps hparse
  · obtain ⟨e', heq, hparse⟩ := parse_error_of_compile (hadmits a) he
    obtain rfl : e = e' := CompileError.parse.inj heq
    apply result_compile_of_parse_error (hadmits _)
    rw [htokens]
    exact Source.parse_append_of_error hparse hend (tokens b)

/-- Between two programs the separator stands, at an empty one it does not; the open call `g` is
    reported behind a program, and behind a stray parenthesis it is not. -/
theorem two_calls_in_a_row :
    let s : Settings := { style := { statementSeparator := "; " } }
    let gap := " \n"
    s.strays = .skip ∧ gap ≠ "" ∧ (∀ c ∈ gap.toList, Text.isBlank c = true) ∧
    (s.compile ("(f 1)" ++ gap ++ "2")).result = .ok "f(1); 2" ∧
    (s.compile ("(f 1)" ++ gap ++ "#")).result = .ok "f(1)" ∧
    (s.compile ("(f 1)" ++ gap ++ "(g")).result = .error (.parse (.unterminated "g")) ∧
    (s.compile (")" ++ gap ++ "(g")).result = .error (.parse (.unexpected (.paren ')'))) := by
  intro s gap
  have hne : gap ≠ "" := by decide
  have hgap : ∀ c ∈ gap.toList, Text.isBlank c = true := List.all_eq_true.mp (by decide)
  have hcall : (s.compile "(f 1)").result = .ok "f(1)" := by cbv
  have hnumber : (s.compile "2").result = .ok "2" := by cbv
  have hempty : (s.compile "#").result = .ok "" := by cbv
  have hopen : (s.compile "(g").result = .error (.parse (.unterminated "g")) := by cbv
  have hstray : (s.compile ")").result = .error (.parse (.unexpected (.paren ')'))) := by cbv
  refine ⟨rfl, hne, hgap, ?_, ?_, ?_, ?_⟩
  · exact (compile_juxtaposed rfl hne hgap _ _).1 _ _ hcall hnumber
  · exact (compile_juxtaposed rfl hne hgap _ _).1 _ _ hcall hempty
  · exact (compile_juxtaposed rfl hne hgap _ _).2.1 _ _ hcall hopen
  · exact (compile_juxtaposed rfl hne hgap _ _).2.2 _ hstray rfl

end CallForm
