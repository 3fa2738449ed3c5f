/-
  CallForm.Proofs.Compiler — compilation from source text to code, as a whole.

  A run is the four phases in order (`result_compile`). The parser gives only expressions, and
  an expression is always converted and written (`result_convert_of_expressions`), so only the
  lexer and the parser can fail; and the code of a text can be told from the grammar
  (`compile_eq`).
-/

import CallForm.Compiler
import CallForm.Proofs.Source.Acceptance
import CallForm.Proofs.Target.Code
import CallForm.Proofs.Token.Policies

namespace CallForm

theorem Logged.result_bind {ε α β : Type} (x : Logged ε α) (f : α → Logged ε β) :
    (x >>= f).result = x.result >>= fun a => (f a).result := by
  cases h : x.result with
  | ok a => rw [Logged.bind_of_ok h]; rfl
  | error e => rw [Logged.bind_of_error h]; rfl

open Source (Expression Node)

variable {s : Settings} {source : String}

/-- The result of a run is that of its phases, each fed by the one before. -/
theorem result_compile (s : Settings) (source : String) :
    (s.compile source).result =
      ((lex s.strays source).result.mapError .lex >>= fun ts =>
        (Source.parse s.maxDepth ts).result.mapError .parse >>= fun p =>
        (Conversion.convert p).result.mapError .convert >>= fun target =>
        (target.code s.style).mapError .code) := by
  simp only [Settings.compile, Settings.convert, Settings.parse, Settings.tokens,
    Logged.result_bind, Logged.result_mapError, bind_assoc]
  refine bind_congr fun ts => bind_congr fun p => bind_congr fun target => ?_
  cases (target.code s.style).mapError CompileError.code <;> rfl

/-- Whatever is made of expressions is converted and written. -/
theorem result_convert_of_expressions {d : Nat} {p : Source.Program}
    (h : ∀ q ∈ p.body, Expression d q) (style : CodeStyle) :
    ∃ target, (Conversion.convert p).result = .ok target ∧
      target.code style =
        .ok (style.statementSeparator.intercalate (p.body.map (·.rendered style))) := by
  obtain ⟨hkinds, -⟩ := Source.expressions_iff.mp h
  have hcodable : ∀ m ∈ p.below, m.Codable style := by
    intro m hm
    rcases hkinds m hm with hk | hk <;> simp [Node.Codable, hk]
  refine ⟨⟨p.body.map Node.statement⟩, ?_,
    Target.code_convert (Node.forall_mem_nodesAll.mp hcodable)⟩
  rw [Conversion.convert_eq fun m hm => (hcodable m hm).1]

theorem result_compile_of_firstStray {c : Char} (hpolicy : s.strays = .reject)
    (h : FirstStray source c) : (s.compile source).result = .error (.lex (.unrecognized c)) := by
  rw [result_compile, hpolicy, result_lex_of_firstStray h]
  rfl

theorem result_compile_of_parse_error (hadmits : Admits s.strays source) {e : Source.ParseError}
    (h : (Source.parse s.maxDepth (tokens source)).result = .error e) :
    (s.compile source).result = .error (.parse e) := by
  rw [result_compile, result_lex_of_admits hadmits]
  show (Source.parse s.maxDepth (tokens source)).result.mapError CompileError.parse >>= _ = _
  rw [h]
  rfl

theorem result_compile_of_flats (hadmits : Admits s.strays source) {body : List Node}
    (hbody : ∀ q ∈ body, Expression s.maxDepth q) (htokens : tokens source = Node.flats body) :
    (s.compile source).result =
      .ok (s.style.statementSeparator.intercalate (body.map (·.rendered s.style))) := by
  have hparse : (Source.parse s.maxDepth (tokens source)).result = .ok ⟨body⟩ :=
    Source.result_parse_eq_ok.mpr (Source.readAll_eq_ok_iff.mpr ⟨hbody, htokens⟩)
  obtain ⟨target, hconvert, hcode⟩ := result_convert_of_expressions (p := ⟨body⟩) hbody s.style
  rw [result_compile, result_lex_of_admits hadmits]
  show (Source.parse s.maxDepth (tokens source)).result.mapError CompileError.parse >>= _ = _
  rw [hparse]
  show (Conversion.convert ⟨body⟩).result.mapError CompileError.convert >>= _ = _
  rw [hconvert]
  show (target.code s.style).mapError CompileError.code = _
  rw [hcode]
  rfl

/-- An admitted text is compiled to the code of its expressions, or the parser fails on it. -/
theorem result_compile_of_admits (hadmits : Admits s.strays source) :
    (∃ body, (∀ q ∈ body, Expression s.maxDepth q) ∧ tokens source = Node.flats body ∧
      (s.compile source).result =
        .ok (s.style.statementSeparator.intercalate (body.map (·.rendered s.style)))) ∨
    ∃ e, (Source.parse s.maxDepth (tokens source)).result = .error e ∧
      (s.compile source).result = .error (.parse e) := by
  cases h : (Source.parse s.maxDepth (tokens source)).result with
  | error e => exact .inr ⟨e, rfl, result_compile_of_parse_error hadmits h⟩
  | ok p =>
    obtain ⟨hbody, hflat⟩ := Source.readAll_eq_ok_iff.mp (Source.result_parse_eq_ok.mp h)
    exact .inl ⟨p.body, hbody, hflat, result_compile_of_flats hadmits hbody hflat⟩

theorem phase_of_compile_error {e : CompileError} (h : (s.compile source).result = .error e) :
    e.phase = .lexer ∨ e.phase = .parser := by
  by_cases hadmits : Admits s.strays source
  · rcases result_compile_of_admits hadmits with ⟨body, -, -, hok⟩ | ⟨e', -, herror⟩
    · rw [hok] at h
      cases h
    · obtain rfl : .parse e' = e := Except.error.inj (herror.symm.trans h)
      exact .inr rfl
  · obtain ⟨hpolicy, c, hc⟩ := exists_firstStray hadmits
    have herror := result_compile_of_firstStray hpolicy hc
    obtain rfl : .lex (.unrecognized c) = e := Except.error.inj (herror.symm.trans h)
    exact .inl rfl

/-- Compilation gives the first stray if strays are refused and there is one. Otherwise it
    gives code exactly if the tokens are those of expressions, not nested too deep, and then
    their code as the grammar has it; and in all other cases the error of the parser. No other
    phase ever fails. -/
theorem compile_eq (s : Settings) (source : String) :
    (¬ Admits s.strays source → ∃ c, FirstStray source c ∧
      (s.compile source).result = .error (.lex (.unrecognized c))) ∧
    (Admits s.strays source →
      (∀ code, (s.compile source).result = .ok code ↔
        ∃ body, (∀ q ∈ body, Expression s.maxDepth q) ∧ tokens source = Node.flats body ∧
          code = s.style.statementSeparator.intercalate (body.map (·.rendered s.style))) ∧
      ((¬ ∃ body, (∀ q ∈ body, Expression s.maxDepth q) ∧ tokens source = Node.flats body) →
        ∃ e, (Source.parse s.maxDepth (tokens source)).result = .error e ∧
          (s.compile source).result = .error (.parse e))) ∧
    ∀ e, (s.compile source).result = .error e → e.phase = .lexer ∨ e.phase = .parser := by
  refine ⟨fun hadmits => ?_, fun hadmits => ⟨fun code => ⟨fun hcode => ?_, ?_⟩, fun hnone => ?_⟩,
    fun e => phase_of_compile_error⟩
  · obtain ⟨hpolicy, c, hc⟩ := exists_firstStray hadmits
    exact ⟨c, hc, result_compile_of_firstStray hpolicy hc⟩
  · rcases result_compile_of_admits hadmits with ⟨body, hbody, hflat, hok⟩ | ⟨e, -, herror⟩
    · rw [hok] at hcode
      exact ⟨body, hbody, hflat, (Except.ok.inj hcode).symm⟩
    · rw [herror] at hcode
      cases hcode
  · rintro ⟨body, hbody, hflat, rfl⟩
    exact result_compile_of_flats hadmits hbody hflat
  · rcases result_compile_of_admits hadmits with ⟨body, hbody, hflat, -⟩ | herror
    · exact absurd ⟨body, hbody, hflat⟩ hnone
    · exact herror

/-- If strays are refused, `(2 A` fails for its `A` and not for the `2`; if they are skipped,
    `(add 1# (f))` is a call. -/
theorem a_stray_comes_before_syntax :
    (¬ Admits .reject "(2 A" ∧ ∃ c, FirstStray "(2 A" c ∧
      (({ strays := .reject } : Settings).compile "(2 A").result =
        .error (.lex (.unrecognized c))) ∧
    Admits .skip "(add 1# (f))" ∧
      (({} : Settings).compile "(add 1# (f))").result = .ok "add(1, f())" := by
  have hreject : ¬ Admits .reject "(2 A" := by decide
  have hskip : Admits .skip "(add 1# (f))" := by decide
  have hbody : ∀ q ∈ [Node.call "add" [.number "1", .call "f" []]], Expression 256 q := by decide
  obtain ⟨-, hcompile, -⟩ := compile_eq {} "(add 1# (f))"
  refine ⟨⟨hreject, (compile_eq { strays := .reject } "(2 A").1 hreject⟩, hskip, ?_⟩
  exact ((hcompile hskip).1 _).mpr ⟨_, hbody, by decide, by decide⟩

end CallForm
