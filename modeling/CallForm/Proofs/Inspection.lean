/-
  CallForm.Proofs.Inspection — inspection fails only where compilation does.

  An available spec has a form for the product of its stage, so an inspection ends like the
  compilation up to that stage (`outcome_inspect`). The stages come one after the other
  (`reached_of_lex_error`, `reached_of_parse_error`), and nothing after the parser fails
  (`reached_of_parse`).
-/

import CallForm.Inspection
import CallForm.Proofs.Compiler
import CallForm.Proofs.Inspection.Spec
import CallForm.Proofs.Json.Within

namespace CallForm

variable {s : Settings} {source : String}

/-! ## Stages of a compilation -/

theorem Settings.result_parse (s : Settings) (source : String) :
    (s.parse source).result = (s.tokens source).result >>= fun ts =>
      (Source.parse s.maxDepth ts).result.mapError .parse := by
  rw [Settings.parse, Logged.result_bind]
  rfl

theorem Settings.result_convert (s : Settings) (source : String) :
    (s.convert source).result = (s.parse source).result >>= fun p =>
      (Conversion.convert p).result.mapError .convert := by
  rw [Settings.convert, Logged.result_bind]
  rfl

theorem Settings.result_compile (s : Settings) (source : String) :
    (s.compile source).result = (s.convert source).result >>= fun target =>
      (target.code s.style).mapError .code := by
  rw [Settings.compile, Logged.result_bind]
  refine bind_congr fun target => ?_
  rw [Logged.result_bind]
  cases (target.code s.style).mapError CompileError.code <;> rfl

theorem tokens_of_result {ts : List Token} (h : (s.tokens source).result = .ok ts) :
    ts = tokens source := by
  have hlex : (lex s.strays source).result = .ok ts := mapError_eq_ok.mp h
  by_cases hadmits : Admits s.strays source
  · rw [result_lex_of_admits hadmits] at hlex
    exact (Except.ok.inj hlex).symm
  · obtain ⟨hpolicy, c, hc⟩ := exists_firstStray hadmits
    rw [hpolicy, result_lex_of_firstStray hc] at hlex
    cases hlex

theorem parse_of_result {p : Source.Program} (h : (s.parse source).result = .ok p) :
    (Source.parse s.maxDepth (tokens source)).result = .ok p := by
  rw [Settings.result_parse] at h
  obtain ⟨ts, htokens, hparse⟩ := bind_eq_ok.mp h
  rw [← tokens_of_result htokens]
  exact mapError_eq_ok.mp hparse

theorem expressions_of_parse {p : Source.Program} (h : (s.parse source).result = .ok p) :
    ∀ q ∈ p.body, Source.Expression s.maxDepth q :=
  (Source.readAll_eq_ok_iff.mp (Source.result_parse_eq_ok.mp (parse_of_result h))).1

namespace Inspection

/-- How the compilation up to a stage ends, without the product. -/
def reached (s : Settings) (source : String) : Stage → Except CompileError Unit
  | .token => (s.tokens source).result.map fun _ => ()
  | .ast => (s.parse source).result.map fun _ => ()
  | .target => (s.convert source).result.map fun _ => ()
  | .code => (s.compile source).result.map fun _ => ()

theorem reached_of_lex_error {e : CompileError} (h : (s.tokens source).result = .error e)
    (stage : Stage) : reached s source stage = .error e := by
  cases stage <;>
    simp only [reached, Settings.result_compile, Settings.result_convert, Settings.result_parse, h]
      <;> rfl

theorem reached_of_parse_error {ts : List Token} {e : CompileError}
    (htokens : (s.tokens source).result = .ok ts) (h : (s.parse source).result = .error e)
    (stage : Stage) :
    reached s source stage = if stage = .token then .ok () else .error e := by
  cases stage with
  | token => rw [reached, htokens]; rfl
  | ast => rw [reached, h]; rfl
  | target => rw [reached, Settings.result_convert, h]; rfl
  | code => rw [reached, Settings.result_compile, Settings.result_convert, h]; rfl

theorem reached_of_parse {p : Source.Program} (h : (s.parse source).result = .ok p)
    (stage : Stage) : reached s source stage = .ok () := by
  obtain ⟨target, hconvert, hcode⟩ :=
    result_convert_of_expressions (expressions_of_parse h) s.style
  have htarget : (s.convert source).result = .ok target := by
    rw [Settings.result_convert, h]
    show (Conversion.convert p).result.mapError CompileError.convert = _
    rw [hconvert]
    rfl
  cases stage with
  | token =>
    cases htokens : (s.tokens source).result with
    | ok ts => rw [reached, htokens]; rfl
    | error e =>
      rw [Settings.result_parse, htokens] at h
      cases h
  | ast => rw [reached, h]; rfl
  | target => rw [reached, htarget]; rfl
  | code =>
    rw [reached, Settings.result_compile, htarget]
    show ((target.code s.style).mapError CompileError.code).map _ = _
    rw [hcode]
    rfl

/-! ## Products shown -/

theorem exists_tokensIn {format : Format} (h : ⟨.token, format⟩ ∈ Spec.available)
    (ts : List Token) : ∃ out, tokensIn format ts = .ok out := by
  cases format with
  | simple | json | yaml => exact ⟨_, rfl⟩
  | treeviz | text => exact absurd h (by decide)

theorem exists_sourceIn {format : Format} (h : ⟨.ast, format⟩ ∈ Spec.available)
    (p : Source.Program) : ∃ out, sourceIn format p = .ok out := by
  cases format with
  | treeviz | json | yaml => exact ⟨_, rfl⟩
  | simple | text => exact absurd h (by decide)

theorem exists_targetIn {format : Format} (h : ⟨.target, format⟩ ∈ Spec.available)
    (p : Target.Program) : ∃ out, targetIn format p = .ok out := by
  cases format with
  | treeviz | json | yaml => exact ⟨_, rfl⟩
  | simple | text => exact absurd h (by decide)

/-- A product that can be shown changes nothing about how a computation ends. -/
theorem map_bind_of_ok {ε δ α β : Type} {f : α → Except δ β} (hf : ∀ a, ∃ b, f a = .ok b)
    (g : ε → δ) (x : Except ε α) :
    ((x.mapError g >>= f).map fun _ => ()) = (x.map fun _ => ()).mapError g := by
  cases x with
  | error e => rfl
  | ok a =>
    obtain ⟨b, hb⟩ := hf a
    show (f a).map (fun _ => ()) = _
    rw [hb]
    rfl

theorem result_inspect (s : Settings) (spec : Spec) (source : String) :
    (inspect s spec source).result =
      match spec.stage with
      | .token => (s.tokens source).result.mapError .compile >>= tokensIn spec.format
      | .ast => (s.parse source).result.mapError .compile >>= sourceIn spec.format
      | .target => (s.convert source).result.mapError .compile >>= targetIn spec.format
      | .code => (s.compile source).result.mapError .compile := by
  obtain ⟨stage, format⟩ := spec
  cases stage <;> rw [inspect, Logged.result_bind] <;> simp only [Logged.result_emit] <;>
    first | exact Logged.result_bind _ _ | rfl

/-- The inspection of an available spec ends like the compilation up to its stage. -/
theorem outcome_inspect {spec : Spec} (h : spec ∈ Spec.available) (s : Settings)
    (source : String) :
    ((inspect s spec source).result.map fun _ => ()) =
      (reached s source spec.stage).mapError .compile := by
  obtain ⟨stage, format⟩ := spec
  rw [result_inspect]
  cases stage with
  | token => exact map_bind_of_ok (exists_tokensIn h) _ _
  | ast => exact map_bind_of_ok (exists_sourceIn h) _ _
  | target => exact map_bind_of_ok (exists_targetIn h) _ _
  | code => cases hcode : (s.compile source).result <;> simp only [reached, hcode] <;> rfl

/-- Two computations that end alike have something or the same error together. -/
theorem ends_alike {ε δ α : Type} {g : ε → δ} {x : Except δ α} {y : Except ε Unit}
    (h : (x.map fun _ => ()) = y.mapError g) :
    ((∃ a, x = .ok a) ↔ y = .ok ()) ∧ ∀ e, x = .error e ↔ ∃ c, y = .error c ∧ e = g c := by
  cases x with
  | ok a =>
    cases y with
    | ok u => simp
    | error c => cases h
  | error e =>
    cases y with
    | ok u => cases h
    | error c =>
      obtain rfl : e = g c := Except.error.inj h
      simp [eq_comm]

/-- A text names a spec exactly if it is the text of an available one, which it then names. The
    inspection of such a spec gives something exactly if compilation up to its stage does, and
    otherwise the same error. So it fails with the lexer, whatever is to be shown; if only the
    parser fails, tokens are still shown, and all else fails with it; and a text that is parsed
    can be shown in every available way. -/
theorem inspect_agrees (s : Settings) (source : String) :
    (∀ text spec, Spec.ofText text = .ok spec ↔ spec ∈ Spec.available ∧ spec.text = text) ∧
    (∀ text, (∃ spec, Spec.ofText text = .ok spec) ↔ text ∈ Spec.available.map Spec.text) ∧
    ∀ spec ∈ Spec.available,
      ((∃ out, (inspect s spec source).result = .ok out) ↔
        reached s source spec.stage = .ok ()) ∧
      (∀ e, (inspect s spec source).result = .error e ↔
        ∃ c, reached s source spec.stage = .error c ∧ e = .compile c) ∧
      (∀ c, (s.tokens source).result = .error c →
        (inspect s spec source).result = .error (.compile c)) ∧
      (∀ ts c, (s.tokens source).result = .ok ts → (s.parse source).result = .error c →
        (spec.stage = .token → ∃ out, (inspect s spec source).result = .ok out) ∧
        (spec.stage ≠ .token → (inspect s spec source).result = .error (.compile c))) ∧
      (∀ p, (s.parse source).result = .ok p →
        ∃ out, (inspect s spec source).result = .ok out) := by
  refine ⟨fun text spec => Spec.ofText_eq_ok_iff, fun text => ?_, fun spec h => ?_⟩
  · simp only [Spec.ofText_eq_ok_iff, List.mem_map]
  obtain ⟨hok, herror⟩ := ends_alike (outcome_inspect h s source)
  refine ⟨hok, herror, fun c hlex => ?_, fun ts c htokens hparse => ⟨?_, ?_⟩, fun p hparse => ?_⟩
  · exact (herror _).mpr ⟨c, reached_of_lex_error hlex spec.stage, rfl⟩
  · intro htoken
    have hreached := reached_of_parse_error htokens hparse spec.stage
    rw [if_pos htoken] at hreached
    exact hok.mpr hreached
  · intro hother
    have hreached := reached_of_parse_error htokens hparse spec.stage
    rw [if_neg hother] at hreached
    exact (herror _).mpr ⟨c, hreached, rfl⟩
  · exact hok.mpr (reached_of_parse hparse spec.stage)

/-- Of a call that is left open the tokens are shown, but no tree. -/
theorem an_open_call_is_shown_as_tokens_only :
    let tokens : Spec := ⟨.token, .json⟩
    let tree : Spec := ⟨.ast, .treeviz⟩
    let unclosed : CompileError := .parse (.unterminated "f")
    Spec.ofText "token-json" = .ok tokens ∧ Spec.ofText "ast-treeviz" = .ok tree ∧
    (({} : Settings).tokens "(f 1").result = .ok [.paren '(', .name "f", .number "1"] ∧
    (({} : Settings).parse "(f 1").result = .error unclosed ∧
    (∃ out, (inspect {} tokens "(f 1").result = .ok out) ∧
    (inspect {} tree "(f 1").result = .error (.compile unclosed) := by
  intro tokens tree unclosed
  have htokens : (({} : Settings).tokens "(f 1").result =
      .ok [.paren '(', .name "f", .number "1"] := rfl
  have hparse : (({} : Settings).parse "(f 1").result = .error unclosed := by
    have hread : (Source.parse defaultMaxDepth [.paren '(', .name "f", .number "1"]).result =
        .error (.unterminated "f") := by cbv
    rw [Settings.result_parse, htokens]
    exact congrArg (Except.mapError CompileError.parse) hread
  obtain ⟨hnamed, -, hinspect⟩ := inspect_agrees {} "(f 1"
  obtain ⟨-, -, -, hshown, -⟩ := hinspect tokens (by decide)
  obtain ⟨-, -, -, hrefused, -⟩ := hinspect tree (by decide)
  exact ⟨(hnamed _ _).mpr (by decide), (hnamed _ _).mpr (by decide), htokens, hparse,
    (hshown _ _ htokens hparse).1 rfl, (hrefused _ _ htokens hparse).2 (by decide)⟩

end Inspection

end CallForm
