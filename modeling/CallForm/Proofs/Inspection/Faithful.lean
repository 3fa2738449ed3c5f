/-
  CallForm.Proofs.Inspection.Faithful — what is shown of a text tells its tokens.

  Each form tells the product that it shows: a displayed token ends at its closing bracket
  (`displays_injective`), JSON is read back (`Json.Legible.pretty_injective`), YAML is told by
  its indentation (`Yaml.ofJson_injective`), as the trees of a text are made of words
  (`worded_json`). And each product tells the tokens: a source tree has them in it, and a target
  tree is what becomes of one source tree only. So two texts are shown alike exactly if they
  have the same tokens (`shown_alike_iff`).
-/

import CallForm.Proofs.Conversion.Inverse
import CallForm.Proofs.Inspection
import CallForm.Proofs.Source.Canonical
import CallForm.Proofs.Tagged.RoundTrip
import CallForm.Proofs.Yaml.Block

namespace CallForm

open Yaml (IsWord Worded)

/-! ## Words -/

theorem isWord_of_isName {s : String} (h : IsName s) : IsWord s :=
  ⟨h.1, fun c hc => decide_eq_true (.inl (h.2 c hc))⟩

theorem isWord_of_isNumber {s : String} (h : IsNumber s) : IsWord s :=
  ⟨h.1, fun c hc => decide_eq_true (.inr (.inr (h.2 c hc)))⟩

/-! ## Tokens in brackets -/

namespace Token

/-- A token as it is displayed, but for its closing bracket. -/
def stem (t : Token) : List Char := '<' :: (t.kind.toList ++ ':' :: t.spelling.toList)

theorem toList_display (t : Token) (rest : List Char) :
    t.display.toList ++ rest = t.stem ++ '>' :: rest := by
  simp [display, stem]

theorem stem_injective {t u : Token} (h : t.stem = u.stem) : t = u := by
  cases t <;> cases u <;> simp_all [stem, kind, spelling, String.toList_inj]

/-- No token of a text has a bracket in it. -/
theorem bracket_not_mem_stem {t : Token} (h : t.Lexed) : '>' ∉ t.stem := by
  have hword : ∀ {s : String}, IsWord s → '>' ∉ s.toList := fun hs hmem =>
    Yaml.ne_of_isWordChar (hs.2 _ hmem) rfl rfl
  have hspelling : '>' ∉ t.spelling.toList := by
    cases t with
    | paren c => rcases h with rfl | rfl <;> decide
    | name text => exact hword (isWord_of_isName h)
    | number digits => exact hword (isWord_of_isNumber h)
  have hkind : '>' ∉ t.kind.toList := by cases t <;> simp [kind]
  simp [stem, hkind, hspelling]

theorem displays_injective {ts us : List Token} (hts : ∀ t ∈ ts, t.Lexed)
    (hus : ∀ u ∈ us, u.Lexed)
    (h : ts.flatMap (·.display.toList) = us.flatMap (·.display.toList)) : ts = us := by
  induction ts generalizing us with
  | nil =>
    cases us with
    | nil => rfl
    | cons u us => simp [List.flatMap_cons, toList_display, stem] at h
  | cons t ts ih =>
    cases us with
    | nil => simp [List.flatMap_cons, toList_display, stem] at h
    | cons u us =>
      obtain ⟨ht, hts⟩ := List.forall_mem_cons.mp hts
      obtain ⟨hu, hus⟩ := List.forall_mem_cons.mp hus
      rw [List.flatMap_cons, List.flatMap_cons, toList_display, toList_display] at h
      obtain ⟨hfirst, hrest⟩ :=
        Text.before_cancels (bracket_not_mem_stem ht) (bracket_not_mem_stem hu) h
      rw [stem_injective hfirst, ih hts hus hrest]

end Token

/-! ## Trees of words -/

theorem worded_tagged {kind : String} {members : List (String × Json)} (hkind : IsWord kind)
    (h : ∀ m ∈ members, IsWord m.1 ∧ Worded m.2) : Worded (.tagged kind members) := by
  have hkey : IsWord "type" := by decide
  exact .object (List.forall_mem_cons.mpr ⟨hkey, fun m hm => (h m hm).1⟩)
    (List.forall_mem_cons.mpr ⟨.string hkind, fun m hm => (h m hm).2⟩)

/-- A kind with one field. -/
theorem worded_field {kind name : String} {v : Json} (hkind : IsWord kind) (hname : IsWord name)
    (hv : Worded v) : Worded (.tagged kind [(name, v)]) :=
  worded_tagged hkind (List.forall_mem_singleton.mpr ⟨hname, hv⟩)

/-- A kind with two fields. -/
theorem worded_fields {kind name other : String} {v w : Json} (hkind : IsWord kind)
    (hname : IsWord name) (hv : Worded v) (hother : IsWord other) (hw : Worded w) :
    Worded (.tagged kind [(name, v), (other, w)]) :=
  worded_tagged hkind
    (List.forall_mem_cons.mpr ⟨⟨hname, hv⟩, List.forall_mem_singleton.mpr ⟨hother, hw⟩⟩)

theorem worded_map {α : Type} {json : α → Json} {xs : List α} (h : ∀ x ∈ xs, Worded (json x)) :
    Worded (.array (xs.map json)) :=
  .array (List.forall_mem_map.mpr h)

theorem Source.Node.worded_json {q : Node} (h : ∀ m ∈ q.nodes, m.Lexical) : Worded q.json := by
  induction q using tree_induction with
  | program body _ => exact (h _ (mem_nodes_self _)).elim
  | string value => exact (h _ (mem_nodes_self _)).elim
  | number digits =>
    have hdigits : IsNumber digits := h _ (mem_nodes_self _)
    exact worded_field (by decide) (by decide) (.string (isWord_of_isNumber hdigits))
  | call name params ih =>
    obtain ⟨hname, hparams⟩ := forall_mem_nodes_call.mp h
    rw [json, jsons_eq_map]
    exact worded_fields (by decide) (by decide) (.string (isWord_of_isName hname)) (by decide)
      (worded_map fun q hq => ih q hq (hparams q hq))

theorem Source.Program.worded_json {p : Program} (h : ∀ q ∈ p.body, ∀ m ∈ q.nodes, m.Lexical) :
    Worded p.json := by
  rw [Program.json, Node.json, Node.jsons_eq_map]
  exact worded_field (by decide) (by decide) (worded_map fun q hq => Node.worded_json (h q hq))

theorem Target.worded_callJson {callee : String} (hcallee : IsWord callee) {arguments : List Node}
    (h : ∀ m ∈ arguments, Worded m.json) : Worded (callJson callee (Node.jsons arguments)) := by
  have hidentifier : Worded (identifierJson callee) :=
    worded_field (by decide) (by decide) (.string hcallee)
  rw [callJson, Node.jsons_eq_map]
  exact worded_fields (by decide) (by decide) hidentifier (by decide) (worded_map h)

theorem Source.Node.worded_json_argument {q : Node} (h : ∀ m ∈ q.nodes, m.Lexical) :
    Worded q.argument.json := by
  induction q using tree_induction with
  | program body _ => exact (h _ (mem_nodes_self _)).elim
  | string value => exact (h _ (mem_nodes_self _)).elim
  | number digits =>
    have hdigits : IsNumber digits := h _ (mem_nodes_self _)
    exact worded_field (by decide) (by decide) (.string (isWord_of_isNumber hdigits))
  | call name params ih =>
    obtain ⟨hname, hparams⟩ := forall_mem_nodes_call.mp h
    rw [argument, Target.Node.json, arguments_eq_map]
    exact Target.worded_callJson (isWord_of_isName hname)
      (List.forall_mem_map.mpr fun q hq => ih q hq (hparams q hq))

theorem Source.Node.worded_json_statement {q : Node} (h : ∀ m ∈ q.nodes, m.Lexical) :
    Worded q.statement.json := by
  cases q with
  | program body | string value | number digits => exact worded_json_argument h
  | call name params =>
    -- a statement is a call in one more object
    have hcall := worded_json_argument h
    rw [argument, Target.Node.json] at hcall
    exact worded_field (by decide) (by decide) hcall

theorem Target.Program.worded_json {body : List Source.Node}
    (h : ∀ q ∈ body, ∀ m ∈ q.nodes, m.Lexical) :
    Worded (⟨body.map Source.Node.statement⟩ : Program).json := by
  rw [Program.json, Node.json, Node.jsons_eq_map]
  refine worded_field (by decide) (by decide) (worded_map ?_)
  exact List.forall_mem_map.mpr fun q hq => Source.Node.worded_json_statement (h q hq)

/-! ## Products and tokens -/

theorem Source.Program.json_injective {p q : Program} (h : p.json = q.json) : p = q := by
  have hq : Tagged.sourceDialect.Writes p.json (.program q.body) :=
    h ▸ (Node.program q.body).writes_json
  have hnode := (Node.program p.body).writes_json.unique Tagged.sourceDialect_lawful hq
  cases p
  cases q
  cases hnode
  rfl

theorem Target.Program.json_injective {t u : Program} (h : t.json = u.json) : t = u := by
  have hu : Tagged.targetDialect.Writes t.json (.program u.body) :=
    h ▸ (Node.program u.body).writes_json
  have hnode := (Node.program t.body).writes_json.unique Tagged.targetDialect_lawful hu
  cases t
  cases u
  cases hnode
  rfl

section

variable {s : Settings} {a b source : String}

theorem lexical_of_parse {p : Source.Program} (h : (s.parse source).result = .ok p) :
    ∀ q ∈ p.body, ∀ m ∈ q.nodes, m.Lexical := by
  obtain ⟨hbody, hflat⟩ := Source.readAll_eq_ok_iff.mp
    (Source.result_parse_eq_ok.mp (parse_of_result h))
  exact Source.lexical_of_tokens hbody hflat

/-- A source tree has the tokens it was read from. -/
theorem same_source_iff {p q : Source.Program} (ha : (s.parse a).result = .ok p)
    (hb : (s.parse b).result = .ok q) : p = q ↔ tokens a = tokens b := by
  have hp := parse_of_result ha
  have hq := parse_of_result hb
  constructor
  · rintro rfl
    obtain ⟨-, hflat⟩ := Source.readAll_eq_ok_iff.mp (Source.result_parse_eq_ok.mp hp)
    obtain ⟨-, hflat'⟩ := Source.readAll_eq_ok_iff.mp (Source.result_parse_eq_ok.mp hq)
    rw [hflat, hflat']
  · intro h
    rw [h, hq] at hp
    exact (Except.ok.inj hp).symm

theorem exists_source_of_convert {t : Target.Program} (h : (s.convert source).result = .ok t) :
    ∃ p, (s.parse source).result = .ok p ∧ t = ⟨p.body.map Source.Node.statement⟩ := by
  rw [Settings.result_convert] at h
  obtain ⟨p, hparse, hconvert⟩ := bind_eq_ok.mp h
  refine ⟨p, hparse, ?_⟩
  rw [mapError_eq_ok, Conversion.result_convert] at hconvert
  split at hconvert
  · exact (Except.ok.inj hconvert).symm
  · cases hconvert

/-- A target tree is what becomes of one source tree only. -/
theorem same_target_iff {t u : Target.Program} (ha : (s.convert a).result = .ok t)
    (hb : (s.convert b).result = .ok u) : t = u ↔ tokens a = tokens b := by
  obtain ⟨p, hp, rfl⟩ := exists_source_of_convert ha
  obtain ⟨q, hq, rfl⟩ := exists_source_of_convert hb
  rw [← same_source_iff hp hq]
  constructor
  · intro h
    rw [← Conversion.erased_map_statement p, h, Conversion.erased_map_statement]
  · rintro rfl
    rfl

end

/-! ## Inspections -/

namespace Inspection

/-- The specs that show a product in writing, not as a drawing or as the code. -/
def Spec.serial : List Spec :=
  [⟨.token, .simple⟩, ⟨.token, .json⟩, ⟨.ast, .json⟩, ⟨.ast, .yaml⟩, ⟨.target, .json⟩,
   ⟨.target, .yaml⟩]

theorem exists_of_shown {α : Type} {x : Except CompileError α}
    {form : α → Except InspectError String} {out : String}
    (h : x.mapError .compile >>= form = .ok out) :
    ∃ product, x = .ok product ∧ form product = .ok out := by
  obtain ⟨product, hproduct, hform⟩ := bind_eq_ok.mp h
  exact ⟨product, mapError_eq_ok.mp hproduct, hform⟩

/-- What is shown is the same for the same product, and tells it. -/
theorem shown_iff {α : Type} {form : α → Except InspectError String} {x y : α} {out out' : String}
    (hx : form x = .ok out) (hy : form y = .ok out') (hinjective : out = out' → x = y) :
    out = out' ↔ x = y := by
  refine ⟨hinjective, ?_⟩
  rintro rfl
  exact Except.ok.inj (hx.symm.trans hy)

theorem tokens_shown_iff {format : Format} (h : ⟨.token, format⟩ ∈ Spec.serial) {a b : String}
    {out out' : String} (ha : tokensIn format (tokens a) = .ok out)
    (hb : tokensIn format (tokens b) = .ok out') : out = out' ↔ tokens a = tokens b := by
  refine shown_iff ha hb ?_
  rintro rfl
  cases format with
  | yaml | treeviz | text => exact absurd h (by decide)
  | simple =>
    have hlexed : ∀ source, ∀ t ∈ tokens source, t.Lexed := fun source t ht =>
      lexed_of_mem_toks (tokens_eq_toks source ▸ ht)
    have htext := congrArg String.toList (Except.ok.inj (ha.trans hb.symm))
    rw [String.toList_join, String.toList_join, List.flatMap_map, List.flatMap_map] at htext
    exact Token.displays_injective (hlexed a) (hlexed b) htext
  | json =>
    have hread : ∀ ts : List Token,
        Tagged.tokensOfText (Json.array (ts.map Token.json)).pretty = .ok ts := fun ts =>
      Tagged.tokensOfText_jsons (.inr rfl)
    have htokens := congrArg Tagged.tokensOfText (Except.ok.inj (ha.trans hb.symm))
    rw [hread, hread] at htokens
    exact Except.ok.inj htokens

theorem source_shown_iff {format : Format} (h : ⟨.ast, format⟩ ∈ Spec.serial)
    {p q : Source.Program} (hp : Worded p.json) (hq : Worded q.json) {out out' : String}
    (ha : sourceIn format p = .ok out) (hb : sourceIn format q = .ok out') :
    out = out' ↔ p = q := by
  refine shown_iff ha hb ?_
  rintro rfl
  apply Source.Program.json_injective
  cases format with
  | simple | treeviz | text => exact absurd h (by decide)
  | yaml => exact Yaml.ofJson_injective hp hq (Except.ok.inj (ha.trans hb.symm))
  | json =>
    have hlegible := fun p : Source.Program => (Source.Node.program p.body).writes_json.legible
    exact (hlegible p).pretty_injective (hlegible q) (Except.ok.inj (ha.trans hb.symm))

theorem target_shown_iff {format : Format} (h : ⟨.target, format⟩ ∈ Spec.serial)
    {t u : Target.Program} (ht : Worded t.json) (hu : Worded u.json) {out out' : String}
    (ha : targetIn format t = .ok out) (hb : targetIn format u = .ok out') :
    out = out' ↔ t = u := by
  refine shown_iff ha hb ?_
  rintro rfl
  apply Target.Program.json_injective
  cases format with
  | simple | treeviz | text => exact absurd h (by decide)
  | yaml => exact Yaml.ofJson_injective ht hu (Except.ok.inj (ha.trans hb.symm))
  | json =>
    have hlegible := fun t : Target.Program => (Target.Node.program t.body).writes_json.legible
    exact (hlegible t).pretty_injective (hlegible u) (Except.ok.inj (ha.trans hb.symm))

/-- What is written of two texts is the same exactly if they have the same tokens: every stage
    and every form tells them, where it has something to show. -/
theorem shown_alike_iff {s : Settings} {spec : Spec} (hspec : spec ∈ Spec.serial)
    {a b out out' : String} (ha : (inspect s spec a).result = .ok out)
    (hb : (inspect s spec b).result = .ok out') : out = out' ↔ tokens a = tokens b := by
  obtain ⟨stage, format⟩ := spec
  rw [result_inspect] at ha hb
  cases stage with
  | code => exact absurd hspec (by cases format <;> decide)
  | token =>
    obtain ⟨ts, hts, hshown⟩ := exists_of_shown ha
    obtain ⟨us, hus, hshown'⟩ := exists_of_shown hb
    obtain rfl := tokens_of_result hts
    obtain rfl := tokens_of_result hus
    exact tokens_shown_iff hspec hshown hshown'
  | ast =>
    obtain ⟨p, hp, hshown⟩ := exists_of_shown ha
    obtain ⟨q, hq, hshown'⟩ := exists_of_shown hb
    rw [← same_source_iff hp hq]
    exact source_shown_iff hspec (Source.Program.worded_json (lexical_of_parse hp))
      (Source.Program.worded_json (lexical_of_parse hq)) hshown hshown'
  | target =>
    obtain ⟨t, ht, hshown⟩ := exists_of_shown ha
    obtain ⟨u, hu, hshown'⟩ := exists_of_shown hb
    rw [← same_target_iff ht hu]
    obtain ⟨p, hp, rfl⟩ := exists_source_of_convert ht
    obtain ⟨q, hq, rfl⟩ := exists_source_of_convert hu
    exact target_shown_iff hspec (Target.Program.worded_json (lexical_of_parse hp))
      (Target.Program.worded_json (lexical_of_parse hq)) hshown hshown'

/-- A keyword and a padded number stand between quotes, whatever blanks are between them in the
    text; without the padding something else is shown. -/
theorem a_keyword_and_a_padded_number_are_shown :
    let spec : Spec := ⟨.ast, .yaml⟩
    let out := "type: Program\nbody:\n- type: CallExpression\n  name: 'null'\n  params:\n" ++
      "  - type: NumberLiteral\n    value: '007'\n" ++
      "  - type: CallExpression\n    name: f\n    params: []\n"
    spec ∈ Spec.serial ∧ (inspect {} spec "(null 007 (f))").result = .ok out ∧
      (inspect {} spec "( null\n007(f) )").result = .ok out ∧
      tokens "(null 007 (f))" = tokens "( null\n007(f) )" ∧
      ∃ other, (inspect {} spec "(null 7 (f))").result = .ok other ∧ out ≠ other := by
  intro spec out
  have hspec : spec ∈ Spec.serial := by decide
  have hshown : (inspect {} spec "(null 007 (f))").result = .ok out := by decide +kernel
  have hspread : (inspect {} spec "( null\n007(f) )").result = .ok out := by decide +kernel
  have hplain : (inspect {} spec "(null 7 (f))").result =
      .ok (Yaml.ofJson (Source.Node.program [.call "null" [.number "7", .call "f" []]]).json) := by
    decide +kernel
  have htokens : tokens "(null 007 (f))" ≠ tokens "(null 7 (f))" := by decide
  refine ⟨hspec, hshown, hspread, (shown_alike_iff hspec hshown hspread).mp rfl, _, hplain, ?_⟩
  exact fun h => htokens ((shown_alike_iff hspec hshown hplain).mp h)

end Inspection

end CallForm
