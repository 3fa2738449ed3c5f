/-
  CallForm.Proofs.Token.Agreement — the lexers agree.

  Read from the front, a run is one lexeme up to its end, with the same lexemes behind it
  (`scan_run_cons`). So the lexemes among the pieces of a text are the lexemes of the text
  (`filterMap_lexeme_scan`), the first stray among them is its first stray
  (`findSome_stray_scan`), and the loops over the pieces answer as the lexers do
  (`keptTokens_eq`, `gatheredLexemes_eq`). The policies then differ only where there is a stray,
  and a stray keeps the tokens around it apart as blanks do (`lexers_agree`).
-/

import CallForm.Proofs.Token.Spans
import CallForm.Token.Stream

namespace CallForm

namespace Piece

variable {k : CharClass}

/-! ## One run at the front -/

theorem of_mem_run {cs : List Char} {d : Char} (h : d ∈ run k cs) : CharClass.of d = k := by
  have hall : (run k cs).all (CharClass.of · == k) = true := List.all_takeWhile
  simpa using List.all_eq_true.mp hall d h

theorem of_mem_run_cons {c : Char} {cs : List Char} (hc : CharClass.of c = k) :
    ∀ d ∈ c :: run k cs, CharClass.of d = k :=
  List.forall_mem_cons.mpr ⟨hc, fun _ hd => of_mem_run hd⟩

theorem not_joins_afterRun (cs : List Char) {as : List Char} (has : ∀ a ∈ as, CharClass.of a = k) :
    ¬ Lexeme.Joins as (afterRun k cs) := by
  rintro ⟨a, ha, -, d, hd, hclass⟩
  have hnot := List.head?_dropWhile_not (CharClass.of · == k) cs
  rw [← afterRun, Option.mem_def.mp hd] at hnot
  rw [has a (List.mem_of_getLast? ha)] at hclass
  simp [hclass] at hnot

/-- A run and what stands behind it. -/
theorem scan_run_cons (hk : k.isRun = true) {c : Char} (hc : CharClass.of c = k) (start : Nat)
    (cs : List Char) :
    let text := String.ofList (c :: run k cs)
    Lexeme.scan start (c :: cs) =
      ⟨k.token text, start, start + text.utf8ByteSize⟩ ::
        Lexeme.scan (start + text.utf8ByteSize) (afterRun k cs) := by
  intro text
  have hsplit : c :: cs = (c :: run k cs) ++ afterRun k cs := by
    rw [List.cons_append, run_append_afterRun]
  have hclass : ∀ d ∈ c :: run k cs, CharClass.of d = k := of_mem_run_cons hc
  have hwidth : text.utf8ByteSize = width (c :: run k cs) := by
    rw [utf8ByteSize_eq_width, String.toList_ofList]
  rw [hsplit, Lexeme.scan_append (not_joins_afterRun cs hclass),
    scan_run hk (List.cons_ne_nil _ _) hclass, hwidth]
  rfl

/-- No stray stands in a run. -/
theorem find_isStray_run_cons (hk : k.isRun = true) {c : Char} (hc : CharClass.of c = k)
    (cs : List Char) : (c :: cs).find? isStray = (afterRun k cs).find? isStray := by
  have hnone : (c :: run k cs).find? isStray = none := by
    refine List.find?_eq_none.mpr fun d hd hstray => ?_
    rw [isStray, of_mem_run_cons hc d hd] at hstray
    rw [eq_of_beq hstray] at hk
    cases hk
  have hsplit : c :: cs = (c :: run k cs) ++ afterRun k cs := by
    rw [List.cons_append, run_append_afterRun]
  rw [hsplit, List.find?_append, hnone, Option.none_or]

/-! ## The pieces of a text -/

theorem filterMap_lexeme_scan (start : Nat) (cs : List Char) :
    (scan start cs).filterMap lexeme? = Lexeme.scan start cs := by
  fun_induction scan start cs with
  | case1 start => rfl
  | case2 start c cs next hc ih =>
    simp only [List.filterMap_cons, lexeme?, ih, Lexeme.scan_cons, Lexeme.attach, hc, next]
  | case3 start c cs hc name stop ih =>
    simp only [List.filterMap_cons, lexeme?, ih, scan_run_cons rfl hc, CharClass.token, name, stop]
  | case4 start c cs hc digits stop ih =>
    simp only [List.filterMap_cons, lexeme?, ih, scan_run_cons rfl hc, CharClass.token, digits,
      stop]
  | case5 start c cs next hc ih =>
    rw [ih, Lexeme.scan_cons, Lexeme.attach_gap (by rw [hc]; rfl)]
  | case6 start c cs next hc ih =>
    rw [Lexeme.scan_cons, Lexeme.attach_gap (by rw [hc]; rfl)]
    simp only [List.filterMap_cons, lexeme?, ih, next]

theorem findSome_stray_scan (start : Nat) (cs : List Char) :
    ((scan start cs).findSome? stray?).map (·.char) = cs.find? isStray := by
  fun_induction scan start cs with
  | case1 start => rfl
  | case2 start c cs next hc ih =>
    rw [List.find?_cons_of_neg (by simp [isStray, hc])]
    simp only [List.findSome?_cons, stray?, ih]
  | case3 start c cs hc name stop ih =>
    rw [find_isStray_run_cons rfl hc]
    simp only [List.findSome?_cons, stray?, ih]
  | case4 start c cs hc digits stop ih =>
    rw [find_isStray_run_cons rfl hc]
    simp only [List.findSome?_cons, stray?, ih]
  | case5 start c cs next hc ih =>
    rw [ih, List.find?_cons_of_neg (by simp [isStray, hc])]
  | case6 start c cs next hc ih =>
    rw [List.find?_cons_of_pos (by simp [isStray, hc])]
    simp only [List.findSome?_cons, stray?, Option.map_some]

/-! ## The loops over the pieces -/

theorem gather_skip (found : List Lexeme) (ps : List Piece) :
    gather .skip found ps = .ok (found ++ ps.filterMap lexeme?) := by
  induction ps generalizing found with
  | nil => simp [gather]
  | cons p ps ih =>
    cases p with
    | lexeme x => simp only [gather, ih, List.filterMap_cons, lexeme?, List.append_assoc,
        List.singleton_append]
    | stray x => simp only [gather, ih, List.filterMap_cons, lexeme?]

theorem gather_reject (found : List Lexeme) (ps : List Piece) :
    gather .reject found ps =
      match (ps.findSome? stray?).map (·.char) with
      | some c => .error (.unrecognized c)
      | none => .ok (found ++ ps.filterMap lexeme?) := by
  induction ps generalizing found with
  | nil => simp [gather]
  | cons p ps ih =>
    cases p with
    | lexeme x => simp only [gather, ih, List.filterMap_cons, List.findSome?_cons, lexeme?, stray?,
        List.append_assoc, List.singleton_append]
    | stray x => simp only [gather, List.findSome?_cons, stray?, Option.map_some]

end Piece

theorem keptTokens_eq (source : String) : keptTokens source = tokens source := by
  have htoken : Piece.token? = fun p => p.lexeme?.map (·.token) := by
    funext p
    cases p <;> rfl
  rw [keptTokens, htoken, ← List.map_filterMap, Piece.filterMap_lexeme_scan, tokens]

theorem gatheredLexemes_eq (policy : StrayPolicy) (source : String) :
    gatheredLexemes policy source = lexemes policy source := by
  cases policy with
  | skip => rw [gatheredLexemes, Piece.gather_skip, Piece.filterMap_lexeme_scan]; rfl
  | reject =>
    rw [gatheredLexemes, Piece.gather_reject, Piece.findSome_stray_scan,
      Piece.filterMap_lexeme_scan]
    rfl

/-! ## The lexers under both policies -/

/-- The tokens around a character that is in no token are those around blanks in its place. -/
theorem tokens_replaced {c : Char} (hc : ¬ Significant c) {blanks : String} (hne : blanks ≠ "")
    (hblanks : ∀ b ∈ blanks.toList, Text.isBlank b = true) (before after : String) :
    tokens (before ++ blanks ++ after) = tokens (before ++ String.singleton c ++ after) := by
  have hgap : ∀ d ∈ [c], (CharClass.of d).isGap = true := by
    refine List.forall_mem_singleton.mpr ?_
    rwa [← isGap_eq_false_iff, Bool.not_eq_false] at hc
  have hgaps : ∀ b ∈ blanks.toList, (CharClass.of b).isGap = true := fun b hb =>
    isGap_of_isBlank (hblanks b hb)
  simp only [tokens_eq_toks, String.toList_append, String.toList_singleton, List.append_assoc]
  rw [toks_around_gap (by simpa using hne) hgaps, toks_around_gap (List.cons_ne_nil _ _) hgap]

/-- What the lexers have in common on a text. -/
structure LexersAgree (source : String) : Prop where
  /-- Read from the front, with strays dropped or asked about, the text gives the same. -/
  loops : keptTokens source = tokens source ∧
    ∀ policy, gatheredLexemes policy source = lexemes policy source
  /-- Skipping strays never fails, and leaves the same tokens with and without spans. -/
  skip : (lex .skip source).result = .ok (tokens source) ∧
    ∃ xs, lexemes .skip source = .ok xs ∧ xs.map (·.token) = tokens source
  /-- Refusing strays succeeds exactly on texts of the alphabet. -/
  reject : ((∃ ts, (lex .reject source).result = .ok ts) ↔ ∀ c ∈ source.toList, InAlphabet c) ∧
    ((∃ xs, lexemes .reject source = .ok xs) ↔ ∀ c ∈ source.toList, InAlphabet c)
  /-- Where it succeeds, the answers are those of skipping, spans included. -/
  clean : (∀ c ∈ source.toList, InAlphabet c) →
    (lex .reject source).result = .ok (tokens source) ∧
      lexemes .reject source = lexemes .skip source
  /-- Where it fails, the error is for the first stray. -/
  refused : (¬ ∀ c ∈ source.toList, InAlphabet c) → ∃ c, FirstStray source c ∧
    (lex .reject source).result = .error (.unrecognized c) ∧
    lexemes .reject source = .error (.unrecognized c)
  /-- A character that is in no token may give way to blanks. -/
  replaced : ∀ before c after blanks, source = before ++ String.singleton c ++ after →
    ¬ Significant c → blanks ≠ "" → (∀ b ∈ blanks.toList, Text.isBlank b = true) →
    tokens (before ++ blanks ++ after) = tokens source

/-- A lexer that succeeds on the texts of the alphabet and fails on others succeeds on those. -/
theorem succeeds_iff {α : Type} {answer : Except LexError α} {clean : Prop}
    (hok : clean → ∃ a, answer = .ok a) (herror : ¬ clean → ∃ e, answer = .error e) :
    (∃ a, answer = .ok a) ↔ clean := by
  refine ⟨?_, hok⟩
  rintro ⟨a, ha⟩
  by_contra hnot
  obtain ⟨e, he⟩ := herror hnot
  rw [he] at ha
  cases ha

/-- Under either policy the lexers give the same tokens, unless strays are refused and there is
    one: then all that can fail do, with the first. -/
theorem lexers_agree (source : String) : LexersAgree source := by
  have hskip : Admits .skip source := nofun
  have hclean : (∀ c ∈ source.toList, InAlphabet c) → Admits .reject source := fun h _ => h
  have hrefused : (¬ ∀ c ∈ source.toList, InAlphabet c) → ∃ c, FirstStray source c := fun h =>
    (@exists_firstStray .reject source fun hadmits => h (hadmits rfl)).2
  constructor
  case loops => exact ⟨keptTokens_eq source, fun policy => gatheredLexemes_eq policy source⟩
  case skip => exact ⟨result_lex_of_admits hskip, _, lexemes_of_admits hskip, rfl⟩
  case reject =>
    constructor
    · refine succeeds_iff (fun h => ⟨_, result_lex_of_admits (hclean h)⟩) fun h => ?_
      obtain ⟨c, hc⟩ := hrefused h
      exact ⟨_, result_lex_of_firstStray hc⟩
    · refine succeeds_iff (fun h => ⟨_, lexemes_of_admits (hclean h)⟩) fun h => ?_
      obtain ⟨c, hc⟩ := hrefused h
      exact ⟨_, lexemes_of_firstStray hc⟩
  case clean =>
    intro h
    exact ⟨result_lex_of_admits (hclean h), lexemes_of_admits (hclean h)⟩
  case refused =>
    intro h
    obtain ⟨c, hc⟩ := hrefused h
    exact ⟨c, hc, result_lex_of_firstStray hc, lexemes_of_firstStray hc⟩
  case replaced =>
    rintro before c after blanks rfl hc hne hblanks
    exact tokens_replaced hc hne hblanks before after

/-- A dash shares its first two bytes with a wide blank. It ends the name before it as such a
    blank would, and is refused as a whole. -/
theorem a_dash_parts_names_as_a_wide_blank_does :
    tokens "ab—cd12" = [.name "ab", .name "cd", .number "12"] ∧
      tokens "ab\u2003\u2005cd12" = tokens "ab—cd12" ∧
      lexemes .reject "ab—cd12" = .error (.unrecognized '—') ∧
      (∀ c ∈ "ab\u2003cd12".toList, InAlphabet c) ∧
      lexemes .reject "ab\u2003cd12" = lexemes .skip "ab\u2003cd12" := by
  obtain ⟨-, -, -, -, hrefused, hreplaced⟩ := lexers_agree "ab—cd12"
  have hdash : FirstStray "ab—cd12" '—' := firstStray_iff.mpr (by decide)
  have hstray : ¬ ∀ c ∈ "ab—cd12".toList, InAlphabet c := fun h =>
    absurd (h '—' (by decide)) (isStray_eq_true_iff.mp (by decide))
  obtain ⟨c, hfirst, -, hlexemes⟩ := hrefused hstray
  obtain rfl : c = '—' :=
    Option.some.inj ((firstStray_iff.mp hfirst).symm.trans (firstStray_iff.mp hdash))
  have hblank : tokens ("ab" ++ "\u2003\u2005" ++ "cd12") = tokens "ab—cd12" :=
    hreplaced "ab" '—' "cd12" "\u2003\u2005" rfl
      (fun h => absurd (isGap_eq_false_iff.mpr h) (by decide)) (by decide)
      (List.all_eq_true.mp (by decide))
  have halphabet : ∀ c ∈ "ab\u2003cd12".toList, InAlphabet c :=
    (by decide : Admits .reject "ab\u2003cd12") rfl
  have hclean := (lexers_agree "ab\u2003cd12").clean halphabet
  exact ⟨by decide, hblank, hlexemes, halphabet, hclean.2⟩

end CallForm
