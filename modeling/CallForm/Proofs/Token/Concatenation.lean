/-
  CallForm.Proofs.Token.Concatenation — the lexemes of two texts put together.

  A run that ends the first text and goes on in the second is read as one lexeme, over the bytes
  of both; all other lexemes stay as they are, those of the second text further on
  (`scan_append_run`). If no run goes on, all stay (`Lexeme.scan_append`). So tokens written one
  behind the other are read back unless two names or two numbers stand side by side
  (`toks_spelled_iff`), and with blanks between them they always are (`Spaced.tokens_eq`).
-/

import Mathlib.Data.List.DropRight
import CallForm.Proofs.Token.Agreement

namespace CallForm

/-- The last character of `a` and the first of `b` both lie between `low` and `high`. -/
def Across (low high : Char) (a b : String) : Prop :=
  ∃ c ∈ a.toList.getLast?, ∃ d ∈ b.toList.head?, (low ≤ c ∧ c ≤ high) ∧ low ≤ d ∧ d ≤ high

/-- The last of the lexemes `xs` and the first of `ys`, both of this kind, are one in `zs`, with
    the text and the bytes of both; the others are the same. -/
def Fused (kind : String → Token) (xs ys zs : List Lexeme) : Prop :=
  ∃ before s i j t l after, xs = before ++ [⟨kind s, i, j⟩] ∧ ys = ⟨kind t, j, l⟩ :: after ∧
    zs = before ++ ⟨kind (s ++ t), i, l⟩ :: after

namespace Token

/-- Two names or two numbers. -/
def Alike : Token → Token → Prop
  | .name _, .name _ => True
  | .number _, .number _ => True
  | _, _ => False

/-- A text of these tokens with blanks between each two. -/
inductive Spaced : List Token → String → Prop where
  | nil : Spaced [] ""
  | single (t : Token) : Spaced [t] t.spelling
  | cons (t : Token) {gap : String} {u : Token} {ts : List Token} {text : String} :
    gap ≠ "" → (∀ c ∈ gap.toList, Text.isBlank c = true) → Spaced (u :: ts) text →
      Spaced (t :: u :: ts) (t.spelling ++ gap ++ text)

end Token

namespace Lexeme

/-! ## Across the cut -/

/-- A text and the run of a class at its end. -/
theorem exists_lastRun (k : CharClass) (a : List Char) :
    ∃ front run, a = front ++ run ∧ (∀ c ∈ run, CharClass.of c = k) ∧
      ∀ c ∈ front.getLast?, CharClass.of c ≠ k := by
  refine ⟨a.rdropWhile (CharClass.of · == k), a.rtakeWhile (CharClass.of · == k),
    List.rdropWhile_append_rtakeWhile.symm, fun c hc => ?_, fun c hc => ?_⟩
  · simpa using List.mem_rtakeWhile_imp hc
  · obtain ⟨hne, rfl⟩ := List.mem_getLast?_eq_getLast hc
    simpa using List.rdropWhile_last_not (CharClass.of · == k) a hne

theorem not_joins_of_ne {k : CharClass} {a b : List Char}
    (ha : ∀ c ∈ a.getLast?, CharClass.of c ≠ k) (hb : ∀ d ∈ b.head?, CharClass.of d = k) :
    ¬ Joins a b := by
  rintro ⟨c, hc, -, d, hd, hclass⟩
  exact ha c hc (hclass.symm.trans (hb d hd))

/-- A run that goes on across the cut is one lexeme. -/
theorem scan_append_run {k : CharClass} (hk : k.isRun = true) {a b : List Char}
    (ha : ∃ c ∈ a.getLast?, CharClass.of c = k) (hb : ∃ d ∈ b.head?, CharClass.of d = k)
    (start : Nat) :
    Fused k.token (scan start a) (scan (start + width a) b) (scan start (a ++ b)) := by
  obtain ⟨front, run, rfl, hrun, hfront⟩ := exists_lastRun k a
  have hrunne : run ≠ [] := by
    rintro rfl
    obtain ⟨c, hc, hclass⟩ := ha
    rw [List.append_nil] at hc
    exact hfront c hc hclass
  obtain ⟨d, hd, hclass⟩ := hb
  obtain ⟨b, rfl⟩ : ∃ rest, b = d :: rest := ⟨_, List.eq_cons_of_mem_head? hd⟩
  have hleft : ∀ cs, ¬ Joins front (run ++ cs) := fun cs =>
    not_joins_of_ne hfront fun c hc => by
      obtain ⟨e, es, rfl⟩ := List.exists_cons_of_ne_nil hrunne
      obtain rfl : e = c := by simpa using hc
      exact hrun e List.mem_cons_self
  have hmore : ∀ c ∈ d :: Piece.run k b, CharClass.of c = k := Piece.of_mem_run_cons hclass
  have hboth : ∀ c ∈ run ++ d :: Piece.run k b, CharClass.of c = k :=
    List.forall_mem_append.mpr ⟨hrun, hmore⟩
  have hsplit : d :: b = (d :: Piece.run k b) ++ Piece.afterRun k b := by
    rw [List.cons_append, Piece.run_append_afterRun]
  have hright {as : List Char} (has : ∀ c ∈ as, CharClass.of c = k) :
      ¬ Joins as (Piece.afterRun k b) := Piece.not_joins_afterRun b has
  refine ⟨scan start front, String.ofList run, start + width front,
    start + width front + width run, String.ofList (d :: Piece.run k b),
    start + width front + width (run ++ d :: Piece.run k b),
    scan (start + width front + width (run ++ d :: Piece.run k b)) (Piece.afterRun k b),
    ?_, ?_, ?_⟩
  · have hcut := hleft []
    rw [List.append_nil] at hcut
    rw [scan_append hcut, scan_run hk hrunne hrun]
  · rw [hsplit, scan_append (hright hmore), scan_run hk (List.cons_ne_nil _ _) hmore,
      width_append, width_append]
    simp only [List.singleton_append, Nat.add_assoc]
  · have hwhole : front ++ run ++ d :: b =
        front ++ ((run ++ d :: Piece.run k b) ++ Piece.afterRun k b) := by
      rw [hsplit, List.append_assoc, List.append_assoc]
    have hcut := hleft (d :: Piece.run k b ++ Piece.afterRun k b)
    rw [← List.append_assoc] at hcut
    rw [hwhole, scan_append hcut, scan_append (hright hboth),
      scan_run hk (by simp [hrunne]) hboth, String.ofList_append]
    rfl

end Lexeme

/-! ## Tokens written one behind the other -/

namespace Token

/-- A token is read back from its text. -/
theorem toks_spelling {t : Token} (h : t.Lexed) : toks t.spelling.toList = [t] := by
  have hnil {k : CharClass} : ∀ d ∈ ([] : List Char).head?, CharClass.of d ≠ k := by simp
  cases t with
  | paren c =>
    have hspelling : (paren c).spelling.toList = [c] := String.toList_singleton c
    rw [hspelling, toks_paren h]
    rfl
  | name text =>
    have hread := toks_name h hnil
    rwa [List.append_nil] at hread
  | number digits =>
    have hread := toks_number h hnil
    rwa [List.append_nil] at hread

/-- The tokens that some text has. -/
theorem lexed_iff {t : Token} : t.Lexed ↔ ∃ source, t ∈ tokens source := by
  constructor
  · intro h
    refine ⟨t.spelling, ?_⟩
    rw [tokens_eq_toks, toks_spelling h]
    exact List.mem_cons_self
  · rintro ⟨source, h⟩
    exact lexed_of_mem_toks h

theorem alike_iff {t u : Token} :
    t.Alike u ↔ t.charClass.isRun = true ∧ u.charClass = t.charClass := by
  cases t <;> cases u <;> simp [Alike, charClass, CharClass.isRun]

theorem exists_first {t : Token} (h : t.Lexed) :
    ∃ c ∈ t.spelling.toList.head?, CharClass.of c = t.charClass := by
  obtain ⟨c, cs, hcs⟩ := List.exists_cons_of_ne_nil (spelling_ne_nil h)
  exact ⟨c, by simp [hcs], of_mem_spelling h c (by simp [hcs])⟩

theorem exists_last {t : Token} (h : t.Lexed) :
    ∃ c ∈ t.spelling.toList.getLast?, CharClass.of c = t.charClass := by
  have hlast := List.getLast?_eq_some_getLast (spelling_ne_nil h)
  exact ⟨_, hlast, of_mem_spelling h _ (List.mem_of_getLast? hlast)⟩

theorem joins_iff_alike {t u : Token} (ht : t.Lexed) (hu : u.Lexed) (rest : List Char) :
    Lexeme.Joins t.spelling.toList (u.spelling.toList ++ rest) ↔ t.Alike u := by
  obtain ⟨c, hc, hcclass⟩ := exists_last ht
  obtain ⟨d, hd, hdclass⟩ := exists_first hu
  have hhead : (u.spelling.toList ++ rest).head? = some d := by
    rw [List.head?_append, Option.mem_def.mp hd, Option.some_or]
  simp only [Lexeme.Joins, Option.mem_def.mp hc, hhead, Option.mem_some_iff, exists_eq_left']
  rw [alike_iff, hcclass, hdclass]

end Token

/-- Behind a token that does not go on in the text stand the tokens of the text. -/
theorem toks_spelling_append {t : Token} (ht : t.Lexed) {cs : List Char}
    (h : ¬ Lexeme.Joins t.spelling.toList cs) :
    toks (t.spelling.toList ++ cs) = t :: toks cs := by
  rw [toks_append h, Token.toks_spelling ht, List.singleton_append]

@[simp] theorem spelling_token (k : CharClass) (s : String) : (k.token s).spelling = s := by
  cases k <;> rfl

/-- A token that goes on in the text is not read back. -/
theorem toks_spelling_append_ne {t : Token} (ht : t.Lexed) {cs : List Char}
    (h : Lexeme.Joins t.spelling.toList cs) (ts : List Token) :
    toks (t.spelling.toList ++ cs) ≠ t :: ts := by
  obtain ⟨c, hc, hrun, d, hd, hclass⟩ := h
  obtain ⟨before, s, i, j, more, l, after, hleft, hright, hboth⟩ :=
    Lexeme.scan_append_run hrun ⟨c, hc, rfl⟩ ⟨d, hd, hclass⟩ 0
  have hsingle : [t] = before.map (·.token) ++ [(CharClass.of c).token s] := by
    rw [← Token.toks_spelling ht, toks, hleft, List.map_append, List.map_singleton]
  obtain ⟨hbefore, rfl⟩ : before = [] ∧ t = (CharClass.of c).token s := by
    cases before with
    | nil => simpa using hsingle
    | cons x xs => simp at hsingle
  subst hbefore
  -- the token that is read has the characters of `more` too
  have hmore : ((CharClass.of c).token more).Lexed :=
    lexed_of_mem_scan cs _ _ (hright ▸ List.mem_cons_self)
  intro heq
  rw [toks, hboth] at heq
  have hlonger : s ++ more = s := by
    simpa only [spelling_token] using congrArg Token.spelling (List.cons.inj heq).1
  have hspelling := Token.spelling_ne_nil hmore
  rw [spelling_token] at hspelling
  exact hspelling (by simpa using hlonger)

/-- Tokens are read back from their texts in a row unless two that are alike stand side by
    side. -/
theorem toks_spelled_iff {ts : List Token} (h : ∀ t ∈ ts, t.Lexed) :
    toks (ts.flatMap (·.spelling.toList)) = ts ↔ ts.IsChain fun t u => ¬ t.Alike u := by
  induction ts with
  | nil => simp [toks]
  | cons t ts ih =>
    obtain ⟨ht, hts⟩ := List.forall_mem_cons.mp h
    rw [List.flatMap_cons]
    cases ts with
    | nil => simp [Token.toks_spelling ht]
    | cons u ts =>
      have hu := hts u List.mem_cons_self
      have hjoins : Lexeme.Joins t.spelling.toList ((u :: ts).flatMap (·.spelling.toList)) ↔
          t.Alike u := Token.joins_iff_alike ht hu _
      rw [List.isChain_cons_cons, ← ih hts, ← hjoins]
      by_cases hjoin : Lexeme.Joins t.spelling.toList ((u :: ts).flatMap (·.spelling.toList))
      · have hne := toks_spelling_append_ne ht hjoin (u :: ts)
        exact ⟨fun heq => absurd heq hne, fun hchain => absurd hjoin hchain.1⟩
      · rw [toks_spelling_append ht hjoin]
        simp only [List.cons.injEq, true_and, hjoin, not_false_eq_true]

namespace Token

/-- Blanks keep tokens apart, whatever they are. -/
theorem Spaced.tokens_eq {ts : List Token} {text : String} (h : Spaced ts text)
    (hts : ∀ t ∈ ts, t.Lexed) : tokens text = ts := by
  induction h with
  | nil => rfl
  | single t => rw [tokens_eq_toks, toks_spelling (hts t List.mem_cons_self)]
  | @cons t gap u ts text hne hgap _ ih =>
    obtain ⟨ht, hts⟩ := List.forall_mem_cons.mp hts
    have hclass : ∀ c ∈ gap.toList, (CharClass.of c).isGap = true := fun c hc =>
      isGap_of_isBlank (hgap c hc)
    rw [tokens_eq_toks, String.toList_append, String.toList_append, List.append_assoc,
      toks_around_gap (by simpa using hne) hclass, toks_spelling ht, ← tokens_eq_toks, ih hts,
      List.singleton_append]

/-- The same blanks may stand everywhere. -/
theorem spaced_intercalate {gap : String} (hne : gap ≠ "")
    (hgap : ∀ c ∈ gap.toList, Text.isBlank c = true) (ts : List Token) :
    Spaced ts (gap.intercalate (ts.map (·.spelling))) := by
  induction ts with
  | nil => exact .nil
  | cons t ts ih =>
    cases ts with
    | nil => exact .single t
    | cons u ts =>
      rw [List.map_cons, List.map_cons, String.intercalate_cons_cons]
      exact .cons t hne hgap ih

end Token

/-! ## Two texts -/

theorem across_iff {low high : Char} {k : CharClass}
    (hk : ∀ c, CharClass.of c = k ↔ low ≤ c ∧ c ≤ high) {a b : String} :
    Across low high a b ↔
      (∃ c ∈ a.toList.getLast?, CharClass.of c = k) ∧ ∃ d ∈ b.toList.head?, CharClass.of d = k := by
  simp only [Across, ← hk]
  constructor
  · rintro ⟨c, hc, d, hd, hclass, hclass'⟩
    exact ⟨⟨c, hc, hclass⟩, d, hd, hclass'⟩
  · rintro ⟨⟨c, hc, hclass⟩, d, hd, hclass'⟩
    exact ⟨c, hc, d, hd, hclass, hclass'⟩

/-- If no run goes on from one text into the other, nothing joins them. -/
theorem not_joins_of_not_across {a b : String} (hletters : ¬ Across 'a' 'z' a b)
    (hdigits : ¬ Across '0' '9' a b) : ¬ Lexeme.Joins a.toList b.toList := by
  rintro ⟨c, hc, hrun, d, hd, hclass⟩
  rw [across_iff fun _ => CharClass.of_eq_letter_iff] at hletters
  rw [across_iff fun _ => CharClass.of_eq_digit_iff] at hdigits
  cases hk : CharClass.of c with
  | letter => exact hletters ⟨⟨c, hc, hk⟩, d, hd, hclass.trans hk⟩
  | digit => exact hdigits ⟨⟨c, hc, hk⟩, d, hd, hclass.trans hk⟩
  | paren | blank | stray => simp [hk, CharClass.isRun] at hrun

/-- What the lexemes of two texts put together are, by those of the texts. -/
structure Concatenated (a b : String) (xs ys zs : List Lexeme) : Prop where
  /-- A name that goes on across the seam is one name, a number one number. -/
  letters : Across 'a' 'z' a b → Fused .name xs ys zs
  digits : Across '0' '9' a b → Fused .number xs ys zs
  apart : ¬ Across 'a' 'z' a b → ¬ Across '0' '9' a b → zs = xs ++ ys

/-- If strays are skipped, the lexemes of two texts put together are those of the first and, as
    many bytes further on as the first has, those of the second; only a name or a number that
    goes on across the seam is one instead of two. So the texts of tokens, one behind the other,
    give the tokens back exactly if no two names and no two numbers stand side by side, and with
    blanks between them they always do. -/
theorem lexing_distributes :
    (∀ a b, ∃ xs ys zs, lexemes .skip a = .ok xs ∧ lexemes .skip b = .ok ys ∧
      lexemes .skip (a ++ b) = .ok zs ∧
      Concatenated a b xs (ys.map (Lexeme.shift a.utf8ByteSize)) zs) ∧
    ∀ ts : List Token, (∀ t ∈ ts, ∃ source, t ∈ tokens source) →
      (tokens (String.join (ts.map (·.spelling))) = ts ↔ ts.IsChain fun t u => ¬ t.Alike u) ∧
      ∀ text, Token.Spaced ts text → tokens text = ts := by
  refine ⟨fun a b => ⟨_, _, _, rfl, rfl, rfl, ?_⟩, fun ts hts => ?_⟩
  · have hshift : (Lexeme.scan 0 b.toList).map (Lexeme.shift a.utf8ByteSize) =
        Lexeme.scan (0 + width a.toList) b.toList := by
      rw [utf8ByteSize_eq_width, ← Lexeme.scan_shift, Nat.add_comm]
    rw [hshift, String.toList_append]
    constructor
    case letters =>
      intro hacross
      obtain ⟨ha, hb⟩ := (across_iff fun _ => CharClass.of_eq_letter_iff).mp hacross
      exact Lexeme.scan_append_run rfl ha hb 0
    case digits =>
      intro hacross
      obtain ⟨ha, hb⟩ := (across_iff fun _ => CharClass.of_eq_digit_iff).mp hacross
      exact Lexeme.scan_append_run rfl ha hb 0
    case apart =>
      intro hletters hdigits
      exact Lexeme.scan_append (not_joins_of_not_across hletters hdigits) 0
  · have hlexed : ∀ t ∈ ts, t.Lexed := fun t ht => Token.lexed_iff.mpr (hts t ht)
    refine ⟨?_, fun text htext => htext.tokens_eq hlexed⟩
    rw [tokens_eq_toks, String.toList_join, List.flatMap_map]
    exact toks_spelled_iff hlexed

/-- The name `ab` behind a stray of two bytes goes on as `abc`. A number keeps two names apart
    where they stand in a row; without it a blank does. -/
theorem a_name_goes_on_across_a_seam :
    let mixed : List Token := [.name "a", .number "0", .name "b"]
    let names : List Token := [.name "a", .name "b"]
    Across 'a' 'z' "é1ab" "c(" ∧
      (∃ zs, lexemes .skip ("é1ab" ++ "c(") = .ok zs ∧
        Fused .name [⟨.number "1", 2, 3⟩, ⟨.name "ab", 3, 5⟩]
          [⟨.name "c", 5, 6⟩, ⟨.paren '(', 6, 7⟩] zs) ∧
      (∀ t ∈ mixed, ∃ source, t ∈ tokens source) ∧ tokens "a0b" = mixed ∧
      (∀ t ∈ names, ∃ source, t ∈ tokens source) ∧ tokens "ab" ≠ names ∧
      Token.Spaced names "a \u3000b" ∧ tokens "a \u3000b" = names := by
  intro mixed names
  have hacross : Across 'a' 'z' "é1ab" "c(" := ⟨'b', rfl, 'c', rfl, by decide⟩
  obtain ⟨hseam, hrow⟩ := lexing_distributes
  obtain ⟨xs, ys, zs, hxs, hys, hzs, hconcatenated⟩ := hseam "é1ab" "c("
  have hleft : lexemes .skip "é1ab" = .ok [⟨.number "1", 2, 3⟩, ⟨.name "ab", 3, 5⟩] := by
    decide +kernel
  have hright : lexemes .skip "c(" = .ok [⟨.name "c", 0, 1⟩, ⟨.paren '(', 1, 2⟩] := by
    decide +kernel
  obtain rfl := Except.ok.inj (hxs.symm.trans hleft)
  obtain rfl := Except.ok.inj (hys.symm.trans hright)
  have hmixed : ∀ t ∈ mixed, ∃ source, t ∈ tokens source := fun t ht =>
    ⟨"a0b", (by decide : ∀ t ∈ mixed, t ∈ tokens "a0b") t ht⟩
  have hnames : ∀ t ∈ names, ∃ source, t ∈ tokens source := fun t ht =>
    ⟨"a0b", (by decide : ∀ t ∈ names, t ∈ tokens "a0b") t ht⟩
  have hblank : ∀ c ∈ " \u3000".toList, Text.isBlank c = true :=
    List.all_eq_true.mp (by decide)
  have hspaced : Token.Spaced names "a \u3000b" :=
    Token.spaced_intercalate (by decide) hblank names
  have hapart : mixed.IsChain fun t u => ¬ t.Alike u := by simp [mixed, Token.Alike]
  have htogether : ¬ names.IsChain fun t u => ¬ t.Alike u := by simp [names, Token.Alike]
  exact ⟨hacross, ⟨zs, hzs, hconcatenated.letters hacross⟩, hmixed,
    (hrow mixed hmixed).1.mpr hapart, hnames,
    fun heq => htogether ((hrow names hnames).1.mp heq), hspaced,
    (hrow names hnames).2 _ hspaced⟩

end CallForm
