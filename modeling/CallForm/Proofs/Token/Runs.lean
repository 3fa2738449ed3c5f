/-
  CallForm.Proofs.Token.Runs — what the lexer makes of a text, run by run.

  A name or a number in a text is one token, up to the end of its run (`toks_name`,
  `toks_number`); a parenthesis is one, a gap none (`toks_paren`, `toks_gap`). Conversely each
  token of a text is of one of these forms (`lexed_of_mem_toks`). The alphabet is what the
  lexer does not take for stray (`isStray_eq_false_iff`).
-/

import CallForm.Proofs.Token.Seams

namespace CallForm

/-! ## Classes -/

/-- The characters that source text is made of. -/
def InAlphabet (c : Char) : Prop :=
  c = '(' ∨ c = ')' ∨ ('a' ≤ c ∧ c ≤ 'z') ∨ ('0' ≤ c ∧ c ≤ '9') ∨ Text.isBlank c = true

namespace CharClass

theorem of_eq_paren_iff {c : Char} : CharClass.of c = .paren ↔ c = '(' ∨ c = ')' := by
  unfold CharClass.of
  repeat' split
  all_goals simp_all

theorem of_eq_letter_iff {c : Char} : CharClass.of c = .letter ↔ 'a' ≤ c ∧ c ≤ 'z' := by
  unfold CharClass.of
  split
  · rename_i hparen
    rcases hparen with rfl | rfl <;> decide
  · repeat' split
    all_goals simp_all

theorem of_eq_digit_iff {c : Char} : CharClass.of c = .digit ↔ '0' ≤ c ∧ c ≤ '9' := by
  unfold CharClass.of
  split
  · rename_i hparen
    rcases hparen with rfl | rfl <;> decide
  · split
    · rename_i hletter
      simp only [reduceCtorEq, false_iff, not_and]
      exact fun _ hle => absurd (Char.le_trans hletter.1 hle) (by decide)
    · repeat' split
      all_goals simp_all

end CharClass

theorem code_of_isBlank {c : Char} (h : Text.isBlank c = true) :
    c.toNat ≤ 0x20 ∨ 0x85 ≤ c.toNat := by
  simp [Text.isBlank, Text.inRanges, Text.blankRanges] at h
  omega

/-- The codes of parentheses, letters and digits lie between those of the blanks. -/
theorem isGap_of_isBlank {c : Char} (h : Text.isBlank c = true) :
    (CharClass.of c).isGap = true := by
  have hcode := code_of_isBlank h
  have hbetween : ∀ {a z : Char}, a ≤ c ∧ c ≤ z → a.toNat ≤ c.toNat ∧ c.toNat ≤ z.toNat := id
  cases hc : CharClass.of c with
  | blank | stray => rfl
  | paren => obtain rfl | rfl := CharClass.of_eq_paren_iff.mp hc <;> exact absurd h (by decide)
  | letter =>
    have hletter := hbetween (CharClass.of_eq_letter_iff.mp hc)
    have ha : 'a'.toNat = 0x61 := rfl
    have hz : 'z'.toNat = 0x7A := rfl
    omega
  | digit =>
    have hdigit := hbetween (CharClass.of_eq_digit_iff.mp hc)
    have hzero : '0'.toNat = 0x30 := rfl
    have hnine : '9'.toNat = 0x39 := rfl
    omega

theorem isStray_eq_false_iff {c : Char} : isStray c = false ↔ InAlphabet c := by
  unfold isStray InAlphabet CharClass.of
  split
  · rename_i hparen
    rcases hparen with rfl | rfl <;> simp
  · repeat' split
    all_goals simp_all

/-! ## Names and numbers -/

/-- A non-empty run of letters a-z. -/
def IsName (s : String) : Prop := s ≠ "" ∧ ∀ c ∈ s.toList, 'a' ≤ c ∧ c ≤ 'z'

/-- A non-empty run of digits 0-9. -/
def IsNumber (s : String) : Prop := s ≠ "" ∧ ∀ c ∈ s.toList, '0' ≤ c ∧ c ≤ '9'

instance : DecidablePred IsName := fun s =>
  decidable_of_iff (s ≠ "" ∧ s.toList.all (CharClass.of · == .letter) = true)
    (by simp [IsName, CharClass.of_eq_letter_iff])

instance : DecidablePred IsNumber := fun s =>
  decidable_of_iff (s ≠ "" ∧ s.toList.all (CharClass.of · == .digit) = true)
    (by simp [IsNumber, CharClass.of_eq_digit_iff])

namespace Token

/-- The tokens that a text can have. -/
def Lexed : Token → Prop
  | .paren c => c = '(' ∨ c = ')'
  | .name text => IsName text
  | .number digits => IsNumber digits

theorem lexed_ofChar {c : Char} (h : (CharClass.of c).isGap = false) : (ofChar c).Lexed := by
  unfold ofChar
  cases hc : CharClass.of c with
  | paren => exact CharClass.of_eq_paren_iff.mp hc
  | letter => simpa [Lexed, IsName] using CharClass.of_eq_letter_iff.mp hc
  | digit => simpa [Lexed, IsNumber] using CharClass.of_eq_digit_iff.mp hc
  | blank => simp [hc, CharClass.isGap] at h
  | stray => simp [hc, CharClass.isGap] at h

theorem lexed_push {c : Char} {t : Token} (h : t.Lexed) (hc : t.charClass = CharClass.of c) :
    (t.push c).Lexed := by
  cases t with
  | paren d => exact h
  | name run =>
    have hletter := CharClass.of_eq_letter_iff.mp hc.symm
    simpa [push, Lexed, IsName, hletter] using h.2
  | number run =>
    have hdigit := CharClass.of_eq_digit_iff.mp hc.symm
    simpa [push, Lexed, IsNumber, hdigit] using h.2

end Token

/-- Each token of a text is a parenthesis, a name or a number. -/
theorem lexed_of_mem_scan (cs : List Char) :
    ∀ start, ∀ x ∈ Lexeme.scan start cs, x.token.Lexed := by
  induction cs with
  | nil => intro start x hx; cases hx
  | cons c cs ih =>
    intro start
    have hlater := ih (start + c.utf8Size)
    rw [Lexeme.scan_cons]
    rcases Lexeme.attach_cases start c (Lexeme.scan (start + c.utf8Size) cs) with
      ⟨-, heq⟩ | ⟨x, others, hscan, -, hclass, heq⟩ | ⟨hgap, heq⟩
    · rwa [heq]
    · rw [hscan] at hlater
      obtain ⟨hx, hothers⟩ := List.forall_mem_cons.mp hlater
      rw [heq]
      exact List.forall_mem_cons.mpr ⟨Token.lexed_push hx hclass, hothers⟩
    · rw [heq]
      exact List.forall_mem_cons.mpr ⟨Token.lexed_ofChar hgap, hlater⟩

theorem lexed_of_mem_toks {cs : List Char} {t : Token} (h : t ∈ toks cs) : t.Lexed := by
  obtain ⟨x, hx, rfl⟩ := List.mem_map.mp h
  exact lexed_of_mem_scan cs 0 x hx

/-! ## One token at the front -/

theorem toks_gap {c : Char} (h : (CharClass.of c).isGap = true) (cs : List Char) :
    toks (c :: cs) = toks cs := by
  rw [toks, Lexeme.scan_cons, Lexeme.attach_gap h, map_token_scan]

theorem toks_gaps {gap : List Char} (h : ∀ c ∈ gap, (CharClass.of c).isGap = true)
    (cs : List Char) : toks (gap ++ cs) = toks cs := by
  induction gap with
  | nil => rfl
  | cons c gap ih =>
    obtain ⟨hc, hgap⟩ := List.forall_mem_cons.mp h
    rw [List.cons_append, toks_gap hc, ih hgap]

theorem Lexeme.not_joins_of_gap {a b : List Char}
    (h : ∀ d ∈ b.head?, (CharClass.of d).isGap = true) : ¬ Joins a b := by
  rintro ⟨c, -, hrun, d, hd, hclass⟩
  have hgap := h d hd
  rw [hclass] at hgap
  cases hc : CharClass.of c <;> simp_all [CharClass.isRun, CharClass.isGap]

/-- A gap keeps the tokens on its sides apart. -/
theorem toks_around_gap {gap : List Char} (hne : gap ≠ [])
    (h : ∀ c ∈ gap, (CharClass.of c).isGap = true) (a b : List Char) :
    toks (a ++ (gap ++ b)) = toks a ++ toks b := by
  have hjoin : ¬ Lexeme.Joins a (gap ++ b) := by
    obtain ⟨c, cs, rfl⟩ := List.exists_cons_of_ne_nil hne
    refine Lexeme.not_joins_of_gap fun d hd => ?_
    obtain rfl : c = d := by simpa using hd
    exact h c List.mem_cons_self
  rw [toks_append hjoin, toks_gaps h]

theorem toks_paren {c : Char} (h : c = '(' ∨ c = ')') (cs : List Char) :
    toks (c :: cs) = .paren c :: toks cs := by
  have hclass := CharClass.of_eq_paren_iff.mpr h
  have hm : ¬ Lexeme.Meets (0 + c.utf8Size) c (Lexeme.scan (0 + c.utf8Size) cs) := by
    simp [Lexeme.Meets, hclass, CharClass.isRun]
  rw [toks, Lexeme.scan_cons, Lexeme.attach_new (by simp [hclass, CharClass.isGap]) hm,
    List.map_cons, map_token_scan]
  simp [Token.ofChar, hclass]

/-- The token of a run of this class. -/
def CharClass.token : CharClass → String → Token
  | .digit, run => .number run
  | _, run => .name run

theorem charClass_token {k : CharClass} (hk : k.isRun = true) (s : String) :
    (k.token s).charClass = k := by
  cases k <;> first | rfl | cases hk

theorem push_token (c : Char) (k : CharClass) (s : String) :
    (k.token s).push c = k.token (String.singleton c ++ s) := by
  cases k <;> rfl

theorem ofChar_eq_token {c : Char} (h : (CharClass.of c).isRun = true) :
    Token.ofChar c = (CharClass.of c).token (String.singleton c) := by
  unfold Token.ofChar
  cases hc : CharClass.of c <;> simp_all [CharClass.isRun, CharClass.token]

section

variable {k : CharClass} {cs : List Char}

/-- A text of one class is one lexeme. -/
theorem scan_run (hk : k.isRun = true) (hne : cs ≠ []) (hcs : ∀ c ∈ cs, CharClass.of c = k) :
    ∀ start, Lexeme.scan start cs = [⟨k.token (String.ofList cs), start, start + width cs⟩] := by
  induction cs with
  | nil => exact absurd rfl hne
  | cons c cs ih =>
    intro start
    obtain ⟨rfl, hcs⟩ := List.forall_mem_cons.mp hcs
    cases cs with
    | nil =>
      have hgap := CharClass.isGap_of_isRun hk
      have hm : ¬ Lexeme.Meets (start + c.utf8Size) c [] := by simp [Lexeme.Meets]
      rw [Lexeme.scan_cons, Lexeme.scan_nil, Lexeme.attach_new hgap hm, ofChar_eq_token hk]
      simp
    | cons d ds =>
      have hrest := ih (List.cons_ne_nil d ds) hcs (start + c.utf8Size)
      have hm : Lexeme.Meets (start + c.utf8Size) c
          [⟨(CharClass.of c).token (String.ofList (d :: ds)), start + c.utf8Size,
            start + c.utf8Size + width (d :: ds)⟩] :=
        ⟨hk, _, rfl, rfl, charClass_token hk _⟩
      rw [Lexeme.scan_cons, hrest, Lexeme.attach_meets hm, push_token, ← String.ofList_cons,
        width_cons c, Nat.add_assoc]

theorem toks_run (hk : k.isRun = true) (hne : cs ≠ []) (hcs : ∀ c ∈ cs, CharClass.of c = k)
    {rest : List Char} (hrest : ∀ d ∈ rest.head?, CharClass.of d ≠ k) :
    toks (cs ++ rest) = k.token (String.ofList cs) :: toks rest := by
  have hjoin : ¬ Lexeme.Joins cs rest := by
    rintro ⟨c, hc, -, d, hd, hclass⟩
    exact hrest d hd (hclass.trans (hcs c (List.mem_of_getLast? hc)))
  rw [toks_append hjoin, toks, scan_run hk hne hcs]
  rfl

end

theorem toks_name {s : String} (h : IsName s) {rest : List Char}
    (hrest : ∀ d ∈ rest.head?, CharClass.of d ≠ .letter) :
    toks (s.toList ++ rest) = .name s :: toks rest := by
  have hne : s.toList ≠ [] := by simpa using h.1
  have hcs : ∀ c ∈ s.toList, CharClass.of c = .letter := fun c hc =>
    CharClass.of_eq_letter_iff.mpr (h.2 c hc)
  rw [toks_run rfl hne hcs hrest, String.ofList_toList]
  rfl

theorem toks_number {s : String} (h : IsNumber s) {rest : List Char}
    (hrest : ∀ d ∈ rest.head?, CharClass.of d ≠ .digit) :
    toks (s.toList ++ rest) = .number s :: toks rest := by
  have hne : s.toList ≠ [] := by simpa using h.1
  have hcs : ∀ c ∈ s.toList, CharClass.of c = .digit := fun c hc =>
    CharClass.of_eq_digit_iff.mpr (h.2 c hc)
  rw [toks_run rfl hne hcs hrest, String.ofList_toList]
  rfl

end CallForm
