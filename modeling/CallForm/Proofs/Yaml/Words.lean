/-
  CallForm.Proofs.Yaml.Words — words as YAML scalars.

  A word of letters and digits stands as it is, or between single quotes if it would read as
  something else (`keyText_of_word`). Both ways the word is what the scalar has of letters and
  digits, and the scalar ends before the first character that is neither these nor a quote; so
  scalars of words are cancelled from the left (`keyText_cancels`).
-/

import CallForm.Proofs.Text.Quoted
import CallForm.Yaml.Block

namespace CallForm.Yaml

def isWordChar (c : Char) : Bool :=
  ('a' ≤ c ∧ c ≤ 'z') ∨ ('A' ≤ c ∧ c ≤ 'Z') ∨ ('0' ≤ c ∧ c ≤ '9')

/-- Letters and digits, at least one. -/
def IsWord (s : String) : Prop := s ≠ "" ∧ ∀ c ∈ s.toList, isWordChar c = true

instance : DecidablePred IsWord := fun s =>
  decidable_of_iff (s ≠ "" ∧ s.toList.all isWordChar = true) (by simp [IsWord])

/-! ## Letters and digits -/

theorem ne_of_isWordChar {c d : Char} (hc : isWordChar c = true) (hd : isWordChar d = false) :
    c ≠ d := by
  rintro rfl
  rw [hc] at hd
  cases hd

theorem isBreak_of_isWordChar {c : Char} (h : isWordChar c = true) : isBreak c = false := by
  have hne : ∀ d : Char, isWordChar d = false → c ≠ d := fun d => ne_of_isWordChar h
  simp [isBreak, hne '\n' rfl, hne '\r' rfl, hne '\u0085' rfl, hne '\u2028' rfl, hne '\u2029' rfl]

theorem isPlainPrintable_of_isWordChar {c : Char} (h : isWordChar c = true) :
    isPlainPrintable c = true := by
  have hbetween : ∀ {a z : Char}, a ≤ c ∧ c ≤ z → a.toNat ≤ c.toNat ∧ c.toNat ≤ z.toNat := id
  have hcode : 0x30 ≤ c.toNat ∧ c.toNat ≤ 0x7A := by
    rcases of_decide_eq_true h with h | h | h
    · exact ⟨Nat.le_trans (by decide) (hbetween h).1, (hbetween h).2⟩
    · exact ⟨Nat.le_trans (by decide) (hbetween h).1, Nat.le_trans (hbetween h).2 (by decide)⟩
    · exact ⟨(hbetween h).1, Nat.le_trans (hbetween h).2 (by decide)⟩
  simp [isPlainPrintable]
  omega

/-! ## Scalars -/

section

variable {cs : List Char}

theorem hasPair_eq_false {first second : Char → Bool} (h : ∀ c ∈ cs, first c = false) :
    hasPair first second cs = false := by
  induction cs with
  | nil => rfl
  | cons c cs ih =>
    obtain ⟨hc, hcs⟩ := List.forall_mem_cons.mp h
    cases cs with
    | nil => rfl
    | cons d ds => rw [hasPair, hc, ih hcs, Bool.false_and, Bool.false_or]

theorem indented_eq_self {margin : String} {write : Char → List Char}
    (h : ∀ c ∈ cs, isBreak c = false ∧ write c = [c]) : indented margin write false cs = cs := by
  induction cs with
  | nil => rfl
  | cons c cs ih =>
    obtain ⟨⟨hbreak, hwrite⟩, hcs⟩ := List.forall_mem_cons.mp h
    simp [indented, hbreak, hwrite, ih hcs]

end

variable {s t : String}

theorem quotedStyle_of_word (h : IsWord s) : quotedStyle s.toList = .single := by
  have hspace : ∀ c ∈ s.toList, isSpace c = false := fun c hc =>
    beq_eq_false_iff_ne.mpr (ne_of_isWordChar (h.2 c hc) rfl)
  have hbreak : ∀ c ∈ s.toList, isBreak c = false := fun c hc => isBreak_of_isWordChar (h.2 c hc)
  have hprintable : s.toList.all isPlainPrintable = true :=
    List.all_eq_true.mpr fun c hc => isPlainPrintable_of_isWordChar (h.2 c hc)
  rw [quotedStyle, singleHolds, hasPair_eq_false hbreak, hasPair_eq_false hspace, hprintable]
  rfl

theorem styleOf_word (h : IsWord s) : styleOf s = .plain ∨ styleOf s = .single := by
  have hbreak : s.toList.contains '\n' = false := by
    rw [List.contains_eq_mem, decide_eq_false_iff_not]
    exact fun hmem => ne_of_isWordChar (h.2 _ hmem) rfl rfl
  rw [styleOf, hbreak, quotedStyle_of_word h]
  split
  · contradiction
  · split
    · exact .inr rfl
    · split
      · exact .inl rfl
      · exact .inr rfl

theorem singleQuoted_word (h : IsWord s) (margin : String) :
    (singleQuoted margin s.toList).toList = '\'' :: (s.toList ++ ['\'']) := by
  have hself : indented margin (fun c => if c = '\'' then ['\'', '\''] else [c]) false s.toList =
      s.toList := indented_eq_self fun c hc =>
    ⟨isBreak_of_isWordChar (h.2 c hc), if_neg (ne_of_isWordChar (h.2 c hc) rfl)⟩
  have hlast : s.toList.getLast?.any isBreak = false := by
    cases hl : s.toList.getLast? with
    | none => rfl
    | some c => exact isBreak_of_isWordChar (h.2 c (List.mem_of_getLast? hl))
  simp [singleQuoted, hself, hlast]

/-- A word stands as it is or between quotes, as a key and at the end of a line. -/
theorem keyText_of_word (h : IsWord s) :
    ((keyText s).toList = s.toList ∨ (keyText s).toList = '\'' :: (s.toList ++ ['\''])) ∧
      ∀ margin, (scalarLine margin s).toList = (keyText s).toList ++ ['\n'] := by
  rcases styleOf_word h with hstyle | hstyle
  · have hkey : keyText s = s := by rw [keyText, hstyle]
    refine ⟨.inl (congrArg String.toList hkey), fun margin => ?_⟩
    rw [hkey, scalarLine, hstyle]
    simp
  · have hkey : (keyText s).toList = '\'' :: (s.toList ++ ['\'']) := by
      rw [keyText, hstyle]
      exact singleQuoted_word h ""
    refine ⟨.inr hkey, fun margin => ?_⟩
    rw [hkey, scalarLine, hstyle]
    simp [singleQuoted_word h]

/-! ## Cancellation -/

/-- The characters of a word, quoted or not. -/
def inScalar (c : Char) : Bool := isWordChar c || c == '\''

theorem inScalar_keyText (h : IsWord s) : ∀ c ∈ (keyText s).toList, inScalar c = true := by
  intro c hc
  have hmem : c ∈ s.toList ∨ c = '\'' := by
    rcases (keyText_of_word h).1 with hkey | hkey <;> rw [hkey] at hc
    · exact .inl hc
    · simpa [or_comm] using hc
  rcases hmem with hmem | rfl
  · simp [inScalar, h.2 c hmem]
  · rfl

theorem filter_keyText (h : IsWord s) : (keyText s).toList.filter isWordChar = s.toList := by
  have hfilter : s.toList.filter isWordChar = s.toList := List.filter_eq_self.mpr h.2
  rcases (keyText_of_word h).1 with hkey | hkey
  · rw [hkey, hfilter]
  · have hquote : isWordChar '\'' = false := by decide
    simp [hkey, hquote, hfilter]

theorem exists_cons_keyText (h : IsWord s) :
    ∃ c cs, (keyText s).toList = c :: cs ∧ inScalar c = true := by
  have hall := inScalar_keyText h
  cases hkey : (keyText s).toList with
  | nil =>
    have hempty := filter_keyText h
    rw [hkey, List.filter_nil, eq_comm, String.toList_eq_nil_iff] at hempty
    exact absurd hempty h.1
  | cons c cs =>
    rw [hkey] at hall
    exact ⟨c, cs, rfl, hall c List.mem_cons_self⟩

/-- The scalar of a word is told from any text that it begins, up to its end. -/
theorem keyText_cancels (hs : IsWord s) (ht : IsWord t) {c d : Char} (hc : inScalar c = false)
    (hd : inScalar d = false) {r r' : List Char}
    (h : (keyText s).toList ++ c :: r = (keyText t).toList ++ d :: r') :
    s = t ∧ c = d ∧ r = r' := by
  obtain ⟨hkey, hrest⟩ := Text.upTo_cancels (inScalar_keyText hs) (inScalar_keyText ht) hc hd h
  refine ⟨?_, hrest⟩
  rw [← String.toList_inj, ← filter_keyText hs, ← filter_keyText ht, hkey]

end CallForm.Yaml
