/-
  CallForm.Proofs.Token.Seams — lexing piece by piece.

  A character joins the token that follows only if that is a run of its own class and begins
  at the next byte (`Meets`); so it does one of three things (`attach_cases`). A text may be
  cut wherever the characters at the cut are not of one run (`Joins`): its lexemes are those
  of the two parts (`scan_append`), and where the text begins only shifts them (`scan_shift`).
  So the tokens of a text are the tokens of its pieces (`toks_append`).
-/

import CallForm.Token.Lexeme

namespace CallForm

/-- The classes whose characters make runs. -/
def CharClass.isRun : CharClass → Bool
  | .letter | .digit => true
  | .paren | .blank | .stray => false

/-- The classes whose characters leave nothing. -/
def CharClass.isGap : CharClass → Bool
  | .blank | .stray => true
  | .paren | .letter | .digit => false

theorem CharClass.isGap_of_isRun {k : CharClass} (h : k.isRun = true) : k.isGap = false := by
  cases k <;> first | rfl | cases h

namespace Token

/-- The class of a token's characters. -/
def charClass : Token → CharClass
  | .paren _ => .paren
  | .name _ => .letter
  | .number _ => .digit

/-- The token of a single character that is no gap. -/
def ofChar (c : Char) : Token :=
  match CharClass.of c with
  | .letter => .name (String.singleton c)
  | .digit => .number (String.singleton c)
  | _ => .paren c

/-- The token of a run with one more character in front. -/
def push (c : Char) : Token → Token
  | .paren d => .paren d
  | .name run => .name (String.singleton c ++ run)
  | .number run => .number (String.singleton c ++ run)

@[simp] theorem charClass_push (c : Char) (t : Token) : (t.push c).charClass = t.charClass := by
  cases t <;> rfl

theorem charClass_ofChar {c : Char} (h : (CharClass.of c).isGap = false) :
    (ofChar c).charClass = CharClass.of c := by
  unfold ofChar
  cases hc : CharClass.of c <;> simp_all [charClass, CharClass.isGap]

end Token

/-- The bytes of a text. -/
def width : List Char → Nat
  | [] => 0
  | c :: cs => c.utf8Size + width cs

@[simp] theorem width_nil : width [] = 0 := rfl

@[simp] theorem width_cons (c : Char) (cs : List Char) :
    width (c :: cs) = c.utf8Size + width cs := rfl

namespace Lexeme

/-! ## One character in front of lexemes -/

/-- The character `c` before the byte `stop` belongs to the first of the lexemes. -/
def Meets (stop : Nat) (c : Char) (later : List Lexeme) : Prop :=
  (CharClass.of c).isRun = true ∧
    ∃ x ∈ later.head?, x.start = stop ∧ x.token.charClass = CharClass.of c

theorem attach_gap {c : Char} (h : (CharClass.of c).isGap = true) (start : Nat)
    (later : List Lexeme) : attach start c later = later := by
  cases hc : CharClass.of c <;> simp_all [attach, CharClass.isGap]

theorem attach_meets {c : Char} {start : Nat} {x : Lexeme} {others : List Lexeme}
    (h : Meets (start + c.utf8Size) c (x :: others)) :
    attach start c (x :: others) = ⟨x.token.push c, start, x.stop⟩ :: others := by
  obtain ⟨hrun, y, hy, hstart, hclass⟩ := h
  obtain rfl : x = y := by simpa using hy
  obtain ⟨token, next, last⟩ := x
  obtain rfl : next = start + c.utf8Size := hstart
  cases token <;> cases hc : CharClass.of c <;>
    simp_all [attach, Token.charClass, Token.push, CharClass.isRun]

theorem attach_new {c : Char} (hgap : (CharClass.of c).isGap = false) {start : Nat}
    {later : List Lexeme} (h : ¬ Meets (start + c.utf8Size) c later) :
    attach start c later = ⟨Token.ofChar c, start, start + c.utf8Size⟩ :: later := by
  cases later with
  | nil => cases hc : CharClass.of c <;> simp_all [attach, Token.ofChar, CharClass.isGap]
  | cons x others =>
    obtain ⟨token, next, last⟩ := x
    cases token <;> cases hc : CharClass.of c <;>
      simp_all [attach, Meets, Token.ofChar, Token.charClass, CharClass.isGap, CharClass.isRun]

/-- All that a character can do: leave nothing, join the first lexeme, or begin a new one. -/
theorem attach_cases (start : Nat) (c : Char) (later : List Lexeme) :
    ((CharClass.of c).isGap = true ∧ attach start c later = later) ∨
    (∃ x others, later = x :: others ∧ x.start = start + c.utf8Size ∧
      x.token.charClass = CharClass.of c ∧
      attach start c later = ⟨x.token.push c, start, x.stop⟩ :: others) ∨
    ((CharClass.of c).isGap = false ∧
      attach start c later = ⟨Token.ofChar c, start, start + c.utf8Size⟩ :: later) := by
  cases hgap : (CharClass.of c).isGap with
  | true => exact .inl ⟨rfl, attach_gap hgap start later⟩
  | false =>
    by_cases hm : Meets (start + c.utf8Size) c later
    · cases later with
      | nil => simp [Meets] at hm
      | cons x others =>
        obtain ⟨y, hy, hstart, hclass⟩ := hm.2
        obtain rfl : x = y := by simpa using hy
        exact .inr (.inl ⟨x, others, rfl, hstart, hclass, attach_meets hm⟩)
    · exact .inr (.inr ⟨rfl, attach_new hgap hm⟩)

/-- Only the first lexeme after a character matters to it. -/
theorem attach_append {c : Char} {start : Nat} {xs ys : List Lexeme}
    (h : xs = [] → ¬ Meets (start + c.utf8Size) c ys) :
    attach start c (xs ++ ys) = attach start c xs ++ ys := by
  cases hgap : (CharClass.of c).isGap with
  | true => rw [attach_gap hgap, attach_gap hgap]
  | false =>
    cases xs with
    | nil =>
      have hnil : ¬ Meets (start + c.utf8Size) c [] := by simp [Meets]
      rw [List.nil_append, attach_new hgap (h rfl), attach_new hgap hnil, List.singleton_append]
    | cons x xs =>
      by_cases hm : Meets (start + c.utf8Size) c (x :: xs)
      · have hm' : Meets (start + c.utf8Size) c (x :: (xs ++ ys)) := hm
        rw [List.cons_append, attach_meets hm', attach_meets hm, List.cons_append]
      · have hm' : ¬ Meets (start + c.utf8Size) c (x :: (xs ++ ys)) := hm
        rw [List.cons_append, attach_new hgap hm', attach_new hgap hm]
        rfl

/-! ## Where lexemes begin -/

theorem start_le_of_mem_attach {c : Char} {start n : Nat} {later : List Lexeme} (hn : n ≤ start)
    (h : ∀ x ∈ later, n ≤ x.start) : ∀ x ∈ attach start c later, n ≤ x.start := by
  rcases attach_cases start c later with ⟨-, heq⟩ | ⟨x, others, rfl, -, -, heq⟩ | ⟨-, heq⟩
  · rwa [heq]
  · rw [heq]
    exact List.forall_mem_cons.mpr ⟨hn, (List.forall_mem_cons.mp h).2⟩
  · rw [heq]
    exact List.forall_mem_cons.mpr ⟨hn, h⟩

theorem start_le_of_mem_scan (cs : List Char) : ∀ {n start : Nat}, n ≤ start →
    ∀ x ∈ scan start cs, n ≤ x.start := by
  induction cs with
  | nil => intro n start _ x hx; cases hx
  | cons c cs ih =>
    intro n start hn
    exact start_le_of_mem_attach hn (ih (by omega))

/-- A character that is no gap begins the first lexeme, which is of its class. -/
theorem head_attach {c : Char} (hgap : (CharClass.of c).isGap = false) (start : Nat)
    (later : List Lexeme) : ∃ x others, attach start c later = x :: others ∧ x.start = start ∧
      x.token.charClass = CharClass.of c := by
  rcases attach_cases start c later with ⟨htrue, -⟩ | ⟨x, others, -, -, hclass, heq⟩ | ⟨-, heq⟩
  · rw [hgap] at htrue
    cases htrue
  · exact ⟨_, _, heq, rfl, by rw [Token.charClass_push, hclass]⟩
  · exact ⟨_, _, heq, rfl, Token.charClass_ofChar hgap⟩

/-- A text meets the character before it exactly if its own first character is of that run. -/
theorem meets_scan {c : Char} {stop : Nat} {cs : List Char} :
    Meets stop c (scan stop cs) ↔
      (CharClass.of c).isRun = true ∧ ∃ d ∈ cs.head?, CharClass.of d = CharClass.of c := by
  refine and_congr_right fun hrun => ?_
  cases cs with
  | nil => simp
  | cons d ds =>
    cases hgap : (CharClass.of d).isGap with
    | true =>
      have hne : CharClass.of d ≠ CharClass.of c := by
        intro he
        rw [he, CharClass.isGap_of_isRun hrun] at hgap
        cases hgap
      have hlater : ∀ x ∈ scan (stop + d.utf8Size) ds, stop + d.utf8Size ≤ x.start :=
        start_le_of_mem_scan ds (Nat.le_refl _)
      rw [scan_cons, attach_gap hgap]
      constructor
      · rintro ⟨x, hx, hstart, -⟩
        have := hlater x (List.mem_of_mem_head? hx)
        have := d.utf8Size_pos
        omega
      · rintro ⟨y, hy, hclass⟩
        obtain rfl : d = y := by simpa using hy
        exact absurd hclass hne
    | false =>
      obtain ⟨x, others, hattach, hstart, hclass⟩ :=
        head_attach hgap stop (scan (stop + d.utf8Size) ds)
      rw [scan_cons, hattach]
      simp [hstart, hclass]

/-! ## Cutting a text -/

/-- The characters on both sides of a cut belong to one run. -/
def Joins (a b : List Char) : Prop :=
  ∃ c ∈ a.getLast?, (CharClass.of c).isRun = true ∧ ∃ d ∈ b.head?, CharClass.of d = CharClass.of c

theorem scan_append {a b : List Char} (h : ¬ Joins a b) (start : Nat) :
    scan start (a ++ b) = scan start a ++ scan (start + width a) b := by
  induction a generalizing start with
  | nil => rfl
  | cons c a ih =>
    cases a with
    | nil =>
      have hm : ¬ Meets (start + c.utf8Size) c (scan (start + c.utf8Size) b) := fun hm =>
        h ⟨c, rfl, meets_scan.mp hm⟩
      have happend : attach start c ([] ++ scan (start + c.utf8Size) b) =
          attach start c [] ++ scan (start + c.utf8Size) b := attach_append fun _ => hm
      exact happend
    | cons d a =>
      have hrest := ih (fun hj => h (by simpa [Joins, List.getLast?_cons_cons] using hj))
        (start + c.utf8Size)
      rw [List.cons_append, scan_cons, hrest, scan_cons, width_cons c, ← Nat.add_assoc]
      refine attach_append fun _ hm => ?_
      -- nothing of `a` is left, and what is left of `b` begins after it
      obtain ⟨x, hx, hstart, -⟩ := hm.2
      have hle := start_le_of_mem_scan b (Nat.le_refl (start + c.utf8Size + width (d :: a))) x
        (List.mem_of_mem_head? hx)
      have hpos := d.utf8Size_pos
      rw [hstart, width_cons] at hle
      omega

@[simp] theorem meets_shift {n stop : Nat} {c : Char} {later : List Lexeme} :
    Meets (n + stop) c (later.map (shift n)) ↔ Meets stop c later := by
  cases later <;> simp [Meets, shift]

theorem attach_shift (n start : Nat) (c : Char) (later : List Lexeme) :
    attach (n + start) c (later.map (shift n)) = (attach start c later).map (shift n) := by
  cases hgap : (CharClass.of c).isGap with
  | true => rw [attach_gap hgap, attach_gap hgap]
  | false =>
    by_cases hm : Meets (start + c.utf8Size) c later
    · have hm' := (meets_shift (n := n)).mpr hm
      rw [← Nat.add_assoc] at hm'
      cases later with
      | nil => simp [Meets] at hm
      | cons x others =>
        rw [List.map_cons] at hm' ⊢
        rw [attach_meets hm', attach_meets hm]
        rfl
    · have hm' := mt (meets_shift (n := n)).mp hm
      rw [← Nat.add_assoc] at hm'
      rw [attach_new hgap hm', attach_new hgap hm, List.map_cons, shift, Nat.add_assoc]

theorem scan_shift (n : Nat) (cs : List Char) : ∀ start,
    scan (n + start) cs = (scan start cs).map (shift n) := by
  induction cs with
  | nil => intro start; rfl
  | cons c cs ih =>
    intro start
    rw [scan_cons, scan_cons, Nat.add_assoc, ih, attach_shift]

end Lexeme

/-! ## Tokens of a list of characters -/

/-- The tokens of a text, wherever it begins. -/
def toks (cs : List Char) : List Token := (Lexeme.scan 0 cs).map (·.token)

theorem tokens_eq_toks (source : String) : tokens source = toks source.toList := rfl

theorem map_token_scan (start : Nat) (cs : List Char) :
    (Lexeme.scan start cs).map (·.token) = toks cs := by
  have h := Lexeme.scan_shift start cs 0
  rw [Nat.add_zero] at h
  rw [h, List.map_map]
  rfl

theorem toks_append {a b : List Char} (h : ¬ Lexeme.Joins a b) :
    toks (a ++ b) = toks a ++ toks b := by
  rw [toks, Lexeme.scan_append h, List.map_append, map_token_scan, map_token_scan]

end CallForm
