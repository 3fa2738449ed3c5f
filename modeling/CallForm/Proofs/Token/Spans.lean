/-
  CallForm.Proofs.Token.Spans — the lexemes of a text are its only lexing.

  `Lexing` says what lexemes have to be, without saying how they are found: disjoint, in order,
  each a whole parenthesis, name or number that no neighbour makes longer, and together all of
  the text that is neither blank nor stray. The lexer finds such a list (`lexing_scan`), and
  there is only one (`Lexing.eq`): a character that two lexemes share makes them equal
  (`Placed.eq_of_covers`). So the lexer's answer is the lexing of its text (`lexing_iff`).
-/

import Mathlib.Data.List.Pairwise
import Mathlib.Data.List.Sort
import CallForm.Proofs.Token.Policies

namespace CallForm

/-- The characters that tokens are made of. -/
def Significant (c : Char) : Prop :=
  c = '(' ∨ c = ')' ∨ ('a' ≤ c ∧ c ≤ 'z') ∨ ('0' ≤ c ∧ c ≤ '9')

/-- A character that would make the token longer. -/
def Token.Extends (c : Char) : Token → Prop
  | .paren _ => False
  | .name _ => 'a' ≤ c ∧ c ≤ 'z'
  | .number _ => '0' ≤ c ∧ c ≤ '9'

namespace Lexeme

/-- The lexeme's bytes are those of its token, which stands between the two texts. -/
structure StandsBetween (x : Lexeme) (source before after : String) : Prop where
  source_eq : source = before ++ x.token.spelling ++ after
  start_eq : x.start = before.utf8ByteSize
  stop_eq : x.stop = (before ++ x.token.spelling).utf8ByteSize

/-- The bytes of a character behind this text belong to the lexeme. -/
def Covers (x : Lexeme) (before : String) (c : Char) : Prop :=
  x.start ≤ before.utf8ByteSize ∧ before.utf8ByteSize + c.utf8Size ≤ x.stop

end Lexeme

/-- What the lexemes of a text have to be. -/
structure Lexing (source : String) (xs : List Lexeme) : Prop where
  nonempty : ∀ x ∈ xs, x.start < x.stop
  disjoint : xs.Pairwise fun x y => x.stop ≤ y.start
  /-- Each covers a parenthesis, a name or a number, and no neighbour makes that longer. -/
  maximal : ∀ x ∈ xs, x.token.Lexed ∧ ∃ before after, x.StandsBetween source before after ∧
    (∀ c ∈ before.toList.getLast?, ¬ x.token.Extends c) ∧
    ∀ c ∈ after.toList.head?, ¬ x.token.Extends c
  covered : ∀ before c after, source = before ++ String.singleton c ++ after → Significant c →
    ∃! x, x ∈ xs ∧ x.Covers before c
  uncovered : ∀ before c after, source = before ++ String.singleton c ++ after →
    (∀ x ∈ xs, ¬ x.Covers before c) → Text.isBlank c = true ∨ ¬ InAlphabet c

/-! ## Characters and bytes -/

theorem width_append (cs ds : List Char) : width (cs ++ ds) = width cs + width ds := by
  induction cs with
  | nil => simp
  | cons c cs ih => rw [List.cons_append, width_cons, width_cons, ih, Nat.add_assoc]

theorem utf8ByteSize_eq_width (s : String) : s.utf8ByteSize = width s.toList := by
  have hlen : ∀ cs : List Char, (String.ofList cs).utf8ByteSize = width cs := by
    intro cs
    induction cs with
    | nil => rfl
    | cons c cs ih => rw [String.ofList_cons, String.utf8ByteSize_append, ih,
        String.utf8ByteSize_singleton, width_cons]
  rw [← hlen, String.ofList_toList]

theorem isGap_eq_false_iff {c : Char} : (CharClass.of c).isGap = false ↔ Significant c := by
  rw [Significant, ← or_assoc, ← CharClass.of_eq_paren_iff, ← CharClass.of_eq_letter_iff,
    ← CharClass.of_eq_digit_iff]
  cases CharClass.of c <;> simp [CharClass.isGap]

/-- A significant character inside a span is one of the characters of its text. -/
theorem mem_of_width_le {before after outer run behind : List Char} {c : Char}
    (h : before ++ c :: after = outer ++ (run ++ behind)) (hstart : width outer ≤ width before)
    (hstop : width before + c.utf8Size ≤ width outer + width run) :
    ∃ front back, before = outer ++ front ∧ run = front ++ c :: back := by
  have hc := c.utf8Size_pos
  obtain ⟨front, rfl, hfront⟩ : ∃ front, before = outer ++ front ∧
      front ++ c :: after = run ++ behind := by
    rcases List.append_eq_append_iff.mp h with ⟨extra, houter, hrest⟩ | ⟨front, rfl, hrest⟩
    · cases extra with
      | nil => exact ⟨[], by simpa using houter.symm, by simpa using hrest⟩
      | cons d extra =>
        have hd := d.utf8Size_pos
        rw [houter, width_append, width_cons] at hstart
        omega
    · exact ⟨front, rfl, hrest.symm⟩
  rw [width_append] at hstop
  rcases List.append_eq_append_iff.mp hfront with ⟨more, rfl, hrest⟩ | ⟨more, rfl, -⟩
  · cases more with
    | nil =>
      rw [List.append_nil] at hstop
      omega
    | cons d more =>
      obtain rfl : c = d := (List.cons.inj hrest).1
      exact ⟨front, more, rfl, rfl⟩
  · rw [width_append] at hstop
    omega

namespace Token

theorem extends_iff {t : Token} {c : Char} :
    t.Extends c ↔ (CharClass.of c).isRun = true ∧ t.charClass = CharClass.of c := by
  cases t with
  | paren d => cases CharClass.of c <;> simp [Extends, charClass, CharClass.isRun]
  | name run =>
    rw [Extends, ← CharClass.of_eq_letter_iff]
    cases CharClass.of c <;> simp [charClass, CharClass.isRun]
  | number run =>
    rw [Extends, ← CharClass.of_eq_digit_iff]
    cases CharClass.of c <;> simp [charClass, CharClass.isRun]

theorem of_mem_spelling {t : Token} (h : t.Lexed) :
    ∀ c ∈ t.spelling.toList, CharClass.of c = t.charClass := by
  cases t with
  | paren d => simpa [spelling, charClass] using CharClass.of_eq_paren_iff.mpr h
  | name run => exact fun c hc => CharClass.of_eq_letter_iff.mpr (h.2 c hc)
  | number run => exact fun c hc => CharClass.of_eq_digit_iff.mpr (h.2 c hc)

theorem spelling_ne_nil {t : Token} (h : t.Lexed) : t.spelling.toList ≠ [] := by
  cases t with
  | paren d => simp [spelling]
  | name run => simpa [spelling] using h.1
  | number run => simpa [spelling] using h.1

theorem eq_of_spelling_eq {t u : Token} (hclass : t.charClass = u.charClass)
    (h : t.spelling.toList = u.spelling.toList) : t = u := by
  have hspelling : t.spelling = u.spelling := String.toList_inj.mp h
  cases t <;> cases u <;> simp_all [charClass, spelling]

theorem toList_spelling_push {t : Token} {c : Char} (h : t.Extends c) :
    (t.push c).spelling.toList = c :: t.spelling.toList := by
  cases t with
  | paren d => exact h.elim
  | name run => simp [push, spelling]
  | number run => simp [push, spelling]

theorem toList_spelling_ofChar (c : Char) : (ofChar c).spelling.toList = [c] := by
  unfold ofChar
  split <;> simp [spelling]

/-- A character of a run of two or more would make such a run longer. -/
theorem extends_of_mem {t u : Token} (h : t.Lexed) (hlength : 2 ≤ t.spelling.toList.length)
    (hclass : u.charClass = t.charClass) {c : Char} (hc : c ∈ t.spelling.toList) : u.Extends c := by
  rw [extends_iff, hclass, of_mem_spelling h c hc]
  cases t with
  | paren d => simp [spelling] at hlength
  | name run => exact ⟨rfl, rfl⟩
  | number run => exact ⟨rfl, rfl⟩

theorem extends_push {t : Token} {c d : Char} : (t.push c).Extends d ↔ t.Extends d := by
  rw [extends_iff, extends_iff, charClass_push]

end Token

namespace Lexeme

/-! ## The lexer's answer -/

/-- Where a lexeme stands in a text that begins at byte `start`: a whole token, which the texts
    on both sides do not make longer. -/
structure Placed (x : Lexeme) (start : Nat) (cs before after : List Char) : Prop where
  text : cs = before ++ (x.token.spelling.toList ++ after)
  start_eq : x.start = start + width before
  stop_eq : x.stop = x.start + width x.token.spelling.toList
  lexed : x.token.Lexed
  left : ∀ c ∈ before.getLast?, ¬ x.token.Extends c
  right : ∀ c ∈ after.head?, ¬ x.token.Extends c

namespace Placed

variable {x y : Lexeme} {start : Nat} {cs before after : List Char}

theorem nonempty (h : x.Placed start cs before after) : x.start < x.stop := by
  obtain ⟨c, run, hrun⟩ := List.exists_cons_of_ne_nil (Token.spelling_ne_nil h.lexed)
  have hstop := h.stop_eq
  have hc := c.utf8Size_pos
  rw [hrun, width_cons] at hstop
  omega

/-- One more character in front of the text. -/
theorem cons {c : Char} (h : x.Placed (start + c.utf8Size) cs before after)
    (hfirst : before = [] → ¬ x.token.Extends c) :
    x.Placed start (c :: cs) (c :: before) after where
  text := by rw [h.text, List.cons_append]
  start_eq := by rw [h.start_eq, width_cons, Nat.add_assoc]
  stop_eq := h.stop_eq
  lexed := h.lexed
  left := by
    cases before with
    | nil => simpa using hfirst rfl
    | cons d before => simpa [List.getLast?_cons_cons] using h.left
  right := h.right

/-- A run that stands at the beginning takes in the character in front of it. -/
theorem push {c : Char} (h : x.Placed (start + c.utf8Size) cs before after)
    (hstart : x.start = start + c.utf8Size) (hc : x.token.Extends c) :
    Placed ⟨x.token.push c, start, x.stop⟩ start (c :: cs) [] after := by
  have hbefore : before = [] := by
    cases before with
    | nil => rfl
    | cons d before =>
      have hd := d.utf8Size_pos
      have hplace := h.start_eq
      rw [width_cons] at hplace
      omega
  subst hbefore
  refine ⟨?_, rfl, ?_, Token.lexed_push h.lexed (Token.extends_iff.mp hc).2, nofun, ?_⟩
  · rw [Token.toList_spelling_push hc, h.text]
    rfl
  · rw [Token.toList_spelling_push hc, h.stop_eq, hstart, width_cons, Nat.add_assoc]
  · simpa only [Token.extends_push] using h.right

end Placed

theorem disjoint_scan (cs : List Char) : ∀ start,
    (∀ x ∈ scan start cs, x.start < x.stop) ∧
      (scan start cs).Pairwise fun x y => x.stop ≤ y.start := by
  induction cs with
  | nil => intro start; exact ⟨nofun, .nil⟩
  | cons c cs ih =>
    intro start
    obtain ⟨hnonempty, hdisjoint⟩ := ih (start + c.utf8Size)
    have hc := c.utf8Size_pos
    rw [scan_cons]
    rcases attach_cases start c (scan (start + c.utf8Size) cs) with
      ⟨-, heq⟩ | ⟨x, others, hlater, hstart, -, heq⟩ | ⟨-, heq⟩
    · rw [heq]
      exact ⟨hnonempty, hdisjoint⟩
    · rw [hlater] at hnonempty hdisjoint
      obtain ⟨hx, hothers⟩ := List.forall_mem_cons.mp hnonempty
      obtain ⟨hbehind, hdisjoint⟩ := List.pairwise_cons.mp hdisjoint
      rw [heq]
      exact ⟨List.forall_mem_cons.mpr ⟨by simp only; omega, hothers⟩,
        List.pairwise_cons.mpr ⟨hbehind, hdisjoint⟩⟩
    · rw [heq]
      exact ⟨List.forall_mem_cons.mpr ⟨by simp only; omega, hnonempty⟩,
        List.pairwise_cons.mpr ⟨start_le_of_mem_scan cs (Nat.le_refl _), hdisjoint⟩⟩

/-- Only the first lexeme begins where the text does. -/
theorem head_of_start {start : Nat} {cs : List Char} {x : Lexeme} (hx : x ∈ scan start cs)
    (hstart : x.start = start) : (scan start cs).head? = some x := by
  obtain ⟨hnonempty, hdisjoint⟩ := disjoint_scan cs start
  have hle := start_le_of_mem_scan cs (Nat.le_refl start)
  cases hscan : scan start cs with
  | nil => rw [hscan] at hx; cases hx
  | cons first others =>
    rw [hscan] at hx hnonempty hdisjoint hle
    rcases List.mem_cons.mp hx with rfl | hx
    · rfl
    · have hbehind := (List.pairwise_cons.mp hdisjoint).1 x hx
      have hfirst := hnonempty first List.mem_cons_self
      have hfirstle := hle first List.mem_cons_self
      omega

/-- A character that takes nothing of the lexemes behind it makes none of them longer. -/
theorem Placed.cons_of_not_meets {x : Lexeme} {start : Nat} {c : Char} {cs before after : List Char}
    (hm : ¬ Meets (start + c.utf8Size) c (scan (start + c.utf8Size) cs))
    (hx : x ∈ scan (start + c.utf8Size) cs)
    (h : x.Placed (start + c.utf8Size) cs before after) :
    x.Placed start (c :: cs) (c :: before) after := by
  refine h.cons ?_
  rintro rfl hextends
  obtain ⟨hrun, hclass⟩ := Token.extends_iff.mp hextends
  exact hm ⟨hrun, x, head_of_start hx h.start_eq, h.start_eq, hclass⟩

theorem Placed.ofChar {start : Nat} {c : Char} {cs : List Char}
    (hgap : (CharClass.of c).isGap = false)
    (hm : ¬ Meets (start + c.utf8Size) c (scan (start + c.utf8Size) cs)) :
    Placed ⟨Token.ofChar c, start, start + c.utf8Size⟩ start (c :: cs) [] cs where
  text := by simp [Token.toList_spelling_ofChar]
  start_eq := rfl
  stop_eq := by simp [Token.toList_spelling_ofChar]
  lexed := Token.lexed_ofChar hgap
  left := nofun
  right := by
    intro d hd hextends
    obtain ⟨hrun, hclass⟩ := Token.extends_iff.mp hextends
    rw [Token.charClass_ofChar hgap] at hclass
    exact hm (meets_scan.mpr ⟨hclass ▸ hrun, d, hd, hclass.symm⟩)

/-- Each lexeme stands where its span says, and is as long as it can be. -/
theorem placed_scan (cs : List Char) : ∀ start, ∀ x ∈ scan start cs,
    ∃ before after, x.Placed start cs before after := by
  induction cs with
  | nil => intro start x hx; cases hx
  | cons c cs ih =>
    intro start
    have hlater := ih (start + c.utf8Size)
    by_cases hm : Meets (start + c.utf8Size) c (scan (start + c.utf8Size) cs)
    · -- the first lexeme grows; the others begin behind it
      obtain ⟨hrun, x, hx, hstart, hclass⟩ := id hm
      obtain ⟨others, hscan⟩ : ∃ others, scan (start + c.utf8Size) cs = x :: others :=
        ⟨_, List.eq_cons_of_mem_head? hx⟩
      have hdisjoint := disjoint_scan cs (start + c.utf8Size)
      rw [hscan] at hm hlater hdisjoint
      obtain ⟨⟨before, after, hplaced⟩, hothers⟩ := List.forall_mem_cons.mp hlater
      rw [scan_cons, hscan, attach_meets hm]
      refine List.forall_mem_cons.mpr
        ⟨⟨[], after, hplaced.push hstart (Token.extends_iff.mpr ⟨hrun, hclass⟩)⟩, fun y hy => ?_⟩
      obtain ⟨before, after, hplaced⟩ := hothers y hy
      refine ⟨c :: before, after, hplaced.cons ?_⟩
      rintro rfl
      have hbehind := (List.pairwise_cons.mp hdisjoint.2).1 y hy
      have hfirst := hdisjoint.1 x List.mem_cons_self
      have hstart' := hplaced.start_eq
      rw [width_nil] at hstart'
      omega
    · have hothers : ∀ x ∈ scan (start + c.utf8Size) cs,
          ∃ before after, x.Placed start (c :: cs) before after := fun x hx => by
        obtain ⟨before, after, hplaced⟩ := hlater x hx
        exact ⟨c :: before, after, hplaced.cons_of_not_meets hm hx⟩
      rw [scan_cons]
      cases hgap : (CharClass.of c).isGap with
      | true => rwa [attach_gap hgap]
      | false =>
        rw [attach_new hgap hm]
        exact List.forall_mem_cons.mpr ⟨⟨[], cs, .ofChar hgap hm⟩, hothers⟩

/-- What a lexeme covers stays covered when a character comes before it. -/
theorem covered_attach (start : Nat) (c : Char) {later : List Lexeme} {x : Lexeme}
    (hx : x ∈ later) : ∃ y ∈ attach start c later, y.start ≤ x.start ∧ x.stop ≤ y.stop := by
  rcases attach_cases start c later with ⟨-, heq⟩ | ⟨y, others, rfl, hstart, -, heq⟩ | ⟨-, heq⟩
  · exact ⟨x, by rwa [heq], Nat.le_refl _, Nat.le_refl _⟩
  · rw [heq]
    rcases List.mem_cons.mp hx with rfl | hx
    · exact ⟨_, List.mem_cons_self, by simp only; omega, Nat.le_refl _⟩
    · exact ⟨x, List.mem_cons_of_mem _ hx, Nat.le_refl _, Nat.le_refl _⟩
  · exact ⟨x, by rw [heq]; exact List.mem_cons_of_mem _ hx, Nat.le_refl _, Nat.le_refl _⟩

/-- A significant character is in a lexeme. -/
theorem covered_scan {c : Char} (hc : (CharClass.of c).isGap = false) (after : List Char) :
    ∀ (before : List Char) (start : Nat), ∃ x ∈ scan start (before ++ c :: after),
      x.start ≤ start + width before ∧ start + width before + c.utf8Size ≤ x.stop := by
  intro before
  induction before with
  | nil =>
    intro start
    have hlater := disjoint_scan after (start + c.utf8Size)
    rw [List.nil_append, scan_cons]
    rcases attach_cases start c (scan (start + c.utf8Size) after) with
      ⟨hgap, -⟩ | ⟨x, others, hscan, hstart, -, heq⟩ | ⟨-, heq⟩
    · rw [hc] at hgap
      cases hgap
    · have hx := hlater.1 x (by simp [hscan])
      exact ⟨_, heq ▸ List.mem_cons_self, by simp, by simp only [width_nil]; omega⟩
    · exact ⟨_, heq ▸ List.mem_cons_self, by simp, by simp⟩
  | cons d before ih =>
    intro start
    obtain ⟨x, hx, hstart, hstop⟩ := ih (start + d.utf8Size)
    obtain ⟨y, hy, hle, hge⟩ := covered_attach start d hx
    refine ⟨y, hy, ?_, ?_⟩ <;> rw [width_cons] <;> omega

/-! ## One lexing -/

namespace Placed

variable {x y : Lexeme} {cs before after outer behind : List Char}

/-- Of two whole tokens of one class that begin at one place, neither goes on behind the other. -/
theorem spelling_eq_append (hx : x.Placed 0 cs before after) (hy : y.token.Lexed)
    (hclass : x.token.charClass = y.token.charClass) {more : List Char}
    (hmore : y.token.spelling.toList = x.token.spelling.toList ++ more)
    (hafter : after = more ++ behind) : more = [] := by
  cases more with
  | nil => rfl
  | cons d more =>
    have hpos := List.length_pos_iff.mpr (Token.spelling_ne_nil hx.lexed)
    refine absurd ?_ (hx.right d (by simp [hafter]))
    refine Token.extends_of_mem hy ?_ hclass (by simp [hmore])
    simp only [hmore, List.length_append, List.length_cons]
    omega

/-- Whole tokens of one class that begin at one place are equal. -/
theorem token_eq (hx : x.Placed 0 cs before after) (hy : y.Placed 0 cs before behind)
    (hclass : x.token.charClass = y.token.charClass) : x.token = y.token := by
  refine Token.eq_of_spelling_eq hclass ?_
  have htexts := List.append_cancel_left (hx.text.symm.trans hy.text)
  rcases List.append_eq_append_iff.mp htexts with ⟨more, hmore, hafter⟩ | ⟨more, hmore, hbehind⟩
  · rw [hmore, hx.spelling_eq_append hy.lexed hclass hmore hafter, List.append_nil]
  · rw [hmore, hy.spelling_eq_append hx.lexed hclass.symm hmore hbehind, List.append_nil]

/-- A lexeme that contains the first character of another is that one. -/
theorem eq_of_covers (hx : x.Placed 0 cs before after) (hy : y.Placed 0 cs outer behind)
    {c : Char} {run : List Char} (hrun : x.token.spelling.toList = c :: run)
    (hstart : y.start ≤ x.start) (hstop : x.start + c.utf8Size ≤ y.stop) : x = y := by
  have htext : before ++ c :: (run ++ after) = outer ++ (y.token.spelling.toList ++ behind) := by
    rw [← List.cons_append, ← hrun, ← hx.text, hy.text]
  rw [hx.start_eq, Nat.zero_add] at hstart hstop
  rw [hy.stop_eq, hy.start_eq, Nat.zero_add] at hstop
  rw [hy.start_eq, Nat.zero_add] at hstart
  obtain ⟨front, back, rfl, hspelling⟩ := mem_of_width_le htext hstart hstop
  have hclass : x.token.charClass = y.token.charClass := by
    rw [← Token.of_mem_spelling hx.lexed c (by simp [hrun]),
      ← Token.of_mem_spelling hy.lexed c (by simp [hspelling])]
  -- what of `y` stands before `x` would make `x` longer
  have hfront : front = [] := by
    rcases List.eq_nil_or_concat front with rfl | ⟨first, d, rfl⟩
    · rfl
    · refine absurd ?_ (hx.left d (by simp))
      exact Token.extends_of_mem hy.lexed (by simp [hspelling]; omega) hclass (by simp [hspelling])
  subst hfront
  rw [List.append_nil] at hx
  have htoken := hx.token_eq hy hclass
  have hplace : x.start = y.start := by rw [hx.start_eq, hy.start_eq]
  have hend : x.stop = y.stop := by rw [hx.stop_eq, hy.stop_eq, hplace, htoken]
  obtain ⟨xtoken, xstart, xstop⟩ := x
  obtain ⟨ytoken, ystart, ystop⟩ := y
  simp_all

end Placed

theorem StandsBetween.placed {x : Lexeme} {source before after : String}
    (h : x.StandsBetween source before after) (hlexed : x.token.Lexed)
    (hleft : ∀ c ∈ before.toList.getLast?, ¬ x.token.Extends c)
    (hright : ∀ c ∈ after.toList.head?, ¬ x.token.Extends c) :
    x.Placed 0 source.toList before.toList after.toList where
  text := by simp [h.source_eq]
  start_eq := by rw [h.start_eq, utf8ByteSize_eq_width, Nat.zero_add]
  stop_eq := by rw [h.stop_eq, h.start_eq, String.utf8ByteSize_append, utf8ByteSize_eq_width,
    utf8ByteSize_eq_width]
  lexed := hlexed
  left := hleft
  right := hright

theorem Placed.standsBetween {x : Lexeme} {source : String} {before after : List Char}
    (h : x.Placed 0 source.toList before after) :
    x.StandsBetween source (String.ofList before) (String.ofList after) where
  source_eq := by rw [← String.toList_inj, h.text]; simp
  start_eq := by rw [h.start_eq, utf8ByteSize_eq_width, String.toList_ofList, Nat.zero_add]
  stop_eq := by rw [h.stop_eq, h.start_eq, String.utf8ByteSize_append, utf8ByteSize_eq_width,
    utf8ByteSize_eq_width, String.toList_ofList, Nat.zero_add]

end Lexeme

namespace Lexing

variable {source : String} {xs ys : List Lexeme}

theorem placed (h : Lexing source xs) {x : Lexeme} (hx : x ∈ xs) :
    ∃ before after, x.Placed 0 source.toList before after := by
  obtain ⟨hlexed, before, after, hstands, hleft, hright⟩ := h.maximal x hx
  exact ⟨_, _, hstands.placed hlexed hleft hright⟩

theorem subset (hxs : Lexing source xs) (hys : Lexing source ys) : xs ⊆ ys := by
  intro x hx
  obtain ⟨before, after, hplaced⟩ := hxs.placed hx
  obtain ⟨c, run, hrun⟩ := List.exists_cons_of_ne_nil (Token.spelling_ne_nil hplaced.lexed)
  have hc : Significant c := by
    rw [← isGap_eq_false_iff, Token.of_mem_spelling hplaced.lexed c (by simp [hrun])]
    cases x.token <;> rfl
  have hsource : source =
      String.ofList before ++ String.singleton c ++ String.ofList (run ++ after) := by
    rw [← String.toList_inj, hplaced.text, hrun]
    simp
  obtain ⟨y, ⟨hy, hstart, hstop⟩, -⟩ := hys.covered _ c _ hsource hc
  obtain ⟨outer, behind, hyplaced⟩ := hys.placed hy
  rw [utf8ByteSize_eq_width, String.toList_ofList] at hstart hstop
  rw [← Nat.zero_add (width before), ← hplaced.start_eq] at hstart hstop
  rwa [hplaced.eq_of_covers hyplaced hrun hstart hstop]

theorem increasing (h : Lexing source xs) : xs.Pairwise fun x y => x.start < y.start :=
  h.disjoint.imp_of_mem fun {x _} hx _ hle => Nat.lt_of_lt_of_le (h.nonempty x hx) hle

/-- There is one lexing of a text. -/
theorem eq (hxs : Lexing source xs) (hys : Lexing source ys) : xs = ys := by
  have : Std.Irrefl fun x y : Lexeme => x.start < y.start := ⟨fun _ => Nat.lt_irrefl _⟩
  have : Std.Antisymm fun x y : Lexeme => x.start < y.start :=
    ⟨fun _ _ h h' => absurd h' (Nat.lt_asymm h)⟩
  exact hxs.increasing.eq_of_mem_iff hys.increasing fun x =>
    ⟨fun hx => hxs.subset hys hx, fun hx => hys.subset hxs hx⟩

end Lexing

/-- The lexemes that are found are a lexing of the text. -/
theorem lexing_scan (source : String) : Lexing source (Lexeme.scan 0 source.toList) := by
  obtain ⟨hnonempty, hdisjoint⟩ := Lexeme.disjoint_scan source.toList 0
  have hcovered : ∀ before c after, source = before ++ String.singleton c ++ after →
      Significant c → ∃ x ∈ Lexeme.scan 0 source.toList, x.Covers before c := by
    intro before c after hsource hc
    have hscan := Lexeme.covered_scan (isGap_eq_false_iff.mpr hc) after.toList before.toList 0
    rw [Nat.zero_add, ← utf8ByteSize_eq_width] at hscan
    simpa [hsource, Lexeme.Covers] using hscan
  refine ⟨hnonempty, hdisjoint, fun x hx => ?_, fun before c after hsource hc => ?_,
    fun before c after hsource hnone => ?_⟩
  · obtain ⟨before, after, hplaced⟩ := Lexeme.placed_scan source.toList 0 x hx
    refine ⟨hplaced.lexed, _, _, hplaced.standsBetween, ?_, ?_⟩
    · simpa using hplaced.left
    · simpa using hplaced.right
  · obtain ⟨x, hx, hcover⟩ := hcovered before c after hsource hc
    refine ⟨x, ⟨hx, hcover⟩, fun y ⟨hy, hcover'⟩ => ?_⟩
    have hapart : (Lexeme.scan 0 source.toList).Pairwise fun x y =>
        ¬ (x.Covers before c ∧ y.Covers before c) := hdisjoint.imp fun hle ⟨hx, hy⟩ => by
      have hpos := c.utf8Size_pos
      have hxstop := hx.2
      have hystart := hy.1
      omega
    have hsymm : Std.Symm fun x y : Lexeme => ¬ (x.Covers before c ∧ y.Covers before c) :=
      ⟨fun _ _ h h' => h h'.symm⟩
    by_contra hne
    exact hapart.forall hy hx hne ⟨hcover', hcover⟩
  · by_cases hc : Significant c
    · obtain ⟨x, hx, hcover⟩ := hcovered before c after hsource hc
      exact absurd hcover (hnone x hx)
    · simp only [Significant, InAlphabet] at hc ⊢
      tauto

/-- Whenever a text is lexed, under either policy, the answer is the one lexing of the text. -/
theorem lexing_iff {policy : StrayPolicy} {source : String} {xs : List Lexeme}
    (h : lexemes policy source = .ok xs) (ys : List Lexeme) : Lexing source ys ↔ ys = xs := by
  have hxs : xs = Lexeme.scan 0 source.toList := by
    cases policy with
    | skip => exact (Except.ok.inj h).symm
    | reject =>
      rw [lexemes] at h
      split at h
      · cases h
      · exact (Except.ok.inj h).symm
  rw [hxs]
  exact ⟨fun hys => hys.eq (lexing_scan source), fun hys => hys ▸ lexing_scan source⟩

/-- Letters, digits, a blank of three bytes and a stray of four: the spans count bytes. -/
theorem a_wide_blank_moves_the_spans :
    let found : List Lexeme := [⟨.paren '(', 0, 1⟩, ⟨.name "ab", 1, 3⟩, ⟨.number "07", 6, 8⟩,
      ⟨.name "c", 12, 13⟩]
    lexemes .skip "(ab\u300007😀c" = .ok found ∧ ∀ ys, Lexing "(ab\u300007😀c" ys ↔ ys = found := by
  intro found
  have h : lexemes .skip "(ab\u300007😀c" = .ok found := by decide +kernel
  exact ⟨h, lexing_iff h⟩

end CallForm
