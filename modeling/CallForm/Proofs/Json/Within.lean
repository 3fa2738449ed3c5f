/-
  CallForm.Proofs.Json.Within — values read within a longer text.

  What a reader takes from a text it takes also where more text follows, and then leaves that
  too (`readValue_append`). Only a number at the very end of the text asks for something: what
  follows must not go on with it (`Parted`). The nesting that is allowed counts only in so far
  as the value keeps to it (`readDeeper_append`). So a text that spells a value (`Spells`) is
  read as this value wherever it stands (`Spells.readValue_eq`).
-/

import Mathlib.Data.List.TakeWhile
import CallForm.Proofs.Json.Reading

namespace CallForm

theorem bind_eq_ok {ε α β : Type} {x : Except ε α} {f : α → Except ε β} {b : β} :
    x >>= f = .ok b ↔ ∃ a, x = .ok a ∧ f a = .ok b := by
  cases x <;> simp [bind, Except.bind]

theorem bind_ok_eq_ok {ε α β : Type} {x : Except ε α} {f : α → β} {b : β} :
    (x >>= fun a => .ok (f a)) = .ok b ↔ ∃ a, x = .ok a ∧ f a = b := by
  cases x <;> simp [bind, Except.bind]

theorem map_eq_ok {ε α β : Type} {x : Except ε α} {f : α → β} {b : β} :
    x.map f = .ok b ↔ ∃ a, x = .ok a ∧ f a = b := by
  cases x <;> simp [Except.map]

theorem mapError_eq_ok {ε δ α : Type} {x : Except ε α} {f : ε → δ} {a : α} :
    x.mapError f = .ok a ↔ x = .ok a := by
  cases x <;> constructor <;> intro h <;> cases h <;> rfl

namespace Json

theorem skipBlanks_append {cs rest : List Char} {c : Char} (h : skipBlanks cs = c :: rest)
    (more : List Char) : skipBlanks (cs ++ more) = c :: (rest ++ more) := by
  unfold skipBlanks at h ⊢
  rw [List.dropWhile_append, if_neg (by simp [h]), h, List.cons_append]

/-! ## Strings -/

theorem hasFourBytes_append {cs : List Char} (h : hasFourBytes cs = true) (more : List Char) :
    hasFourBytes (cs ++ more) = true := by
  simp only [hasFourBytes, ← List.sum_eq_foldl, List.take_append, List.map_append,
    List.sum_append, decide_eq_true_eq] at h ⊢
  omega

theorem readStringFrom_append {due : Due} {done cs s rest : List Char}
    (h : readStringFrom due done cs = .ok (s, rest)) (more : List Char) :
    readStringFrom due done (cs ++ more) = .ok (s, rest ++ more) := by
  fun_induction readStringFrom due done cs <;>
    simp_all +zetaDelta [readStringFrom, hasFourBytes_append]

theorem readString_append {cs rest : List Char} {s : String}
    (h : readString cs = .ok (s, rest)) (more : List Char) :
    readString (cs ++ more) = .ok (s, rest ++ more) := by
  obtain ⟨⟨chars, left⟩, hchars, hs⟩ := map_eq_ok.mp h
  obtain ⟨rfl, rfl⟩ := Prod.mk.inj hs
  rw [readString, readStringFrom_append hchars]
  rfl

/-! ## Numbers -/

/-- If no text is left after a number, then what follows does not go on with it. -/
def Parted (rest more : List Char) : Prop :=
  rest = [] → ∀ c ∈ more.head?, c.isDigit = false ∧ c ≠ '.' ∧ c ≠ 'e' ∧ c ≠ 'E'

theorem digits_append {cs more : List Char} (h : Parted (cs.dropWhile Char.isDigit) more) :
    (cs ++ more).takeWhile Char.isDigit = cs.takeWhile Char.isDigit ∧
      (cs ++ more).dropWhile Char.isDigit = cs.dropWhile Char.isDigit ++ more := by
  induction cs with
  | nil =>
    cases more with
    | nil => simp
    | cons c more => simp [(h rfl c rfl).1]
  | cons c cs ih =>
    cases hc : c.isDigit with
    | true =>
      rw [List.dropWhile_cons, if_pos hc] at h
      simp [hc, ih h]
    | false => simp [hc]

theorem readDigits_append {cs ds rest more : List Char} (h : readDigits cs = .ok (ds, rest))
    (hparted : Parted rest more) : readDigits (cs ++ more) = .ok (ds, rest ++ more) := by
  unfold readDigits at h ⊢
  split at h
  · cases h
  · next hne =>
    obtain ⟨rfl, rfl⟩ := Prod.mk.inj (Except.ok.inj h)
    obtain ⟨htake, hdrop⟩ := digits_append hparted
    rw [htake, hdrop]
    split
    · exact absurd ‹_› hne
    · rfl

theorem readWhole_append {cs ds rest more : List Char} (h : readWhole cs = .ok (ds, rest))
    (hparted : Parted rest more) : readWhole (cs ++ more) = .ok (ds, rest ++ more) := by
  obtain ⟨⟨ds', rest'⟩, hdigits, hzero⟩ := bind_eq_ok.mp h
  dsimp only at hzero
  split at hzero
  · cases hzero
  · next hfits =>
    obtain ⟨rfl, rfl⟩ := Prod.mk.inj (Except.ok.inj hzero)
    rw [readWhole, readDigits_append hdigits hparted]
    exact if_neg hfits

theorem readFraction_append {cs ds rest more : List Char} (h : readFraction cs = .ok (ds, rest))
    (hparted : Parted rest more) : readFraction (cs ++ more) = .ok (ds, rest ++ more) := by
  unfold readFraction at h
  split at h
  · exact readDigits_append h hparted
  · next hpoint =>
    obtain ⟨rfl, rfl⟩ := Prod.mk.inj (Except.ok.inj h)
    unfold readFraction
    split
    · next heq =>
      cases cs with
      | nil => exact absurd rfl (hparted rfl '.' (by rw [← List.nil_append more, heq]; rfl)).2.1
      | cons c cs => exact absurd (congrArg (· :: cs) (List.cons.inj heq).1) (hpoint cs)
    · rfl

/-- An exponent mark is there, and more of it behind it, or there is none. -/
theorem readExponentMark_append {cs mark rest more : List Char}
    (h : readExponentMark cs = (mark, rest)) (hparted : Parted rest more)
    (hmark : mark ≠ [] → rest ≠ []) : readExponentMark (cs ++ more) = (mark, rest ++ more) := by
  cases cs with
  | nil =>
    obtain ⟨rfl, rfl⟩ := Prod.mk.inj h
    cases more with
    | nil => rfl
    | cons c more =>
      obtain ⟨-, -, hlower, hupper⟩ := hparted rfl c rfl
      simp [readExponentMark, hlower, hupper]
  | cons c cs =>
    by_cases hc : c = 'e' ∨ c = 'E'
    · cases cs with
      | nil =>
        simp only [readExponentMark, if_pos hc] at h
        obtain ⟨rfl, rfl⟩ := Prod.mk.inj h
        exact absurd rfl (hmark (by simp))
      | cons d cs =>
        simp only [readExponentMark, if_pos hc, List.cons_append] at h ⊢
        split at h <;> obtain ⟨rfl, rfl⟩ := Prod.mk.inj h <;> simp [*]
    · simp only [readExponentMark, if_neg hc, List.cons_append] at h ⊢
      obtain ⟨rfl, rfl⟩ := Prod.mk.inj h
      rfl

theorem Parted.of_nil {rest rest' more : List Char} (h : Parted rest' more)
    (hrest : rest = [] → rest' = []) : Parted rest more := fun hnil => h (hrest hnil)

theorem ne_nil_of_readDigits {cs ds rest : List Char} (h : readDigits cs = .ok (ds, rest)) :
    cs ≠ [] := by
  rintro rfl
  cases h

/-- The exponent of a number, behind its mark. -/
theorem exponent_append {cs mark between ds rest more : List Char}
    (hmark : readExponentMark cs = (mark, between))
    (h : (if mark.isEmpty then .ok ([], between) else readDigits between) = .ok (ds, rest))
    (hparted : Parted rest more) :
    readExponentMark (cs ++ more) = (mark, between ++ more) ∧
      (if mark.isEmpty then .ok ([], between ++ more) else readDigits (between ++ more)) =
        (.ok (ds, rest ++ more) : Except Fault _) := by
  cases mark with
  | nil =>
    obtain ⟨rfl, rfl⟩ := Prod.mk.inj (Except.ok.inj h)
    exact ⟨readExponentMark_append hmark hparted nofun, rfl⟩
  | cons c mark =>
    have hne := ne_nil_of_readDigits h
    exact ⟨readExponentMark_append hmark (fun hnil => absurd hnil hne) fun _ => hne,
      readDigits_append h hparted⟩

/-- A number part by part, with the text that each part leaves. -/
theorem readNumeral_eq_ok {cs rest : List Char} {n : Numeral} :
    readNumeral cs = .ok (n, rest) ↔
      ∃ cs₁ cs₂ cs₃,
        readWhole (if cs.head? = some '-' then cs.drop 1 else cs) = .ok (n.whole, cs₁) ∧
        readFraction cs₁ = .ok (n.fraction, cs₂) ∧ readExponentMark cs₂ = (n.mark, cs₃) ∧
        (if n.mark.isEmpty then .ok ([], cs₃) else readDigits cs₃) = .ok (n.exponent, rest) ∧
        decide (cs.head? = some '-') = n.negative := by
  obtain ⟨negative, whole, fraction, mark, exponent⟩ := n
  simp only [readNumeral, bind_eq_ok, Prod.exists]
  constructor
  · rintro ⟨whole', cs₁, hwhole, fraction', cs₂, hfraction, h⟩
    cases hmark : readExponentMark cs₂ with
    | mk mark' cs₃ =>
      rw [hmark] at h
      split at h <;> simp only [bind_eq_ok, Prod.exists] at h <;>
        obtain ⟨exponent', left, hexponent, h⟩ := h <;> cases h <;>
        exact ⟨cs₁, cs₂, cs₃, hwhole, hfraction, hmark, by simp [*], rfl⟩
  · rintro ⟨cs₁, cs₂, cs₃, hwhole, hfraction, hmark, hexponent, rfl⟩
    refine ⟨whole, cs₁, hwhole, fraction, cs₂, hfraction, ?_⟩
    rw [hmark]
    split at hexponent
    · cases hexponent
      simp [*, bind, Except.bind]
    · simp [*, bind, Except.bind]

theorem readNumeral_append {cs rest more : List Char} {n : Numeral}
    (h : readNumeral cs = .ok (n, rest)) (hcs : cs ≠ []) (hparted : Parted rest more) :
    readNumeral (cs ++ more) = .ok (n, rest ++ more) := by
  obtain ⟨cs₁, cs₂, cs₃, hwhole, hfraction, hmark, hexponent, hnegative⟩ := readNumeral_eq_ok.mp h
  -- what a part leaves is not empty if what the next one leaves is not
  have hparted₂ : Parted cs₂ more := by
    refine hparted.of_nil ?_
    rintro rfl
    obtain ⟨hnil, rfl⟩ := Prod.mk.inj hmark
    rw [← hnil] at hexponent
    exact (Prod.mk.inj (Except.ok.inj hexponent)).2.symm
  have hparted₁ : Parted cs₁ more := by
    refine hparted₂.of_nil ?_
    rintro rfl
    exact (Prod.mk.inj (Except.ok.inj hfraction)).2.symm
  obtain ⟨hmark', hexponent'⟩ := exponent_append hmark hexponent hparted
  obtain ⟨c, tail, rfl⟩ := List.exists_cons_of_ne_nil hcs
  have hhead : (c :: tail ++ more).head? = (c :: tail).head? := rfl
  refine readNumeral_eq_ok.mpr ⟨cs₁ ++ more, cs₂ ++ more, cs₃ ++ more, ?_,
    readFraction_append hfraction hparted₂, hmark', hexponent', hnegative⟩
  have hwhole' := readWhole_append hwhole hparted₁
  rw [hhead]
  split
  · next hminus => rwa [if_pos hminus] at hwhole'
  · next hminus => rwa [if_neg hminus] at hwhole'

theorem readNumber_append {cs rest more : List Char} {v : Json}
    (h : readNumber cs = .ok (v, rest)) (hcs : cs ≠ []) (hparted : Parted rest more) :
    readNumber (cs ++ more) = .ok (v, rest ++ more) := by
  obtain ⟨⟨n, left⟩, hnumeral, h⟩ := bind_eq_ok.mp h
  dsimp only at h
  split at h
  · obtain ⟨rfl, rfl⟩ := Prod.mk.inj (Except.ok.inj h)
    rw [readNumber, readNumeral_append hnumeral hcs hparted]
    exact if_pos ‹_›
  · cases h

/-! ## Lists -/

section

variable {ε α : Type} {item item' : List Char → Except ε (α × List Char)} {good : α → Prop}
  {more : List Char}

/-- What `item` takes from a text of which something is left, `item'` takes also where more
    follows, if it is `good`. -/
def Takes (item item' : List Char → Except ε (α × List Char)) (good : α → Prop)
    (more : List Char) : Prop :=
  ∀ ⦃cs a rest⦄, item cs = .ok (a, rest) → rest ≠ [] → good a →
    item' (cs ++ more) = .ok (a, rest ++ more)

variable {fault : Fault → ε} {close : Char} {cs rest : List Char} {as : List α}

theorem readItems_append (htakes : Takes item item' good more) {bound bound' : Nat}
    (h : readItems fault close item bound cs = .ok (as, rest)) (hgood : ∀ a ∈ as, good a)
    (hbound : bound ≤ bound') :
    readItems fault close item' bound' (cs ++ more) = .ok (as, rest ++ more) := by
  induction bound generalizing bound' cs as with
  | zero => cases h
  | succ bound ih =>
    obtain ⟨bound', rfl⟩ : ∃ b, bound' = b + 1 := ⟨bound' - 1, by omega⟩
    obtain ⟨⟨a, left⟩, hitem, h⟩ := bind_eq_ok.mp h
    dsimp only at h
    split at h
    · cases h
    · next c next hskip =>
      have hskip' := skipBlanks_append hskip more
      have hleft : left ≠ [] := by rintro rfl; cases hskip
      split at h
      · next hcomma =>
        obtain ⟨⟨others, end'⟩, hothers, h⟩ := bind_eq_ok.mp h
        obtain ⟨rfl, rfl⟩ := Prod.mk.inj (Except.ok.inj h)
        obtain ⟨ha, hgood⟩ := List.forall_mem_cons.mp hgood
        rw [readItems, htakes hitem hleft ha]
        simp [bind, Except.bind, hskip', hcomma, ih hothers hgood (Nat.le_of_succ_le_succ hbound)]
      · next hcomma =>
        split at h
        · next hclose =>
          obtain ⟨rfl, rfl⟩ := Prod.mk.inj (Except.ok.inj h)
          rw [readItems, htakes hitem hleft (hgood a (by simp))]
          simp [bind, Except.bind, hskip', hcomma, ← hclose]
        · cases h

theorem readList_append (htakes : Takes item item' good more)
    (h : readList fault close item cs = .ok (as, rest)) (hgood : ∀ a ∈ as, good a) :
    readList fault close item' (cs ++ more) = .ok (as, rest ++ more) := by
  unfold readList at h
  split at h
  · cases h
  · next c next hskip =>
    rw [readList, skipBlanks_append hskip]
    split at h
    · obtain ⟨rfl, rfl⟩ := Prod.mk.inj (Except.ok.inj h)
      simp [*]
    · have hbound : next.length + 1 ≤ (next ++ more).length + 1 := by simp
      have hitems := readItems_append htakes h hgood hbound
      simpa [*] using hitems

end

/-! ## Values -/

theorem readWord_append {letters cs rest : List Char} {v w : Json}
    (h : readWord letters v cs = .ok (w, rest)) (more : List Char) :
    readWord letters v (cs ++ more) = .ok (w, rest ++ more) := by
  induction letters generalizing cs with
  | nil =>
    obtain ⟨rfl, rfl⟩ := Prod.mk.inj (Except.ok.inj h)
    rfl
  | cons l letters ih =>
    cases cs with
    | nil => cases h
    | cons c cs =>
      rw [readWord] at h
      rw [List.cons_append, readWord]
      split at h
      · rw [if_pos ‹_›]
        exact ih h
      · cases h

theorem readName_append {cs rest : List Char} {name : String}
    (h : readName cs = .ok (name, rest)) (more : List Char) :
    readName (cs ++ more) = .ok (name, rest ++ more) := by
  unfold readName at h
  split at h
  · next left hskip =>
    obtain ⟨⟨name', behind⟩, hname, h⟩ := bind_eq_ok.mp h
    dsimp only at h
    split at h
    · next end' hcolon =>
      obtain ⟨rfl, rfl⟩ := Prod.mk.inj (Except.ok.inj h)
      rw [readName, skipBlanks_append hskip]
      simp [readString_append hname, skipBlanks_append hcolon, bind, Except.bind]
    · cases h
  · cases h

theorem takes_member {value value' : List Char → Except Fault (Json × List Char)}
    {good : Json → Prop} {more : List Char} (h : Takes value value' good more) :
    Takes (readMember value) (readMember value') (fun m => good m.2) more := by
  intro cs m rest hmember hrest hgood
  obtain ⟨⟨name, behind⟩, hname, hmember⟩ := bind_eq_ok.mp hmember
  obtain ⟨⟨v, left⟩, hvalue, hmember⟩ := bind_eq_ok.mp hmember
  obtain ⟨rfl, rfl⟩ := Prod.mk.inj (Except.ok.inj hmember)
  have hvalue' := h hvalue hrest hgood
  simp [readMember, readName_append hname, hvalue', bind, Except.bind]

theorem depth_of_array {items : List Json} {depth : Nat} (h : (array items).nesting ≤ depth) :
    ∃ d, depth = d + 1 ∧ ∀ v ∈ items, v.nesting ≤ d := by
  cases depth with
  | zero => simp [nesting] at h
  | succ d => exact ⟨d, rfl, nestingOfItems_le.mp (Nat.le_of_succ_le_succ h)⟩

theorem depth_of_object {members : List (String × Json)} {depth : Nat}
    (h : (object members).nesting ≤ depth) :
    ∃ d, depth = d + 1 ∧ ∀ m ∈ members, m.2.nesting ≤ d := by
  cases depth with
  | zero => simp [nesting] at h
  | succ d => exact ⟨d, rfl, nestingOfMembers_le.mp (Nat.le_of_succ_le_succ h)⟩

/-- A value made of a list, which takes up one level of the depth that is allowed. -/
def readDeeper {α : Type} (close : Char) (wrap : List α → Json)
    (item : Nat → List Char → Except Fault (α × List Char)) (depth : Nat) (cs : List Char) :
    Except Fault (Json × List Char) :=
  match depth with
  | 0 => .error .malformed
  | depth + 1 => (readList id close (item depth) cs).map fun r => (wrap r.1, r.2)

theorem readDeeper_append {α : Type} {close : Char} {wrap : List α → Json} {good : Nat → α → Prop}
    {item : Nat → List Char → Except Fault (α × List Char)} {depth depth' : Nat}
    {cs rest more : List Char} {v : Json}
    (htakes : ∀ d, depth = d + 1 → ∀ d', Takes (item d) (item d') (good d') more)
    (hwrap : ∀ {as d'}, (wrap as).nesting ≤ d' → ∃ d, d' = d + 1 ∧ ∀ a ∈ as, good d a)
    (h : readDeeper close wrap item depth cs = .ok (v, rest)) (hdepth : v.nesting ≤ depth') :
    readDeeper close wrap item depth' (cs ++ more) = .ok (v, rest ++ more) := by
  cases depth with
  | zero => cases h
  | succ depth =>
    obtain ⟨⟨as, behind⟩, hlist, h⟩ := map_eq_ok.mp h
    obtain ⟨rfl, rfl⟩ := Prod.mk.inj h
    obtain ⟨d, rfl, hgood⟩ := hwrap hdepth
    rw [readDeeper, readList_append (htakes depth rfl d) hlist hgood]
    rfl

theorem readValue_append_of_takes {depth depth' : Nat} {cs rest more : List Char} {v : Json}
    (htakes : ∀ d, depth = d + 1 → ∀ d',
      Takes (readValue d) (readValue d') (fun w => w.nesting ≤ d') more)
    (h : readValue depth cs = .ok (v, rest)) (hdepth : v.nesting ≤ depth')
    (hparted : Parted rest more) : readValue depth' (cs ++ more) = .ok (v, rest ++ more) := by
  rw [readValue.eq_def] at h ⊢
  split at h
  · cases h
  · next c left hskip =>
    rw [skipBlanks_append hskip]
    dsimp only
    by_cases hquote : c = '"'
    · rw [if_pos hquote] at h ⊢
      obtain ⟨⟨s, behind⟩, hs, h⟩ := map_eq_ok.mp h
      obtain ⟨rfl, rfl⟩ := Prod.mk.inj h
      rw [readString_append hs]
      rfl
    rw [if_neg hquote] at h ⊢
    by_cases hnull : c = 'n'
    · rw [if_pos hnull] at h ⊢
      exact readWord_append h more
    rw [if_neg hnull] at h ⊢
    by_cases htrue : c = 't'
    · rw [if_pos htrue] at h ⊢
      exact readWord_append h more
    rw [if_neg htrue] at h ⊢
    by_cases hfalse : c = 'f'
    · rw [if_pos hfalse] at h ⊢
      exact readWord_append h more
    rw [if_neg hfalse] at h ⊢
    by_cases hnumber : c = '-' ∨ c.isDigit
    · rw [if_pos hnumber] at h ⊢
      exact readNumber_append h (by simp) hparted
    rw [if_neg hnumber] at h ⊢
    by_cases hbracket : c = '['
    · rw [if_pos hbracket] at h ⊢
      have h : readDeeper ']' .array readValue depth left = .ok (v, rest) := h
      exact readDeeper_append htakes depth_of_array h hdepth
    rw [if_neg hbracket] at h ⊢
    by_cases hbrace : c = '\x7b'
    · rw [if_pos hbrace] at h ⊢
      have h : readDeeper '\x7d' .object (fun d => readMember (readValue d)) depth left =
        .ok (v, rest) := h
      exact readDeeper_append (fun d hd d' => takes_member (htakes d hd d')) depth_of_object h
        hdepth
    rw [if_neg hbrace] at h
    cases h

theorem readValue_append {depth depth' : Nat} {cs rest more : List Char} {v : Json}
    (h : readValue depth cs = .ok (v, rest)) (hdepth : v.nesting ≤ depth')
    (hparted : Parted rest more) : readValue depth' (cs ++ more) = .ok (v, rest ++ more) := by
  induction depth generalizing depth' cs v rest with
  | zero => exact readValue_append_of_takes (fun _ hd => absurd hd (by simp)) h hdepth hparted
  | succ depth ih =>
    refine readValue_append_of_takes (fun d hd d' => ?_) h hdepth hparted
    obtain rfl := Nat.succ.inj hd
    exact fun _ _ _ hitem hrest hkept => ih hitem hkept fun hnil => absurd hnil hrest

/-! ## Texts of a value -/

/-- The whole text is one of this value, however deep that nests. -/
def Spells (text : String) (v : Json) : Prop := ∃ depth, ofText depth text = .ok v

/-- What is written of a legible value is one of its texts. -/
theorem Legible.spells {v : Json} (h : Legible v) : Spells v.compact v := by
  refine ⟨v.nesting, ?_⟩
  rw [ofText, toList_compact v 0, h.readValue_eq .compact 0 v.nesting, limited,
    if_pos (Nat.le_refl _)]
  rfl

/-- Where the text of a value is followed by something that ends a number, if by anything, the
    value is read and only blanks are left before what follows. -/
theorem Spells.readValue_eq {text : String} {v : Json} (h : Spells text v) {depth : Nat}
    (hdepth : v.nesting ≤ depth) (more : List Char)
    (hmore : ∀ c ∈ more.head?, c.isDigit = false ∧ c ≠ '.' ∧ c ≠ 'e' ∧ c ≠ 'E') :
    ∃ blanks, Blank blanks ∧
      readValue depth (text.toList ++ more) = .ok (v, blanks ++ more) := by
  obtain ⟨depth', h⟩ := h
  obtain ⟨⟨w, blanks⟩, hread, hblanks⟩ := bind_eq_ok.mp h
  dsimp only at hblanks
  split at hblanks
  · next hempty =>
    obtain rfl := Except.ok.inj hblanks
    have hblank : Blank blanks := List.dropWhile_eq_nil_iff.mp (List.isEmpty_iff.mp hempty)
    exact ⟨blanks, hblank, readValue_append hread hdepth fun _ => hmore⟩
  · cases hblanks

/-! ## Values within brackets -/

theorem readValue_skipBlanks (depth : Nat) (cs : List Char) :
    readValue depth (skipBlanks cs) = readValue depth cs := by
  induction cs with
  | nil => rfl
  | cons c cs ih =>
    cases hc : isBlank c with
    | true =>
      have hskip : skipBlanks (c :: cs) = skipBlanks cs := List.dropWhile_cons_of_pos hc
      rw [hskip, ih, readValue.eq_def, readValue.eq_def depth (c :: cs), hskip]
    | false => rw [skipBlanks_cons hc]

/-- No value begins with a closing bracket. -/
theorem skipBlanks_of_readValue {depth : Nat} {cs rest : List Char} {v : Json}
    (h : readValue depth cs = .ok (v, rest)) :
    ∃ c left, skipBlanks cs = c :: left ∧ c ≠ ']' := by
  rw [readValue.eq_def] at h
  split at h
  · cases h
  · next c left hskip =>
    refine ⟨c, left, hskip, ?_⟩
    rintro rfl
    simp at h

/-- An array of one item, whatever text the item is given by. -/
theorem Spells.yields_array {text : String} {v : Json} (h : Spells text v) {depth : Nat}
    (hdepth : v.nesting ≤ depth) :
    Yields (readValue (depth + 1)) ('[' :: (text.toList ++ [']'])) (.ok (.array [v])) := by
  refine ⟨fun {bs} hbs rest => ?_, '[', _, rfl, rfl, by decide, by decide⟩
  obtain ⟨blanks, hblanks, hread⟩ := h.readValue_eq hdepth (']' :: rest) (by simp)
  obtain ⟨c, left, hskip, hc⟩ := skipBlanks_of_readValue hread
  rw [← readValue_skipBlanks, hskip] at hread
  have hend : skipBlanks (blanks ++ ']' :: rest) = ']' :: rest := by
    rw [hblanks.skip, skipBlanks_cons rfl]
  have hlist : readList id ']' (readValue depth) (text.toList ++ ']' :: rest) =
      .ok ([v], rest) := by
    simp [readList, hskip, hc, readItems, hread, hend, bind, Except.bind]
  have htext : ('[' :: (text.toList ++ [']'])) ++ rest = '[' :: (text.toList ++ ']' :: rest) := by
    simp
  rw [readValue.eq_def, hbs.skip, htext, skipBlanks_cons rfl]
  simp [hlist, Except.map]

theorem Yields.member {depth : Nat} {text : List Char} {v : Json} (name : String)
    (h : Yields (readValue depth) text (.ok v)) :
    Yields (readMember (readValue depth)) ((quoted name).toList ++ ':' :: text)
      (.ok (name, v)) := by
  refine ⟨fun {bs} hbs rest => ?_, ?_⟩
  · have hname := readName_quoted name hbs (text ++ rest)
    have hvalue := h.read Blank.nil rest
    rw [List.nil_append] at hvalue
    rw [readMember, List.append_assoc, List.cons_append, hname]
    simp [hvalue, bind, Except.bind, Except.map]
  · rw [toList_quoted, List.cons_append]
    exact ⟨'"', _, rfl, rfl, by decide, by decide⟩

end Json

end CallForm
