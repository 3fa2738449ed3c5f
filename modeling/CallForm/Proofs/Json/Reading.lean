/-
  CallForm.Proofs.Json.Reading — values read back from their text.

  A reader yields an outcome for a text if it has this outcome whatever blanks stand before the
  text and whatever follows it (`Yields`). From readers of the items follows what a list of
  items yields (`readList_between`): the list of the outcomes, or the first error.

  A value is legible if its text, in any layout, is read as the value where that nests no
  deeper than allowed, and is malformed where it does. Strings are legible, and arrays and
  objects of legible values.
-/

import CallForm.Proofs.Json.Layout
import CallForm.Proofs.Json.Strings

namespace CallForm.Json

/-! ## Nesting -/

mutual

/-- How deep arrays and objects nest. -/
def nesting : Json → Nat
  | .array items => nestingOfItems items + 1
  | .object members => nestingOfMembers members + 1
  | _ => 0

def nestingOfItems : List Json → Nat
  | [] => 0
  | item :: items => max (nesting item) (nestingOfItems items)

def nestingOfMembers : List (String × Json) → Nat
  | [] => 0
  | (_, value) :: members => max (nesting value) (nestingOfMembers members)

end

theorem nestingOfItems_le {depth : Nat} {items : List Json} :
    nestingOfItems items ≤ depth ↔ ∀ v ∈ items, v.nesting ≤ depth := by
  induction items with
  | nil => simp [nestingOfItems]
  | cons item items ih => rw [nestingOfItems, Nat.max_le, ih, List.forall_mem_cons]

theorem nestingOfMembers_le {depth : Nat} {members : List (String × Json)} :
    nestingOfMembers members ≤ depth ↔ ∀ m ∈ members, m.2.nesting ≤ depth := by
  induction members with
  | nil => simp [nestingOfMembers]
  | cons member members ih => rw [nestingOfMembers, Nat.max_le, ih, List.forall_mem_cons]

/-- The outcome of reading `a`, which stands for `v`, where `depth` levels are allowed. -/
def limited {α : Type} (depth : Nat) (v : Json) (a : α) : Except Fault α :=
  if v.nesting ≤ depth then .ok a else .error .malformed

theorem mapM_limited {α : Type} (depth : Nat) (value : α → Json) (xs : List α) :
    (xs.mapM fun x => limited depth (value x) x) =
      if ∀ x ∈ xs, (value x).nesting ≤ depth then .ok xs else .error .malformed := by
  induction xs with
  | nil => rfl
  | cons x xs ih =>
    rw [List.mapM_cons, ih, limited]
    simp only [List.forall_mem_cons]
    by_cases hx : (value x).nesting ≤ depth
    · by_cases hxs : ∀ y ∈ xs, (value y).nesting ≤ depth
      · simp only [hx, true_and, if_pos hxs]
        rfl
      · simp only [hx, true_and, if_neg hxs]
        rfl
    · simp only [hx, false_and, ↓reduceIte]
      rfl

theorem limited_array (depth : Nat) (items : List Json) :
    limited (depth + 1) (.array items) (Json.array items) =
      (items.mapM fun v => limited depth v v).map Json.array := by
  rw [mapM_limited depth fun v => v]
  simp only [limited, nesting, Nat.add_le_add_iff_right, nestingOfItems_le]
  split <;> rfl

theorem limited_object (depth : Nat) (members : List (String × Json)) :
    limited (depth + 1) (.object members) (Json.object members) =
      (members.mapM fun m => limited depth m.2 m).map Json.object := by
  rw [mapM_limited]
  simp only [limited, nesting, Nat.add_le_add_iff_right, nestingOfMembers_le]
  split <;> rfl

/-! ## Readers -/

section

variable {ε α : Type} {item : List Char → Except ε (α × List Char)}

/-- A text is read with this outcome, whatever blanks stand before it and whatever follows; it
    begins as no list of items ends. -/
structure Yields (item : List Char → Except ε (α × List Char)) (text : List Char)
    (r : Except ε α) : Prop where
  read : ∀ {bs : List Char}, Blank bs → ∀ rest : List Char,
    item (bs ++ (text ++ rest)) = r.map fun a => (a, rest)
  begins : ∃ c cs, text = c :: cs ∧ isBlank c = false ∧ c ≠ ']' ∧ c ≠ '\x7d'

theorem Layout.length_listed (l : Layout) (level : Nat) : ∀ items : List (List Char),
    items.length ≤ (l.listed level items).length + 1
  | [] => by simp
  | [item] => by simp
  | item :: next :: items => by
    have hlisted := l.length_listed level (next :: items)
    simp only [Layout.listed, List.length_append, List.length_cons] at *
    omega

variable {β : Type} {text : β → List Char} {outcome : β → Except ε α} {close : Char}
  (fault : Fault → ε) (l : Layout) (level : Nat)

theorem readItems_listed (hclose : close = ']' ∨ close = '\x7d') (xs : List β) {x : β}
    {bound : Nat} (hbound : xs.length < bound)
    (h : ∀ y ∈ x :: xs, Yields item (text y) (outcome y)) {bs : List Char} (hbs : Blank bs)
    (rest : List Char) :
    readItems fault close item bound
        (bs ++ (l.listed level ((x :: xs).map text) ++ close :: rest)) =
      ((x :: xs).mapM outcome).map fun as => (as, rest) := by
  have hcomma : close ≠ ',' := by rintro rfl; simp at hclose
  have hblank : isBlank close = false := by obtain rfl | rfl := hclose <;> rfl
  -- By induction on the items behind the first; `bs` are the blanks before the item that is due.
  induction xs generalizing x bound bs with
  | nil =>
    obtain ⟨bound, rfl⟩ : ∃ b, bound = b + 1 := ⟨bound - 1, by omega⟩
    have hx := (h x (by simp)).read hbs (l.line level ++ close :: rest)
    have hskip := l.skip_line level hblank rest
    rw [readItems, List.map_cons, List.map_nil, Layout.listed, List.append_assoc, hx]
    cases hr : outcome x with
    | error e => simp [hr, Except.map, bind, Except.bind]
    | ok a => simp [hr, Except.map, bind, Except.bind, hskip, hcomma, pure, Except.pure]
  | cons y ys ih =>
    obtain ⟨bound, rfl⟩ : ∃ b, bound = b + 1 := ⟨bound - 1, by omega⟩
    obtain ⟨hx, hothers⟩ := List.forall_mem_cons.mp h
    have hfirst := hx.read hbs (',' :: (l.line (level + 1) ++
      (l.listed level ((y :: ys).map text) ++ close :: rest)))
    have htail := ih (Nat.lt_of_succ_lt_succ hbound) hothers (l.line_blank (level + 1))
    have hskip : ∀ cs, skipBlanks (',' :: cs) = ',' :: cs := skipBlanks_cons rfl
    have hlisted : l.listed level ((x :: y :: ys).map text) ++ close :: rest =
        text x ++ ',' :: (l.line (level + 1) ++
          (l.listed level ((y :: ys).map text) ++ close :: rest)) := by
      simp [Layout.listed]
    rw [hlisted, readItems, hfirst, List.mapM_cons]
    cases hr : outcome x with
    | error e => simp [Except.map, bind, Except.bind]
    | ok a =>
      simp only [Except.map, bind, Except.bind, hskip, if_pos, htail]
      cases (y :: ys).mapM outcome <;> rfl

theorem readList_between (hclose : close = ']' ∨ close = '\x7d') (xs : List β)
    (h : ∀ y ∈ xs, Yields item (text y) (outcome y)) (rest : List Char) :
    readList fault close item (l.between level (xs.map text) ++ close :: rest) =
      (xs.mapM outcome).map fun as => (as, rest) := by
  have hblank : isBlank close = false := by obtain rfl | rfl := hclose <;> rfl
  cases xs with
  | nil => simp [readList, Layout.between, skipBlanks_cons hblank, Except.map, pure, Except.pure]
  | cons x xs =>
    obtain ⟨c, cs, htext, hc, hbracket, hbrace⟩ := (h x (by simp)).begins
    have hne : c ≠ close := by obtain rfl | rfl := hclose <;> assumption
    obtain ⟨more, hmore⟩ : ∃ more, l.listed level ((x :: xs).map text) = c :: more := by
      rw [List.map_cons]
      cases xs.map text <;> simp [Layout.listed, htext]
    have hbound : xs.length < (more ++ close :: rest).length + 1 := by
      have hlength := l.length_listed level ((x :: xs).map text)
      simp only [hmore, List.length_map, List.length_append, List.length_cons] at *
      omega
    have hitems := readItems_listed fault l level hclose xs hbound h Blank.nil rest
    rw [List.nil_append, hmore, List.cons_append] at hitems
    rw [List.map_cons, Layout.between, ← List.map_cons, List.append_assoc, readList,
      (l.line_blank (level + 1)).skip, hmore, List.cons_append, skipBlanks_cons hc]
    simpa [hne] using hitems

end

/-! ## Legible values -/

/-- Whatever the layout, the text of this value is read as the value, unless it nests deeper
    than is allowed: then it is malformed. -/
def Legible (v : Json) : Prop :=
  ∀ (l : Layout) (level depth : Nat),
    Yields (readValue depth) (spelled l level v) (limited depth v v)

theorem legible_string (s : String) : Legible (.string s) := by
  intro l level depth
  refine ⟨fun {bs} hbs rest => ?_, '"', _, toList_quoted s, rfl, by decide, by decide⟩
  have hs := readString_escaped s rest
  rw [readValue, hbs.skip, spelled, quoted_append, skipBlanks_cons rfl]
  simp [hs, Except.map, limited, nesting]

theorem legible_array {items : List Json} (h : ∀ v ∈ items, Legible v) :
    Legible (.array items) := by
  intro l level depth
  refine ⟨fun {bs} hbs rest => ?_, '[', _, rfl, rfl, by decide, by decide⟩
  have htext : spelled l level (.array items) ++ rest =
      '[' :: (l.between level (items.map (spelled l (level + 1))) ++ ']' :: rest) := by
    simp [spelled, spelledItems_eq_map]
  rw [readValue.eq_def, hbs.skip, htext, skipBlanks_cons rfl]
  cases depth with
  | zero => simp [limited, nesting, Except.map]
  | succ depth =>
    have hlist := readList_between id l level (.inl rfl) items
      (fun v hv => h v hv l (level + 1) depth) rest
    simp only [hlist, limited_array]
    cases items.mapM fun v => limited depth v v <;> rfl

theorem readName_quoted (name : String) {bs : List Char} (hbs : Blank bs) (rest : List Char) :
    readName (bs ++ ((quoted name).toList ++ ':' :: rest)) = .ok (name, rest) := by
  have hname := readString_escaped name (':' :: rest)
  have hcolon : ∀ cs, skipBlanks (':' :: cs) = ':' :: cs := skipBlanks_cons rfl
  rw [readName, hbs.skip, quoted_append, skipBlanks_cons rfl]
  simp [hname, hcolon, bind, Except.bind]

theorem Legible.member {m : String × Json} (h : Legible m.2) (l : Layout) (level depth : Nat) :
    Yields (readMember (readValue depth)) (spelledMember l level m) (limited depth m.2 m) := by
  refine ⟨fun {bs} hbs rest => ?_, ?_⟩
  · have hname := readName_quoted m.1 hbs (l.gap ++ (spelled l level m.2 ++ rest))
    have hvalue := (h l level depth).read l.gap_blank rest
    have htext : spelledMember l level m ++ rest =
        (quoted m.1).toList ++ ':' :: (l.gap ++ (spelled l level m.2 ++ rest)) := by
      simp [spelledMember]
    rw [readMember, htext, hname]
    simp only [bind, Except.bind, hvalue]
    by_cases hdepth : m.2.nesting ≤ depth <;> simp [limited, hdepth, Except.map]
  · rw [spelledMember, toList_quoted, List.cons_append]
    exact ⟨'"', _, rfl, rfl, by decide, by decide⟩

theorem legible_object {members : List (String × Json)} (h : ∀ m ∈ members, Legible m.2) :
    Legible (.object members) := by
  intro l level depth
  refine ⟨fun {bs} hbs rest => ?_, '\x7b', _, rfl, rfl, by decide, by decide⟩
  have htext : spelled l level (.object members) ++ rest = '\x7b' ::
      (l.between level (members.map (spelledMember l (level + 1))) ++ '\x7d' :: rest) := by
    simp [spelled, spelledMembers_eq_map]
  rw [readValue.eq_def, hbs.skip, htext, skipBlanks_cons rfl]
  cases depth with
  | zero => simp [limited, nesting, Except.map]
  | succ depth =>
    have hlist := readList_between id l level (.inr rfl) members
      (fun m hm => (h m hm).member l (level + 1) depth) rest
    simp only [hlist, limited_object]
    cases members.mapM fun m => limited depth m.2 m <;> rfl

/-- A string at hand is read where nothing may nest. -/
theorem readShallow_string (s : String) (l : Layout) (level : Nat) {bs : List Char} (hbs : Blank bs)
    (rest : List Char) :
    readShallow (bs ++ (spelled l level (.string s) ++ rest)) = .ok (.string s, rest) := by
  have hs := (legible_string s l level 0).read Blank.nil rest
  rw [List.nil_append, spelled, quoted_append] at hs
  rw [readShallow, hbs.skip, spelled, quoted_append, skipBlanks_cons rfl]
  simp [hs, Except.map, limited, nesting]

/-- The whole text of a value. -/
theorem Legible.readValue_eq {v : Json} (h : Legible v) (l : Layout) (level depth : Nat) :
    readValue depth (spelled l level v) = (limited depth v v).map fun v => (v, []) := by
  simpa using (h l level depth).read Blank.nil []

/-- Two legible values with the same text are one: it is read as both where neither is too deep. -/
theorem Legible.pretty_injective {v w : Json} (hv : Legible v) (hw : Legible w)
    (h : v.pretty = w.pretty) : v = w := by
  have hspelled : spelled .pretty 0 v = spelled .pretty 0 w := by
    rw [← toList_pretty, ← toList_pretty, h]
  have hread := hv.readValue_eq .pretty 0 (max v.nesting w.nesting)
  rw [hspelled, hw.readValue_eq, limited, limited, if_pos (Nat.le_max_left _ _),
    if_pos (Nat.le_max_right _ _)] at hread
  exact (congrArg Prod.fst (Except.ok.inj hread)).symm

end CallForm.Json
