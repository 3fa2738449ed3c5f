/-
  CallForm.Proofs.Yaml.Block — block-style YAML tells the value it was written for.

  Text is cancelled from the left, and what stands behind a value has to end it: behind a list
  nothing deeper and no dash at its level, behind a mapping nothing at its level at all
  (`Follows`). A further item ends the item before it, and a further entry the entry before it;
  so items and entries are cancelled by one argument on lines (`Lined.lines_cancel`). What a
  value is shows in the first character that is in no scalar (`opening_eq`), and behind a key the
  blanks before it tell its level (`deeper_eq`). By induction no text begins with two values of
  words in two ways (`cancels_of_worded`), so two with the same text are one
  (`ofJson_injective`).
-/

import CallForm.Proofs.Json.Layout
import CallForm.Proofs.Yaml.Words

namespace CallForm.Yaml

open Json.Layout (indent indent_succ toList_indent_succ)

/-- Made of words, with no mapping empty. -/
inductive Worded : Json → Prop
  | string {s : String} (h : IsWord s) : Worded (.string s)
  | array {vs : List Json} (h : ∀ v ∈ vs, Worded v) : Worded (.array vs)
  | object {m : String × Json} {ms : List (String × Json)} (hkeys : ∀ x ∈ m :: ms, IsWord x.1)
    (h : ∀ x ∈ m :: ms, Worded x.2) : Worded (.object (m :: ms))

/-! ## What follows a value -/

section

variable {level : Nat} {r : List Char}

/-- Nothing stands at this level or deeper. -/
def Outside (level : Nat) (r : List Char) : Prop := ∀ c cs, r ≠ indent level ++ c :: cs

/-- Nothing stands deeper, and no dash at this level. -/
def Onward (level : Nat) (r : List Char) : Prop :=
  ∀ c cs, r = indent level ++ c :: cs → c ≠ '-' ∧ c ≠ ' '

theorem Outside.onward (h : Outside level r) : Onward level r :=
  fun c cs hr => absurd hr (h c cs)

theorem Onward.outside_succ (h : Onward level r) : Outside (level + 1) r := by
  intro c cs hr
  rw [indent_succ, List.append_assoc] at hr
  exact (h _ _ hr).2 rfl

theorem onward_cons {c : Char} (h : c ≠ '-' ∧ c ≠ ' ') (cs : List Char) :
    Onward level (indent level ++ c :: cs) := by
  intro d ds hr
  obtain ⟨rfl, -⟩ := List.cons.inj (List.append_cancel_left hr)
  exact h

theorem outside_succ_cons {c : Char} (h : c ≠ ' ') (cs : List Char) :
    Outside (level + 1) (indent level ++ c :: cs) := by
  intro d ds hr
  rw [indent_succ, List.append_assoc] at hr
  exact h (List.cons.inj (List.append_cancel_left hr)).1

theorem outside_nil (level : Nat) : Outside level [] := by
  intro c cs
  simp

end

/-- What can follow a value whose further lines stand at this level. -/
def Follows (level : Nat) : Json → List Char → Prop
  | .object _, r => Outside level r
  | _, r => Onward level r

theorem Outside.follows {level : Nat} {r : List Char} (h : Outside level r) (v : Json) :
    Follows level v r := by
  cases v with
  | object members => exact h
  | null | bool b | number n | string s | array items => exact h.onward

/-! ## Texts of values -/

def pad (level : Nat) : String := String.ofList (indent level)

@[simp] theorem toList_pad (level : Nat) : (pad level).toList = indent level :=
  String.toList_ofList

@[simp] theorem pad_succ (level : Nat) : pad level ++ "  " = pad (level + 1) := by
  rw [← String.toList_inj, toList_indent_succ (toList_pad level), toList_pad]

/-- A value at the beginning of a text or after a dash. -/
def dashed (level : Nat) (v : Json) : List Char := (afterDash (pad level) v).toList

/-- A value after a key. -/
def keyed (level : Nat) (v : Json) : List Char := (afterKey (pad level) v).toList

def item (level : Nat) (v : Json) : List Char := '-' :: ' ' :: dashed (level + 1) v

def entry (level : Nat) (m : String × Json) : List Char :=
  (keyText m.1).toList ++ ':' :: keyed level m.2

/-- Each text on lines of its own. -/
def lines {α : Type} (level : Nat) (text : α → List Char) (xs : List α) : List Char :=
  xs.flatMap (indent level ++ text ·)

theorem toList_items (level : Nat) (lead : String) (v : Json) (vs : List Json) :
    (items lead (pad level) (v :: vs)).toList =
      lead.toList ++ (item level v ++ lines level (item level) vs) := by
  induction vs generalizing lead v with
  | nil => simp [items, item, dashed, lines]
  | cons w ws ih =>
    rw [items, String.toList_append, ih, pad_succ]
    simp [item, dashed, lines]

theorem toList_entries (level : Nat) (lead : String) (m : String × Json)
    (ms : List (String × Json)) :
    (entries lead (pad level) (m :: ms)).toList =
      lead.toList ++ (entry level m ++ lines level (entry level) ms) := by
  induction ms generalizing lead m with
  | nil => simp [entries, entry, keyed, lines]
  | cons x xs ih =>
    rw [entries, String.toList_append, ih]
    simp [entry, keyed, lines]

section

variable (level : Nat)

theorem dashed_string {s : String} (h : IsWord s) :
    dashed level (.string s) = (keyText s).toList ++ ['\n'] :=
  (keyText_of_word h).2 _

theorem dashed_array_cons (v : Json) (vs : List Json) :
    dashed level (.array (v :: vs)) = item level v ++ lines level (item level) vs := by
  simp [dashed, afterDash, toList_items]

theorem dashed_object_cons (m : String × Json) (ms : List (String × Json)) :
    dashed level (.object (m :: ms)) = entry level m ++ lines level (entry level) ms := by
  simp [dashed, afterDash, toList_entries]

end

/-! ## Lines -/

/-- The text of `x` is told from any text that it begins, if what follows ends it. -/
def Told {α : Type} (text : α → List Char) (ok : α → Prop) (ends : List Char → Prop) (x : α) :
    Prop :=
  ∀ y, ok y → ∀ r s, ends r → ends s → text x ++ r = text y ++ s → x = y ∧ r = s

/-- Lines at a level: each ends the one before it, what closes the lines ends the last, and no
    line closes them. -/
structure Lined {α : Type} (level : Nat) (text : α → List Char) (ok : α → Prop)
    (ends closes : List Char → Prop) : Prop where
  ends_of_closes : ∀ {r : List Char}, closes r → ends r
  line_ends : ∀ {y : α}, ok y → ∀ r, ends (indent level ++ (text y ++ r))
  line_goes_on : ∀ {y : α}, ok y → ∀ r, ¬ closes (indent level ++ (text y ++ r))

section

variable {α : Type} {level : Nat} {text : α → List Char} {ok : α → Prop}
  {ends closes : List Char → Prop} (hlined : Lined level text ok ends closes)

theorem lines_cons (x : α) (xs : List α) (r : List Char) :
    lines level text (x :: xs) ++ r = indent level ++ (text x ++ (lines level text xs ++ r)) := by
  simp [lines]

include hlined

theorem Lined.ends_lines {xs : List α} (hxs : ∀ x ∈ xs, ok x) {r : List Char} (hr : closes r) :
    ends (lines level text xs ++ r) := by
  cases xs with
  | nil => exact hlined.ends_of_closes hr
  | cons x xs =>
    rw [lines_cons]
    exact hlined.line_ends (hxs x List.mem_cons_self) _

theorem Lined.lines_cancel {xs : List α} (htold : ∀ x ∈ xs, ok x ∧ Told text ok ends x) :
    ∀ {ys : List α}, (∀ y ∈ ys, ok y) → ∀ {r s : List Char}, closes r → closes s →
      lines level text xs ++ r = lines level text ys ++ s → xs = ys ∧ r = s := by
  induction xs with
  | nil =>
    intro ys hys r s hr _ h
    cases ys with
    | nil => exact ⟨rfl, h⟩
    | cons y ys =>
      rw [lines_cons] at h
      subst h
      exact absurd hr (hlined.line_goes_on (hys y List.mem_cons_self) _)
  | cons x xs ih =>
    obtain ⟨⟨hx, hfirst⟩, hothers⟩ := List.forall_mem_cons.mp htold
    intro ys hys r s hr hs h
    cases ys with
    | nil =>
      rw [lines_cons] at h
      subst h
      exact absurd hs (hlined.line_goes_on hx _)
    | cons y ys =>
      obtain ⟨hy, hlater⟩ := List.forall_mem_cons.mp hys
      have hends := hlined.ends_lines (fun x hx => (hothers x hx).1) hr
      have hends' := hlined.ends_lines hlater hs
      rw [lines_cons, lines_cons] at h
      obtain ⟨rfl, hrest⟩ := hfirst y hy _ _ hends hends' (List.append_cancel_left h)
      obtain ⟨rfl, hrs⟩ := ih hothers hlater hr hs hrest
      exact ⟨rfl, hrs⟩

/-- Also where the first line has begun already. -/
theorem Lined.block_cancels {x : α} {xs : List α}
    (htold : ∀ z ∈ x :: xs, ok z ∧ Told text ok ends z) {y : α} {ys : List α}
    (hys : ∀ z ∈ y :: ys, ok z) {r s : List Char} (hr : closes r) (hs : closes s)
    (h : text x ++ (lines level text xs ++ r) = text y ++ (lines level text ys ++ s)) :
    x :: xs = y :: ys ∧ r = s := by
  refine hlined.lines_cancel htold hys hr hs ?_
  rw [lines_cons, lines_cons, h]

end

/-! ## Values -/

/-- The first character of a value after a dash that is in no scalar. -/
def opening : Json → Char
  | .array [] => '['
  | .array (_ :: _) => '-'
  | .object _ => ':'
  | _ => '\n'

theorem inScalar_opening (v : Json) : inScalar (opening v) = false := by
  unfold opening
  split <;> decide

theorem exists_opening {v : Json} (hv : Worded v) (level : Nat) (r : List Char) :
    ∃ scalar rest, dashed level v ++ r = scalar ++ opening v :: rest ∧
      ∀ c ∈ scalar, inScalar c = true := by
  cases hv with
  | @string s h =>
    refine ⟨(keyText s).toList, r, ?_, inScalar_keyText h⟩
    rw [dashed_string level h, List.append_assoc]
    rfl
  | @array vs h =>
    cases vs with
    | nil => exact ⟨[], ']' :: '\n' :: r, by simp [dashed, afterDash, opening], nofun⟩
    | cons v vs => exact ⟨[], _, by rw [dashed_array_cons]; rfl, nofun⟩
  | @object m ms hkeys h =>
    have hkey := inScalar_keyText (hkeys m List.mem_cons_self)
    refine ⟨(keyText m.1).toList, keyed level m.2 ++ (lines level (entry level) ms ++ r), ?_, hkey⟩
    simp [dashed_object_cons, entry, opening]

/-- Values whose texts begin a text in common begin alike. -/
theorem opening_eq {v w : Json} (hv : Worded v) (hw : Worded w) {level : Nat} {r s : List Char}
    (h : dashed level v ++ r = dashed level w ++ s) : opening v = opening w := by
  obtain ⟨as, rest, hleft, has⟩ := exists_opening hv level r
  obtain ⟨bs, rest', hright, hbs⟩ := exists_opening hw level s
  rw [hleft, hright] at h
  exact (Text.upTo_cancels has hbs (inScalar_opening v) (inScalar_opening w) h).2.1

/-! ## Values after a key -/

/-- The level of a value after a key. -/
def deeper (level : Nat) : Json → Nat
  | .object _ => level + 1
  | _ => level

/-- What stands between a key and its value: a blank, or a break and the margin. -/
def leadIn (level : Nat) : Json → List Char
  | .string _ | .array [] => [' ']
  | v => '\n' :: indent (deeper level v)

theorem keyed_eq (level : Nat) {v : Json} (h : Worded v) :
    keyed level v = leadIn level v ++ dashed (deeper level v) v := by
  cases h with
  | @string s hs =>
    simp [leadIn, deeper, dashed_string level hs, keyed, afterKey, keyText_of_word hs]
  | @array vs _ =>
    cases vs with
    | nil => simp [leadIn, keyed, dashed, afterKey, afterDash]
    | cons v vs => simp [leadIn, deeper, dashed_array_cons, keyed, afterKey, toList_items]
  | object hkeys _ => simp [leadIn, deeper, dashed_object_cons, keyed, afterKey, toList_entries]

theorem deeper_cases (level : Nat) (v : Json) :
    deeper level v = level ∧ (leadIn level v).length ≤ 2 * level + 1 ∨
      deeper level v = level + 1 ∧ (leadIn level v).length = 2 * level + 3 := by
  cases v with
  | object members => simp [deeper, leadIn, indent, Nat.mul_add]
  | array vs => cases vs <;> simp [deeper, leadIn, indent]
  | null | bool b | number n | string s => simp [deeper, leadIn, indent]

def isBlank (c : Char) : Bool := c == ' ' || c == '\n'

theorem leadIn_blank (level : Nat) (v : Json) : ∀ c ∈ leadIn level v, isBlank c = true := by
  unfold leadIn
  split <;> simp [indent, isBlank]

theorem exists_cons_dashed {v : Json} (hv : Worded v) (level : Nat) (r : List Char) :
    ∃ c cs, dashed level v ++ r = c :: cs ∧ isBlank c = false := by
  have hblank : ∀ c : Char, inScalar c = true → isBlank c = false := by
    intro c hc
    rw [isBlank, Bool.or_eq_false_iff, beq_eq_false_iff_ne, beq_eq_false_iff_ne]
    constructor <;> rintro rfl <;> cases hc
  cases hv with
  | @string s hs =>
    obtain ⟨c, cs, hcs, hc⟩ := exists_cons_keyText hs
    exact ⟨c, cs ++ '\n' :: r, by simp [dashed_string level hs, hcs], hblank c hc⟩
  | @array vs _ =>
    cases vs with
    | nil => exact ⟨'[', ']' :: '\n' :: r, by simp [dashed, afterDash], rfl⟩
    | cons v vs => exact ⟨'-', _, by rw [dashed_array_cons]; rfl, rfl⟩
  | @object m ms hkeys _ =>
    obtain ⟨c, cs, hcs, hc⟩ := exists_cons_keyText (hkeys m List.mem_cons_self)
    refine ⟨c, cs ++ ':' :: (keyed level m.2 ++ (lines level (entry level) ms ++ r)), ?_,
      hblank c hc⟩
    simp [dashed_object_cons, entry, hcs]

/-- What stands before a value after a key tells its level: it is longest for a mapping. -/
theorem deeper_eq {level : Nat} {v w : Json} (h : leadIn level v = leadIn level w) :
    deeper level v = deeper level w := by
  have hlength := congrArg List.length h
  rcases deeper_cases level v with ⟨hv, hvlength⟩ | ⟨hv, hvlength⟩ <;>
    rcases deeper_cases level w with ⟨hw, hwlength⟩ | ⟨hw, hwlength⟩ <;> omega

theorem Onward.follows_deeper {level : Nat} {r : List Char} (h : Onward level r) (v : Json) :
    Follows (deeper level v) v r := by
  cases v with
  | object members => exact h.outside_succ
  | null | bool b | number n | string s | array items => exact h

/-! ## Trees -/

/-- The text of the value after a dash is told from any text that it begins. -/
def Cancels (v : Json) : Prop :=
  ∀ level w, Worded w → ∀ r s, Follows level v r → Follows level w s →
    dashed level v ++ r = dashed level w ++ s → v = w ∧ r = s

theorem told_item {v : Json} (h : Cancels v) (level : Nat) :
    Told (item level) Worded (Outside (level + 1)) v := by
  intro w hw r s hr hs heq
  exact h (level + 1) w hw r s (hr.follows v) (hs.follows w)
    (List.cons.inj (List.cons.inj heq).2).2

/-- A value after a key is told where one after a dash is. -/
theorem told_keyed {v : Json} (hv : Worded v) (h : Cancels v) (level : Nat) :
    Told (keyed level) Worded (Onward level) v := by
  intro w hw r s hr hs heq
  rw [keyed_eq level hv, keyed_eq level hw, List.append_assoc, List.append_assoc] at heq
  obtain ⟨c, cs, hc, hcblank⟩ := exists_cons_dashed hv (deeper level v) r
  obtain ⟨d, ds, hd, hdblank⟩ := exists_cons_dashed hw (deeper level w) s
  rw [hc, hd] at heq
  obtain ⟨hlead, hcd, hrest⟩ :=
    Text.upTo_cancels (leadIn_blank level v) (leadIn_blank level w) hcblank hdblank heq
  have hdeep := deeper_eq hlead
  refine h (deeper level v) w hw r s (hr.follows_deeper v) (hdeep ▸ hs.follows_deeper w) ?_
  rw [hc, hdeep, hd, hcd, hrest]

theorem told_entry {m : String × Json} (hkey : IsWord m.1) (hm : Worded m.2) (h : Cancels m.2)
    (level : Nat) :
    Told (entry level) (fun x => IsWord x.1 ∧ Worded x.2) (Onward level) m := by
  rintro ⟨name, w⟩ ⟨hname, hw⟩ r s hr hs heq
  obtain ⟨key, v⟩ := m
  simp only [entry, List.append_assoc, List.cons_append] at heq
  have hcolon : inScalar ':' = false := by decide
  obtain ⟨rfl, -, hvalue⟩ := keyText_cancels hkey hname hcolon hcolon heq
  obtain ⟨rfl, hrs⟩ := told_keyed hm h level w hw r s hr hs hvalue
  exact ⟨rfl, hrs⟩

theorem lined_items (level : Nat) :
    Lined level (item level) Worded (Outside (level + 1)) (Onward level) where
  ends_of_closes h := h.outside_succ
  line_ends _ _ := outside_succ_cons (by decide) _
  line_goes_on _ _ h := (h _ _ rfl).1 rfl

theorem exists_cons_entry {m : String × Json} (h : IsWord m.1) (level : Nat) (r : List Char) :
    ∃ c cs, entry level m ++ r = c :: cs ∧ c ≠ '-' ∧ c ≠ ' ' := by
  obtain ⟨c, cs, hcs, hc⟩ := exists_cons_keyText h
  refine ⟨c, cs ++ ':' :: (keyed level m.2 ++ r), by simp [entry, hcs], ?_, ?_⟩ <;> rintro rfl <;>
    cases hc

theorem lined_entries (level : Nat) :
    Lined level (entry level) (fun m => IsWord m.1 ∧ Worded m.2) (Onward level)
      (Outside level) where
  ends_of_closes h := h.onward
  line_ends h r := by
    obtain ⟨c, cs, hcs, hc⟩ := exists_cons_entry h.1 level r
    rw [hcs]
    exact onward_cons hc cs
  line_goes_on h r := by
    obtain ⟨c, cs, hcs, -⟩ := exists_cons_entry h.1 level r
    rw [hcs]
    exact fun hout => hout c cs rfl

theorem cancels_of_worded {v : Json} (hv : Worded v) : Cancels v := by
  induction hv with
  | @string s hs =>
    intro level w hw r r' _ _ heq
    have hopen := opening_eq (.string hs) hw heq
    cases hw with
    | string ht =>
      rw [dashed_string level hs, dashed_string level ht, List.append_assoc,
        List.append_assoc] at heq
      have hbreak : inScalar '\n' = false := by decide
      obtain ⟨rfl, -, hrest⟩ := keyText_cancels hs ht hbreak hbreak heq
      exact ⟨rfl, hrest⟩
    | @array ws hws => cases ws <;> simp [opening] at hopen
    | object hkeys hws => simp [opening] at hopen
  | @array vs hvs ih =>
    intro level w hw r r' hr hr' heq
    have hopen := opening_eq (.array hvs) hw heq
    cases hw with
    | string ht => cases vs <;> simp [opening] at hopen
    | object hkeys hws => cases vs <;> simp [opening] at hopen
    | @array ws hws =>
      -- an empty list opens with a bracket, any other with a dash
      cases vs with
      | nil =>
        cases ws with
        | nil => exact ⟨rfl, List.append_cancel_left heq⟩
        | cons w ws => simp [opening] at hopen
      | cons v vs =>
        cases ws with
        | nil => simp [opening] at hopen
        | cons w ws =>
          rw [dashed_array_cons, dashed_array_cons, List.append_assoc, List.append_assoc] at heq
          obtain ⟨hitems, hrest⟩ := (lined_items level).block_cancels
            (fun v hv => ⟨hvs v hv, told_item (ih v hv) level⟩) hws hr hr' heq
          exact ⟨congrArg Json.array hitems, hrest⟩
  | @object m ms hkeys hms ih =>
    intro level w hw r r' hr hr' heq
    have hopen := opening_eq (.object hkeys hms) hw heq
    cases hw with
    | string ht => simp [opening] at hopen
    | @array ws hws => cases ws <;> simp [opening] at hopen
    | @object x xs hnames hws =>
      rw [dashed_object_cons, dashed_object_cons, List.append_assoc, List.append_assoc] at heq
      obtain ⟨hentries, hrest⟩ := (lined_entries level).block_cancels
        (fun x hx => ⟨⟨hkeys x hx, hms x hx⟩, told_entry (hkeys x hx) (hms x hx) (ih x hx) level⟩)
        (fun x hx => ⟨hnames x hx, hws x hx⟩) hr hr' heq
      exact ⟨congrArg Json.object hentries, hrest⟩

/-- Two values of words with the same YAML text are one. -/
theorem ofJson_injective {v w : Json} (hv : Worded v) (hw : Worded w) (h : ofJson v = ofJson w) :
    v = w := by
  have htext : dashed 0 v ++ [] = dashed 0 w ++ [] := congrArg (String.toList · ++ []) h
  exact (cancels_of_worded hv 0 w hw [] [] ((outside_nil 0).follows v) ((outside_nil 0).follows w)
    htext).1

end CallForm.Yaml
