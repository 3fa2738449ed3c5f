/-
  CallForm.Proofs.Text.Quoted — where runs and quoted characters end.

  A run of characters of one sort ends at the first of another (`upTo_cancels`), and any text
  before the first of a character that is not in it (`before_cancels`). A character between
  quotes stands by a letter, by its code in braces, or as itself (`escaped_cases`), and is read
  back with what follows it left over (`readEscaped_escaped`); so no two strings are quoted
  alike (`quoted_injective`). A quoted string stands on one line.
-/

import CallForm.Text.Quoted
import CallForm.Toml.Number

namespace CallForm.Text

/-- Characters up to the first of another sort are told from what follows. -/
theorem upTo_cancels {p : Char → Bool} {as bs : List Char} {c d : Char} {r s : List Char}
    (has : ∀ a ∈ as, p a = true) (hbs : ∀ b ∈ bs, p b = true) (hc : p c = false)
    (hd : p d = false) (h : as ++ c :: r = bs ++ d :: s) : as = bs ∧ c = d ∧ r = s := by
  have htake := congrArg (List.takeWhile p) h
  rw [List.takeWhile_append_of_pos has, List.takeWhile_append_of_pos hbs,
    List.takeWhile_cons_of_neg (by simp [hc]), List.takeWhile_cons_of_neg (by simp [hd]),
    List.append_nil, List.append_nil] at htake
  subst htake
  obtain ⟨rfl, rfl⟩ := List.cons.inj (List.append_cancel_left h)
  exact ⟨rfl, rfl, rfl⟩

/-- Characters in front of the first `c` are told from what follows. -/
theorem before_cancels {c : Char} {as bs r s : List Char} (has : c ∉ as) (hbs : c ∉ bs)
    (h : as ++ c :: r = bs ++ c :: s) : as = bs ∧ r = s := by
  have hne : ∀ {cs : List Char}, c ∉ cs → ∀ a ∈ cs, (a != c) = true := fun hcs a ha =>
    bne_iff_ne.mpr fun heq => hcs (heq ▸ ha)
  have hself : (c != c) = false := bne_self_eq_false c
  obtain ⟨hsame, -, hrest⟩ := upTo_cancels (hne has) (hne hbs) hself hself h
  exact ⟨hsame, hrest⟩

/-! ## Base 16 -/

theorem forall_mem_toDigits (P : Char → Prop) (h : ∀ k < 16, P (Nat.digitChar k)) (n : Nat) :
    ∀ c ∈ Nat.toDigits 16 n, P c := by
  induction n using Nat.strongRecOn with
  | ind n ih =>
    rw [Nat.toDigits_eq_if (by decide)]
    split
    · exact List.forall_mem_singleton.mpr (h n ‹_›)
    · refine List.forall_mem_append.mpr ⟨ih (n / 16) (by omega), ?_⟩
      exact List.forall_mem_singleton.mpr (h (n % 16) (by omega))

theorem valueOf_toDigits (n : Nat) : Toml.valueOf 16 (Nat.toDigits 16 n) = n := by
  have hdigit : ∀ k < 16, Toml.hexValue (Nat.digitChar k) = k := by decide
  induction n using Nat.strongRecOn with
  | ind n ih =>
    rw [Nat.toDigits_eq_if (by decide)]
    split
    · simp [Toml.valueOf, hdigit n ‹_›]
    · rw [Toml.valueOf, List.foldl_append, ← Toml.valueOf, ih (n / 16) (by omega),
        List.foldl_cons, List.foldl_nil, hdigit (n % 16) (by omega)]
      omega

/-! ## Characters -/

/-- The character for which a letter stands behind a backslash. -/
def unescape (c : Char) : Char :=
  if c = 't' then '\t' else if c = 'r' then '\r' else if c = 'n' then '\n'
  else if c = '0' then '\x00' else c

/-- The first character of a text between quotes, and what follows it. -/
def readEscaped : List Char → Option (Char × List Char)
  | '\\' :: 'u' :: '\x7b' :: cs =>
    some (Char.ofNat (Toml.valueOf 16 (cs.takeWhile (· != '\x7d'))),
      (cs.dropWhile (· != '\x7d')).tail)
  | '\\' :: c :: cs => some (unescape c, cs)
  | c :: cs => some (c, cs)
  | [] => none

theorem escaped_cases (c : Char) :
    (∃ d, (escaped '"' c).toList = ['\\', d] ∧ d ≠ 'u' ∧ d ≠ '\n' ∧ unescape d = c) ∨
    (escaped '"' c).toList = '\\' :: 'u' :: '\x7b' :: (Nat.toDigits 16 c.toNat ++ ['\x7d']) ∨
    ((escaped '"' c).toList = [c] ∧ c ≠ '\\' ∧ c ≠ '\n') := by
  unfold escaped
  split
  · exact .inl ⟨'t', rfl, by decide, by decide, by simp [unescape, *]⟩
  split
  · exact .inl ⟨'r', rfl, by decide, by decide, by simp [unescape, *]⟩
  split
  · exact .inl ⟨'n', rfl, by decide, by decide, by simp [unescape, *]⟩
  split
  · exact .inl ⟨'0', rfl, by decide, by decide, by simp [unescape, *]⟩
  split
  · exact .inl ⟨'\\', rfl, by decide, by decide, by simp [unescape, *]⟩
  split
  · exact .inl ⟨'"', rfl, by decide, by decide, by simp [unescape, *]⟩
  split
  · exact .inr (.inl (by simp [hex]))
  · exact .inr (.inr ⟨by simp, ‹_›, ‹_›⟩)

theorem readEscaped_escaped (c : Char) (rest : List Char) :
    readEscaped ((escaped '"' c).toList ++ rest) = some (c, rest) := by
  obtain ⟨d, hc, hd, -, rfl⟩ | hc | ⟨hc, hslash, -⟩ := escaped_cases c
  · simp [hc, readEscaped, hd]
  · have hbrace := forall_mem_toDigits (fun c => (c != '\x7d') = true) (by decide) c.toNat
    simp [hc, readEscaped, List.takeWhile_append_of_pos hbrace,
      List.dropWhile_append_of_pos hbrace, valueOf_toDigits]
  · simp [hc, readEscaped, hslash]

theorem newline_not_mem_escaped (c : Char) : '\n' ∉ (escaped '"' c).toList := by
  obtain ⟨d, hc, -, hd, -⟩ | hc | ⟨hc, -, hnewline⟩ := escaped_cases c
  · simp [hc, hd.symm]
  · have hmem : '\n' ∉ Nat.toDigits 16 c.toNat := fun h =>
      forall_mem_toDigits (· ≠ '\n') (by decide) c.toNat '\n' h rfl
    simp [hc, hmem]
  · simp [hc, hnewline.symm]

/-! ## Strings -/

theorem toList_quoted (s : String) :
    (quoted s).toList = '"' :: (s.toList.flatMap (fun c => (escaped '"' c).toList) ++ ['"']) := by
  simp [quoted, List.flatMap_def, Function.comp_def]

theorem escapes_injective {cs ds : List Char}
    (h : cs.flatMap (fun c => (escaped '"' c).toList) =
      ds.flatMap fun d => (escaped '"' d).toList) : cs = ds := by
  have hread := congrArg readEscaped h
  induction cs generalizing ds with
  | nil =>
    cases ds with
    | nil => rfl
    | cons d ds =>
      rw [List.flatMap_cons, readEscaped_escaped] at hread
      cases hread
  | cons c cs ih =>
    cases ds with
    | nil =>
      rw [List.flatMap_cons, readEscaped_escaped] at hread
      cases hread
    | cons d ds =>
      rw [List.flatMap_cons, List.flatMap_cons, readEscaped_escaped, readEscaped_escaped] at hread
      obtain ⟨rfl, hrest⟩ := Prod.mk.inj (Option.some.inj hread)
      rw [ih hrest (congrArg readEscaped hrest)]

theorem quoted_injective : Function.Injective quoted := by
  intro s t h
  have hlist := congrArg String.toList h
  rw [toList_quoted, toList_quoted] at hlist
  exact String.toList_inj.mp (escapes_injective (List.append_cancel_right (List.cons.inj hlist).2))

theorem newline_not_mem_quoted (s : String) : '\n' ∉ (quoted s).toList := by
  have hnone : ∀ c, '\n' ∉ (escaped '"' c).toList := newline_not_mem_escaped
  simp [toList_quoted, hnone]

end CallForm.Text
