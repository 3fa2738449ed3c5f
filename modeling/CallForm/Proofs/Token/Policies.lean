/-
  CallForm.Proofs.Token.Policies — what the two policies on stray characters answer: the tokens
  of the text, unless strays are refused and there is one; then the first.
-/

import CallForm.Proofs.Token.Runs

namespace CallForm

@[simp] theorem isStray_eq_true_iff {c : Char} : isStray c = true ↔ ¬ InAlphabet c := by
  rw [← isStray_eq_false_iff, Bool.not_eq_false]

/-- Strays are allowed, or there are none. -/
def Admits (policy : StrayPolicy) (source : String) : Prop :=
  policy = .reject → ∀ c ∈ source.toList, InAlphabet c

instance (policy : StrayPolicy) (source : String) : Decidable (Admits policy source) :=
  decidable_of_iff (policy = .reject → source.toList.all (!isStray ·) = true)
    (by simp [Admits, isStray_eq_false_iff])

/-- `c` is the first character of the text outside the alphabet. -/
def FirstStray (source : String) (c : Char) : Prop :=
  ∃ before after, source.toList = before ++ c :: after ∧ (∀ b ∈ before, InAlphabet b) ∧
    ¬ InAlphabet c

theorem firstStray_iff {source : String} {c : Char} :
    FirstStray source c ↔ source.toList.find? isStray = some c := by
  rw [List.find?_eq_some_iff_append, FirstStray, isStray_eq_true_iff]
  simp only [Bool.not_eq_true', isStray_eq_false_iff]
  constructor
  · rintro ⟨before, after, hsource, hbefore, hc⟩
    exact ⟨hc, before, after, hsource, hbefore⟩
  · rintro ⟨hc, before, after, hsource, hbefore⟩
    exact ⟨before, after, hsource, hbefore, hc⟩

/-- A text that is not admitted has a first stray. -/
theorem exists_firstStray {policy : StrayPolicy} {source : String} (h : ¬ Admits policy source) :
    policy = .reject ∧ ∃ c, FirstStray source c := by
  simp only [Admits, Classical.not_imp] at h
  obtain ⟨hpolicy, h⟩ := h
  refine ⟨hpolicy, ?_⟩
  cases hfind : source.toList.find? isStray with
  | some c => exact ⟨c, firstStray_iff.mpr hfind⟩
  | none => exact absurd (by simpa using hfind) h

theorem lexemes_of_admits {policy : StrayPolicy} {source : String} (h : Admits policy source) :
    lexemes policy source = .ok (Lexeme.scan 0 source.toList) := by
  cases policy with
  | skip => rfl
  | reject =>
    have hfind : source.toList.find? isStray = none := by simpa using h rfl
    rw [lexemes, hfind]

theorem result_lex_of_admits {policy : StrayPolicy} {source : String} (h : Admits policy source) :
    (lex policy source).result = .ok (tokens source) := by
  rw [lex, lexemes_of_admits h]
  rfl

theorem lexemes_of_firstStray {source : String} {c : Char} (h : FirstStray source c) :
    lexemes .reject source = .error (.unrecognized c) := by
  rw [lexemes, firstStray_iff.mp h]

theorem result_lex_of_firstStray {source : String} {c : Char} (h : FirstStray source c) :
    (lex .reject source).result = .error (.unrecognized c) := by
  rw [lex, lexemes_of_firstStray h]
  rfl

end CallForm
