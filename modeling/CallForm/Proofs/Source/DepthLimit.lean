/-
  CallForm.Proofs.Source.DepthLimit — what the limit on nesting changes about reading.

  A run that does not end at its limit takes the same course under every higher one
  (`resume_of_le`, `readAll_of_le`). A run that does names its own limit and has met more opening
  parentheses than that (`resume_tooDeep`, `readAll_tooDeep`), so no run ends at a limit as high
  as their number. Hence each list of tokens has a threshold: below it the limit is the error, and
  from it on reading goes one way (`parse_threshold`).
-/

import CallForm.Proofs.Source.Acceptance
import Mathlib.Data.Nat.Find

namespace CallForm.Source

variable {d e n : Nat}

/-! ## Higher limits -/

theorem resume_of_le (hle : d ≤ e) (stack : List OpenCall) (ts : List Token)
    (h : (resume d stack ts).answer ≠ .error (.tooDeep d)) :
    resume e stack ts = resume d stack ts := by
  fun_induction resume d stack ts with
  | case1 | case2 call outer | case3 digits rest | case5 stack text rest => rw [resume]
  | case4 digits rest call outer ih =>
    rw [resume]
    exact ih h
  | case6 stack hlt =>
    have hroom : stack.length < e := by omega
    rw [resume.eq_def]
    simp [hroom]
  | case7 stack hlt name rest ih =>
    rw [resume_head (by omega)]
    exact ih h
  | case8 stack hlt found rest hname =>
    have hroom : stack.length < e := by omega
    rw [resume.eq_def]
    cases found <;> simp_all
  | case9 stack rest hge => exact absurd rfl h
  | case10 rest hopen =>
    rw [resume.eq_def]
    simp [hopen]
  | case11 rest call hopen =>
    rw [resume.eq_def]
    simp
  | case12 rest call outer others hopen later ih =>
    rw [resume_close, deliver, ih h]
    rfl
  | case13 stack c rest hopen hclose =>
    rw [resume.eq_def]
    simp [hopen, hclose]

theorem readAll_of_le (hle : d ≤ e) (ts : List Token)
    (h : (readAll d ts).answer ≠ .error (.tooDeep d)) : readAll e ts = readAll d ts := by
  fun_induction readAll d ts with
  | case1 => exact readAll_nil e
  | case2 ts hne first error herror =>
    have hsame : read e ts = first := by
      apply resume_of_le hle
      intro hdeep
      obtain rfl : error = .tooDeep d := Except.error.inj (herror.symm.trans hdeep)
      exact h rfl
    rw [readAll_of_error hne (hsame ▸ herror), hsame]
  | case3 ts hne first q hq later ih =>
    have hsame : read e ts = first := by
      apply resume_of_le hle
      intro hdeep
      cases hq.symm.trans hdeep
    have hlater : readAll e first.rest = later := by
      apply ih
      intro hdeep
      exact h (by rw [hdeep]; rfl)
    rw [readAll_of_ok hne (hsame ▸ hq), hsame, hlater]

/-! ## Runs that end at the limit -/

/-- Each call that is open stands for a parenthesis that was met before. -/
theorem resume_tooDeep (stack : List OpenCall) (ts : List Token)
    (h : (resume d stack ts).answer = .error (.tooDeep n)) :
    n = d ∧ d < stack.length + ts.count (.paren '(') := by
  fun_induction resume d stack ts with
  | case1 | case2 call outer | case3 digits rest | case5 stack text rest | case6 stack hlt
  | case8 stack hlt found rest hname | case10 rest hopen | case11 rest call hopen
  | case13 stack c rest hopen hclose => cases h
  | case4 digits rest call outer ih =>
    obtain ⟨hn, hd⟩ := ih h
    refine ⟨hn, ?_⟩
    simpa [List.count_cons] using hd
  | case7 stack hlt name rest ih =>
    obtain ⟨hn, hd⟩ := ih h
    refine ⟨hn, ?_⟩
    simp at hd ⊢
    omega
  | case9 stack rest hge =>
    cases h
    refine ⟨rfl, ?_⟩
    simp
    omega
  | case12 rest call outer others hopen later ih =>
    obtain ⟨hn, hd⟩ := ih h
    refine ⟨hn, ?_⟩
    simp at hd ⊢
    omega

theorem readAll_tooDeep (ts : List Token) (h : (readAll d ts).answer = .error (.tooDeep n)) :
    n = d ∧ d < ts.count (.paren '(') := by
  fun_induction readAll d ts with
  | case1 => cases h
  | case2 ts hne first error herror =>
    obtain rfl : error = .tooDeep n := Except.error.inj h
    simpa using resume_tooDeep [] ts herror
  | case3 ts hne first q hq later ih =>
    have hlater : later.answer = .error (.tooDeep n) := by
      cases hanswer : later.answer with
      | ok body => rw [hanswer] at h; cases h
      | error e => rw [hanswer] at h; exact h
    obtain ⟨hn, hd⟩ := ih hlater
    have hfirst := read_outcome d ts
    rw [hq] at hfirst
    cases hfirst with
    | read hexpr hts =>
      have hcount : first.rest.count (.paren '(') ≤ ts.count (.paren '(') := by
        rw [congrArg (List.count (.paren '(')) hts, List.count_append]
        exact Nat.le_add_left _ _
      exact ⟨hn, by omega⟩

/-! ## The threshold -/

theorem parse_of_le (hle : d ≤ e) (ts : List Token)
    (h : (parse d ts).result ≠ .error (.tooDeep d)) : parse e ts = parse d ts := by
  have hsame : readAll e ts = readAll d ts := by
    apply readAll_of_le hle
    intro hdeep
    exact h (result_parse_eq_error.mpr hdeep)
  rw [parse, parse, hsame]

theorem parse_tooDeep (ts : List Token) (h : (parse d ts).result = .error (.tooDeep n)) :
    n = d ∧ d < ts.count (.paren '(') :=
  readAll_tooDeep ts (result_parse_eq_error.mp h)

/-- For any tokens there is a number, at most that of their opening parentheses, below which
    each limit is the error, and from which on reading does not depend on the limit: it gives
    the same result, which is no error about a limit, and reports the same. -/
theorem parse_threshold (ts : List Token) :
    ∃ threshold ≤ ts.count (.paren '('),
      (∀ d < threshold, (parse d ts).result = .error (.tooDeep d)) ∧
      ∃ run, (∀ n, run.result ≠ .error (.tooDeep n)) ∧ ∀ d, threshold ≤ d → parse d ts = run := by
  classical
  let enough d := (parse d ts).result ≠ .error (.tooDeep d)
  have hcount : enough (ts.count (.paren '(')) := fun h => Nat.lt_irrefl _ (parse_tooDeep ts h).2
  have hsome : ∃ d, enough d := ⟨_, hcount⟩
  have hleast : enough (Nat.find hsome) := Nat.find_spec hsome
  refine ⟨Nat.find hsome, Nat.find_min' hsome hcount, ?_, parse (Nat.find hsome) ts, ?_, ?_⟩
  · intro d hd
    exact not_not.mp (Nat.find_min hsome hd)
  · intro n h
    obtain ⟨rfl, -⟩ := parse_tooDeep ts h
    exact hleast h
  · intro d hd
    exact parse_of_le hd ts hleast

/-- A name after the first call's name is the error once that call may be open, though the
    tokens go deeper. -/
example : let ts : List Token := [.paren '(', .name "f", .name "x", .paren '(', .name "g"]
    (parse 0 ts).result = .error (.tooDeep 0) ∧
      (parse 1 ts).result = .error (.unexpected (.name "x")) := by
  cbv

end CallForm.Source
