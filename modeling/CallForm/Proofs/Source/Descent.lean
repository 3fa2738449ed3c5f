/-
  CallForm.Proofs.Source.Descent — recursive descent ends, counts right, and reads what the
  stack of open calls reads; so a reader can go on after any reply.

  Three facts are kept by every routine, and so by every request and every session: tokens are
  only taken from the front (`Runs.onward`), the counter is put back and each of its changes is
  exact (`Runs.keeps_count`), and the answer is the one that reading from a stack of as many
  calls gives (`Runs.outcome_reading`). Every routine ends, because an expression takes a token
  (`exists_runs`). So what a request yields depends on the tokens left, and on nothing that was
  asked before (`sessions_resume`).
-/

import CallForm.Proofs.Source.Faults
import CallForm.Source.Descent

namespace CallForm.Source

namespace Descent

@[simp] theorem depth_turnTo (s : Descent) (d : UInt64) : (s.turnTo d).depth = d := rfl

/-! ## Tokens are taken from the front -/

/-- Later the same reader has taken some more tokens. -/
def Onward (s s' : Descent) : Prop :=
  s'.limit = s.limit ∧ ∃ taken, s.cursor.rest = taken ++ s'.cursor.rest ∧
    s'.cursor.consumed = s.cursor.consumed + taken.length

namespace Onward

variable {s s₁ s' : Descent}

theorem refl (s : Descent) : s.Onward s := ⟨rfl, [], rfl, rfl⟩

theorem trans (h : s.Onward s₁) (h' : s₁.Onward s') : s.Onward s' := by
  obtain ⟨hlimit, taken, hrest, hconsumed⟩ := h
  obtain ⟨hlimit', taken', hrest', hconsumed'⟩ := h'
  refine ⟨hlimit'.trans hlimit, taken ++ taken', ?_, ?_⟩
  · rw [hrest, hrest', List.append_assoc]
  · rw [hconsumed', hconsumed, List.length_append, Nat.add_assoc]

theorem advance (s : Descent) : s.Onward s.advance.2 := by
  obtain ⟨limit, ⟨rest, consumed⟩, depth, turns⟩ := s
  cases rest with
  | nil => exact refl _
  | cons t ts => exact ⟨rfl, [t], rfl, rfl⟩

theorem turnTo (s : Descent) (d : UInt64) : s.Onward (s.turnTo d) := ⟨rfl, [], rfl, rfl⟩

theorem length_le (h : s.Onward s') : s'.cursor.rest.length ≤ s.cursor.rest.length := by
  obtain ⟨-, taken, hrest, -⟩ := h
  rw [hrest, List.length_append]
  omega

theorem cursor_eq (h : s.Onward s') : s'.cursor = s.cursor.leaving s'.cursor.rest := by
  obtain ⟨-, taken, hrest, hconsumed⟩ := h
  have hlength : s.cursor.rest.length - s'.cursor.rest.length = taken.length := by
    rw [hrest, List.length_append]
    omega
  rw [Cursor.leaving, hlength, ← hconsumed]

end Onward

theorem advance_eq_some {s s' : Descent} {t : Token} (h : s.advance = (some t, s')) :
    s.cursor.rest = t :: s'.cursor.rest ∧ s' = s.advance.2 := by
  obtain ⟨limit, ⟨rest, consumed⟩, depth, turns⟩ := s
  cases rest with
  | nil => simp [advance, Cursor.advance] at h
  | cons u ts =>
    obtain ⟨hu, rfl⟩ := Prod.mk.inj h
    obtain rfl : u = t := Option.some.inj hu
    exact ⟨rfl, rfl⟩

theorem advance_eq_none {s s' : Descent} (h : s.advance = (none, s')) :
    s.cursor.rest = [] ∧ s' = s := by
  obtain ⟨limit, ⟨rest, consumed⟩, depth, turns⟩ := s
  cases rest with
  | nil => exact ⟨rfl, (Prod.mk.inj h).2.symm⟩
  | cons u ts => simp [advance, Cursor.advance] at h

theorem Runs.onward {task : Task} {s s' : Descent} {a : Except ParseError Node}
    (h : Runs task s a s') : s.Onward s' := by
  induction h with
  | nothing h | number h | unexpected h | headless h | malformed h =>
    rw [(Prod.mk.inj h).2.symm]
    exact .advance _
  | opened h _ ih | named h _ ih =>
    rw [← (Prod.mk.inj h).2] at ih
    exact (Onward.advance _).trans ih
  | tooDeep | unterminated => exact .refl _
  | counted _ _ ih => exact ((Onward.turnTo _ _).trans ih).trans (.turnTo _ _)
  | closed => exact .advance _
  | operand _ _ _ _ ih ih' => exact ih.trans ih'
  | failed _ _ _ ih => exact ih

/-- An expression takes a token, if there is one. -/
theorem Runs.takes {s s' : Descent} {a : Except ParseError Node} (h : Runs .expression s a s')
    (hne : s.cursor.rest ≠ []) : s'.cursor.rest.length < s.cursor.rest.length := by
  cases h with
  | nothing h => exact absurd (advance_eq_none h).1 hne
  | number h | unexpected h => simp [(advance_eq_some h).1]
  | opened h hcall =>
    have hle := hcall.onward.length_le
    rw [(advance_eq_some h).1, List.length_cons]
    omega

/-! ## The counter -/

/-- Later the counter is what it was, and was changed exactly. -/
def Counted (s s' : Descent) : Prop :=
  s'.depth = s.depth ∧
    ((∀ t ∈ s.turns, t.Exact s.limit) → ∀ t ∈ s'.turns, t.Exact s.limit)

/-- Below the limit the counter can go up by one. -/
theorem depth_add_one {s : Descent} (hdepth : s.depth ≤ s.limit) (hne : s.depth ≠ s.limit) :
    (s.depth + 1).toNat = s.depth.toNat + 1 ∧ s.depth + 1 ≤ s.limit := by
  have hlt := UInt64.lt_iff_toNat_lt.mp (UInt64.lt_of_le_of_ne hdepth hne)
  have hlimit := s.limit.toNat_lt
  have hup : (s.depth + 1).toNat = s.depth.toNat + 1 := by
    rw [UInt64.toNat_add, UInt64.toNat_one, Nat.mod_eq_of_lt (by omega)]
  exact ⟨hup, by rwa [UInt64.le_iff_toNat_le, hup]⟩

theorem Runs.keeps_count {task : Task} {s s' : Descent} {a : Except ParseError Node}
    (h : Runs task s a s') (hdepth : s.depth ≤ s.limit) : s.Counted s' := by
  induction h with
  | nothing h | number h | unexpected h | headless h | malformed h =>
    rw [(Prod.mk.inj h).2.symm]
    exact ⟨rfl, id⟩
  | opened h _ ih | named h _ ih =>
    rw [← (Prod.mk.inj h).2] at ih
    exact ih hdepth
  | tooDeep | unterminated | closed => exact ⟨rfl, id⟩
  | @counted s s₁ a hne hrun ih =>
    obtain ⟨hup, hle⟩ := depth_add_one hdepth hne
    obtain ⟨hsame, hturns⟩ := ih hle
    have hdown : s₁.depth - 1 = s.depth := by
      rw [hsame, depth_turnTo, UInt64.add_sub_cancel]
    refine ⟨hdown, fun hexact t ht => ?_⟩
    rcases List.mem_cons.mp ht with rfl | ht
    · refine ⟨.inr ?_, ?_, ?_⟩
      · rw [hdown, hsame, depth_turnTo, hup]
      · rwa [hsame, depth_turnTo]
      · rwa [hdown]
    · refine hturns (List.forall_mem_cons.mpr ⟨⟨.inl hup, hdepth, hle⟩, hexact⟩) t ht
  | @operand s s₁ _ _ _ _ _ _ _ _ hfirst _ ih ih' =>
    obtain ⟨hsame, hturns⟩ := ih hdepth
    have hlimit := hfirst.onward.1
    obtain ⟨hsame', hturns'⟩ := ih' (by rwa [hsame, hlimit])
    rw [hlimit] at hturns'
    exact ⟨hsame'.trans hsame, fun hexact => hturns' (hturns hexact)⟩
  | failed _ _ _ ih => exact ih hdepth

end Descent

/-! ## The same reading -/

/-- What can be told of a reading without its events. -/
def Reading.outcome {α : Type} (r : Reading α) : Except ParseError α × List Token :=
  (r.answer, r.rest)

@[simp] theorem Reading.outcome_after {α : Type} (events : List Event) (r : Reading α) :
    (r.after events).outcome = r.outcome := rfl

/-- Goes on after an answer: an error ends the reading, a node is delivered. -/
def settle (limit : Nat) (stack : List OpenCall) (rest : List Token) :
    Except ParseError Node → Reading Node
  | .ok q => deliver limit stack q rest
  | .error e => ⟨.error e, rest, []⟩

namespace Descent

/-- The reading of these tokens that a task stands for, in the calls around it. -/
def Task.reading (limit : Nat) (outer : List OpenCall) (ts : List Token) : Task → Reading Node
  | .expression => resume limit outer ts
  | .call | .head => resume limit outer (.paren '(' :: ts)
  | .operands name params => resume limit (⟨name, params.reverse⟩ :: outer) ts

/-- How many calls are counted where a task begins, if `outer` are around it. -/
def Task.counted (outer : List OpenCall) : Task → Nat
  | .expression | .call => outer.length
  | .head | .operands _ _ => outer.length + 1

/-- An expression is begun neither at the end of a call nor at the end of the tokens in one. -/
def Task.Begins (outer : List OpenCall) (ts : List Token) : Task → Prop
  | .expression => outer = [] ∨ ∃ t, ts.head? = some t ∧ t.isClose = false
  | .call | .head | .operands _ _ => True

theorem lt_of_counted {s : Descent} {outer : List OpenCall} (hdepth : s.depth ≤ s.limit)
    (h : outer.length + 1 = s.depth.toNat) : outer.length < s.limit.toNat := by
  have hle := UInt64.le_iff_toNat_le.mp hdepth
  omega

theorem eq_of_isClose {t : Token} (h : t.isClose = true) : t = .paren ')' := by
  cases t with
  | paren c => exact congrArg _ (by simpa [Token.isClose] using h)
  | name text => cases h
  | number digits => cases h

theorem rest_of_peek {c : Cursor} {t : Token} (h : c.peek = some t) : ∃ ts, c.rest = t :: ts :=
  List.head?_eq_some_iff.mp h

theorem misplaced_of_unexpected {outer : List OpenCall} {t : Token} {ts : List Token}
    (hbegins : Task.expression.Begins outer (t :: ts)) (hnumber : ∀ digits, t ≠ .number digits)
    (hopen : t ≠ .paren '(') : Misplaced outer t := by
  cases t with
  | number digits => exact hnumber digits rfl
  | name text => trivial
  | paren c =>
    refine ⟨fun hc => hopen (by rw [hc]), fun hc => ?_⟩
    subst hc
    simpa [Task.Begins, Token.isClose] using hbegins

theorem Runs.outcome_reading {task : Task} {s s' : Descent} {a : Except ParseError Node}
    (h : Runs task s a s') (hdepth : s.depth ≤ s.limit) : ∀ outer : List OpenCall,
      task.counted outer = s.depth.toNat → task.Begins outer s.cursor.rest →
      (task.reading s.limit.toNat outer s.cursor.rest).outcome =
        (settle s.limit.toNat outer s'.cursor.rest a).outcome := by
  induction h with
  | nothing h =>
    intro outer _ hbegins
    obtain ⟨hrest, rfl⟩ := advance_eq_none h
    have hnone : outer = [] := by simpa [Task.Begins, hrest] using hbegins
    rw [Task.reading, hrest, hnone, resume]
    rfl
  | number h =>
    intro outer _ _
    rw [Task.reading, (advance_eq_some h).1, resume_number]
    rfl
  | opened h _ ih =>
    intro outer hcounted _
    obtain ⟨hrest, rfl⟩ := advance_eq_some h
    rw [Task.reading, hrest]
    exact ih hdepth outer hcounted trivial
  | @unexpected s _ found h hnumber hopen =>
    intro outer _ hbegins
    rw [(advance_eq_some h).1] at hbegins
    have hfault : Fault s.limit.toNat outer [found] (.unexpected found) [] :=
      .unexpected (misplaced_of_unexpected hbegins hnumber hopen)
    rw [Task.reading, (advance_eq_some h).1]
    exact congrArg _ (resume_of_fault hfault rfl _)
  | @tooDeep s h =>
    intro outer hcounted _
    have hge : s.limit.toNat ≤ outer.length := by rw [← h, ← hcounted]; exact Nat.le_refl _
    have hfault : Fault s.limit.toNat outer [.paren '('] (.tooDeep s.limit.toNat) [] := .tooDeep hge
    exact congrArg _ (resume_of_fault hfault rfl _)
  | @counted s s₁ a hne _ ih =>
    intro outer hcounted _
    obtain ⟨hup, hle⟩ := depth_add_one hdepth hne
    exact ih hle outer (by rw [depth_turnTo, hup, ← hcounted]; rfl) trivial
  | headless h =>
    intro outer hcounted _
    obtain ⟨hrest, rfl⟩ := advance_eq_none h
    have hlt := lt_of_counted hdepth hcounted
    rw [Task.reading, hrest, resume.eq_def]
    simp [hlt, settle, Reading.outcome]
  | @malformed s _ found h hname =>
    intro outer hcounted _
    have hfault : Fault s.limit.toNat outer [.paren '(', found] (.malformedHead found) [] :=
      .malformedHead (lt_of_counted hdepth hcounted) hname
    rw [Task.reading, (advance_eq_some h).1]
    exact congrArg _ (resume_of_fault hfault rfl _)
  | named h _ ih =>
    intro outer hcounted _
    obtain ⟨hrest, rfl⟩ := advance_eq_some h
    rw [Task.reading, hrest, resume_head (lt_of_counted hdepth hcounted)]
    exact ih hdepth outer hcounted trivial
  | unterminated h =>
    intro outer _ _
    rw [Task.reading, List.head?_eq_none_iff.mp h, resume]
    rfl
  | @closed s name params t h hclose =>
    intro outer _ _
    obtain ⟨ts, hrest⟩ := rest_of_peek h
    have hadvance : s.advance.2.cursor.rest = ts := by simp [advance, Cursor.advance, hrest]
    rw [Task.reading, hrest, eq_of_isClose hclose, resume_close, Reading.outcome_after, hadvance]
    simp [OpenCall.close, settle]
  | @operand s s₁ _ name params t q _ h hclose hfirst _ ih ih' =>
    intro outer hcounted _
    have hsame := (hfirst.keeps_count hdepth).1
    have hlimit := hfirst.onward.1
    have hoperand := ih hdepth (⟨name, params.reverse⟩ :: outer) hcounted (.inr ⟨t, h, hclose⟩)
    have hcounted' : Task.counted outer (.operands name (params ++ [q])) = s₁.depth.toNat := by
      rw [hsame]
      exact hcounted
    have hothers := ih' (by rwa [hsame, hlimit]) outer hcounted' trivial
    rw [hlimit] at hothers
    rw [← hothers]
    refine hoperand.trans ?_
    simp [settle, deliver, Task.reading, OpenCall.add]
  | @failed _ _ name params t _ h hclose _ ih =>
    intro outer hcounted _
    exact ih hdepth (⟨name, params.reverse⟩ :: outer) hcounted (.inr ⟨t, h, hclose⟩)

/-! ## Every routine ends -/

/-- On as many tokens every routine ends. -/
def EndsAt (n : Nat) : Prop :=
  ∀ (task : Task) (s : Descent), s.cursor.rest.length = n → ∃ a s', Runs task s a s'

theorem exists_head {s : Descent} (h : ∀ k < s.cursor.rest.length, EndsAt k) :
    ∃ a s', Runs .head s a s' := by
  cases hadvance : s.advance with
  | mk found s₁ =>
    cases found with
    | none => exact ⟨_, _, .headless hadvance⟩
    | some t =>
      have hrest := (advance_eq_some hadvance).1
      cases t with
      | name name =>
        obtain ⟨a, s', hrun⟩ := h s₁.cursor.rest.length (by simp [hrest]) (.operands name []) s₁ rfl
        exact ⟨a, s', .named hadvance hrun⟩
      | paren c => exact ⟨_, _, .malformed hadvance rfl⟩
      | number digits => exact ⟨_, _, .malformed hadvance rfl⟩

theorem exists_call {s : Descent} (h : ∀ k < s.cursor.rest.length, EndsAt k) :
    ∃ a s', Runs .call s a s' := by
  by_cases hdepth : s.depth = s.limit
  · exact ⟨_, _, .tooDeep hdepth⟩
  · obtain ⟨a, s', hrun⟩ := exists_head (s := s.turnTo (s.depth + 1)) h
    exact ⟨_, _, .counted hdepth hrun⟩

theorem exists_expression {s : Descent} (h : ∀ k < s.cursor.rest.length, EndsAt k) :
    ∃ a s', Runs .expression s a s' := by
  cases hadvance : s.advance with
  | mk found s₁ =>
    cases found with
    | none => exact ⟨_, _, .nothing hadvance⟩
    | some t =>
      have hrest := (advance_eq_some hadvance).1
      cases t with
      | name text => exact ⟨_, _, .unexpected hadvance nofun nofun⟩
      | number digits => exact ⟨_, _, .number hadvance⟩
      | paren c =>
        by_cases hc : c = '('
        · subst hc
          obtain ⟨a, s', hrun⟩ := h s₁.cursor.rest.length (by simp [hrest]) .call s₁ rfl
          exact ⟨a, s', .opened hadvance hrun⟩
        · exact ⟨_, _, .unexpected hadvance nofun (by simpa using hc)⟩

theorem exists_operands {s : Descent} (h : ∀ k < s.cursor.rest.length, EndsAt k)
    (name : String) (params : List Node) : ∃ a s', Runs (.operands name params) s a s' := by
  cases hpeek : s.cursor.peek with
  | none => exact ⟨_, _, .unterminated hpeek⟩
  | some t =>
    cases hclose : t.isClose with
    | true => exact ⟨_, _, .closed hpeek hclose⟩
    | false =>
      obtain ⟨a, s₁, hfirst⟩ := exists_expression h
      cases a with
      | error e => exact ⟨_, _, .failed hpeek hclose hfirst⟩
      | ok q =>
        -- the expression has taken a token, so what is left is shorter
        obtain ⟨ts, hrest⟩ := rest_of_peek hpeek
        have hlt := hfirst.takes (by simp [hrest])
        obtain ⟨a, s', hrun⟩ := h _ hlt (.operands name (params ++ [q])) s₁ rfl
        exact ⟨a, s', .operand hpeek hclose hfirst hrun⟩

theorem endsAt (n : Nat) : EndsAt n := by
  induction n using Nat.strongRecOn with
  | ind n ih =>
    rintro task s rfl
    cases task with
    | expression => exact exists_expression ih
    | call => exact exists_call ih
    | head => exact exists_head ih
    | operands name params => exact exists_operands ih name params

theorem exists_runs (task : Task) (s : Descent) : ∃ a s', Runs task s a s' := endsAt _ task s rfl

theorem exists_loops (n : Nat) : ∀ (s : Descent) (body : List Node), s.cursor.rest.length = n →
    ∃ a s', Loops body s a s' := by
  induction n using Nat.strongRecOn with
  | ind n ih =>
    rintro s body rfl
    cases hend : s.cursor.isExhausted with
    | true => exact ⟨_, _, .done hend⟩
    | false =>
      obtain ⟨a, s₁, hfirst⟩ := exists_runs .expression s
      cases a with
      | error e => exact ⟨_, _, .failed hend hfirst⟩
      | ok q =>
        have hlt := hfirst.takes (by simpa [Cursor.isExhausted] using hend)
        obtain ⟨a, s', hrun⟩ := ih _ hlt s₁ (body ++ [q]) rfl
        exact ⟨a, s', .more hend hfirst hrun⟩

theorem exists_answers (q : Request) (s : Descent) : ∃ reply s', Answers q s reply s' := by
  cases q with
  | expression =>
    obtain ⟨a, s', hrun⟩ := exists_runs .expression s
    exact ⟨_, s', .expression hrun⟩
  | program =>
    obtain ⟨a, s', hrun⟩ := exists_loops _ s [] rfl
    exact ⟨_, s', .program hrun⟩

/-! ## Requests -/

/-- Between requests no call is counted, and all changes of the counter were exact. -/
structure Rested (s : Descent) : Prop where
  depth_eq : s.depth = 0
  turns_exact : ∀ t ∈ s.turns, t.Exact s.limit

theorem Rested.depth_le {s : Descent} (h : s.Rested) : s.depth ≤ s.limit := by
  rw [h.depth_eq]
  exact UInt64.zero_le

theorem Runs.rested {s s' : Descent} {a : Except ParseError Node} (h : Runs .expression s a s')
    (hs : s.Rested) : s'.Rested := by
  obtain ⟨hsame, hturns⟩ := h.keeps_count hs.depth_le
  refine ⟨hsame.trans hs.depth_eq, ?_⟩
  rw [h.onward.1]
  exact hturns hs.turns_exact

theorem Runs.outcome_read {s s' : Descent} {a : Except ParseError Node}
    (h : Runs .expression s a s') (hs : s.Rested) :
    (read s.limit.toNat s.cursor.rest).outcome = (a, s'.cursor.rest) := by
  have hreading := h.outcome_reading hs.depth_le [] (by rw [hs.depth_eq]; rfl) (.inl rfl)
  cases a <;> exact hreading

theorem Loops.onward {body : List Node} {s s' : Descent} {a : Except ParseError Program}
    (h : Loops body s a s') : s.Onward s' := by
  induction h with
  | done => exact .refl _
  | more _ hfirst _ ih => exact hfirst.onward.trans ih
  | failed _ hfirst => exact hfirst.onward

theorem Loops.rested {body : List Node} {s s' : Descent} {a : Except ParseError Program}
    (h : Loops body s a s') (hs : s.Rested) : s'.Rested := by
  induction h with
  | done => exact hs
  | more _ hfirst _ ih => exact ih (hfirst.rested hs)
  | failed _ hfirst => exact hfirst.rested hs

theorem Loops.outcome_readAll {body : List Node} {s s' : Descent} {a : Except ParseError Program}
    (h : Loops body s a s') (hs : s.Rested) :
    ((readAll s.limit.toNat s.cursor.rest).answer.map fun nodes => Program.mk (body ++ nodes)) = a ∧
      (readAll s.limit.toNat s.cursor.rest).rest = s'.cursor.rest := by
  induction h with
  | done hend =>
    have hnil := List.isEmpty_iff.mp hend
    simp [hnil, Except.map]
  | more hend hfirst _ ih =>
    have hne := List.isEmpty_eq_false_iff.mp hend
    have hread := hfirst.outcome_read hs
    obtain ⟨hanswer, hrest⟩ := ih (hfirst.rested hs)
    rw [hfirst.onward.1] at hanswer hrest
    have hleft : (read _ _).rest = _ := (Prod.mk.inj hread).2
    rw [readAll_of_ok hne (Prod.mk.inj hread).1, hleft]
    refine ⟨?_, hrest⟩
    rw [← hanswer]
    cases (readAll _ _).answer <;> simp [Except.map]
  | failed hend hfirst =>
    have hne := List.isEmpty_eq_false_iff.mp hend
    have hread := hfirst.outcome_read hs
    rw [readAll_of_error hne (Prod.mk.inj hread).1]
    exact ⟨rfl, (Prod.mk.inj hread).2⟩

namespace Answers

variable {q : Request} {s s' : Descent} {reply : Reply}

theorem onward (h : Answers q s reply s') : s.Onward s' := by
  cases h with
  | expression h => exact h.onward
  | program h => exact h.onward

theorem rested (h : Answers q s reply s') (hs : s.Rested) : s'.Rested := by
  cases h with
  | expression h => exact h.rested hs
  | program h => exact h.rested hs

/-- The reply is that of the reader with a stack, which stands at the same place. -/
theorem respond_eq (h : Answers q s reply s') (hs : s.Rested) :
    Reader.respond ⟨s.limit.toNat, s.cursor⟩ q = (reply, ⟨s.limit.toNat, s'.cursor⟩) := by
  have hcursor := h.onward.cursor_eq
  cases h with
  | expression h =>
    obtain ⟨hanswer, hrest⟩ := Prod.mk.inj (h.outcome_read hs)
    simp [Reader.respond, Reader.expression, Reader.after, hanswer, hrest, ← hcursor]
  | program h =>
    obtain ⟨hanswer, hrest⟩ := h.outcome_readAll hs
    simp only [List.nil_append] at hanswer
    simp [Reader.respond, Reader.program, Reader.after, hanswer, hrest, ← hcursor]

theorem takes_of_expression (h : Answers q s reply s') (hq : q = .expression)
    (hne : s.cursor.rest ≠ []) : s'.cursor.rest.length < s.cursor.rest.length := by
  cases h with
  | expression h => exact h.takes hne
  | program h => cases hq

/-- A program that fails has taken a token. -/
theorem takes_of_failed (h : Answers .program s reply s') (hfailed : reply.failed = true) :
    s'.cursor.rest.length < s.cursor.rest.length := by
  cases h with
  | program h =>
    cases h with
    | done hend => cases hfailed
    | more hend hfirst hothers =>
      have hlt := hfirst.takes (List.isEmpty_eq_false_iff.mp hend)
      have hle := hothers.onward.length_le
      omega
    | failed hend hfirst => exact hfirst.takes (List.isEmpty_eq_false_iff.mp hend)

end Answers

/-! ## Sessions -/

namespace Session

variable {start s : Descent} {past : List (Request × Reply)}

theorem onward (h : Session start past s) : start.Onward s := by
  induction h with
  | fresh => exact .refl _
  | next _ hanswer ih => exact ih.trans hanswer.onward

theorem rested (h : Session start past s) (hstart : start.Rested) : s.Rested := by
  induction h with
  | fresh => exact hstart
  | next _ hanswer ih => exact hanswer.rested ih

/-- Failed programs have taken a token each. -/
theorem length_of_failed (h : Session start past s)
    (hfailed : ∀ x ∈ past, x.1 = .program ∧ x.2.failed = true) :
    past.length + s.cursor.rest.length ≤ start.cursor.rest.length := by
  induction h with
  | fresh => simp
  | next _ hanswer ih =>
    obtain ⟨⟨hprogram, hlast⟩, hpast⟩ := List.forall_mem_cons.mp hfailed
    have hle := ih hpast
    subst hprogram
    have hlt := hanswer.takes_of_failed hlast
    rw [List.length_cons]
    omega

end Session

theorem rested_ofTokens (limit : UInt64) (ts : List Token) : (ofTokens limit ts).Rested :=
  ⟨rfl, nofun⟩

/-- What a reader replies does not depend on the tokens it has taken before. -/
theorem respond_consumed (limit : Nat) (rest : List Token) (n : Nat) (q : Request) :
    Reader.respond ⟨limit, ⟨rest, n⟩⟩ q =
      ((Reader.respond ⟨limit, ⟨rest, 0⟩⟩ q).1, ⟨limit,
        ⟨(Reader.respond ⟨limit, ⟨rest, 0⟩⟩ q).2.cursor.rest,
          n + (Reader.respond ⟨limit, ⟨rest, 0⟩⟩ q).2.cursor.consumed⟩⟩) := by
  cases q <;>
    simp [Reader.respond, Reader.expression, Reader.program, Reader.after, Cursor.leaving]

/-- Whatever was asked of a reader and failed before: no call is counted, each change of the
    counter was exact, and the tokens left are those not taken. Each further request has a
    reply, takes tokens from the front, one at least if an expression is asked for and a token
    is left, and has the reply and takes the tokens of a fresh reader of the tokens left, which
    are also those of the reader with a stack. If only programs were asked for and all failed,
    they were no more than the tokens. -/
theorem sessions_resume (limit : UInt64) (ts : List Token) {past : List (Request × Reply)}
    {s : Descent} (h : Session (ofTokens limit ts) past s) :
    (s.depth = 0 ∧ ∀ t ∈ s.turns, t.Exact limit) ∧
    (s.cursor.consumed ≤ ts.length ∧ s.cursor.rest = ts.drop s.cursor.consumed) ∧
    (∀ q, ∃ reply s', Answers q s reply s') ∧
    (∀ q reply s', Answers q s reply s' →
      (s.cursor.consumed ≤ s'.cursor.consumed ∧ s'.cursor.consumed ≤ ts.length) ∧
      (q = .expression → s.cursor.rest ≠ [] → s.cursor.consumed < s'.cursor.consumed) ∧
      (∀ reply' fresh, Answers q (ofTokens limit s.cursor.rest) reply' fresh → reply = reply' ∧
        s'.cursor = ⟨fresh.cursor.rest, s.cursor.consumed + fresh.cursor.consumed⟩) ∧
      Reader.respond ⟨limit.toNat, s.cursor⟩ q = (reply, ⟨limit.toNat, s'.cursor⟩)) ∧
    ((∀ x ∈ past, x.1 = .program ∧ x.2.failed = true) → past.length ≤ ts.length) := by
  have hstart := rested_ofTokens limit ts
  have hs := h.rested hstart
  obtain ⟨hlimit, taken, hsplit, hconsumed⟩ := h.onward
  replace hlimit : s.limit = limit := hlimit
  replace hsplit : ts = taken ++ s.cursor.rest := hsplit
  replace hconsumed : s.cursor.consumed = taken.length := hconsumed.trans (Nat.zero_add _)
  have hlength : ts.length = s.cursor.consumed + s.cursor.rest.length := by
    rw [hsplit, hconsumed, List.length_append]
  refine ⟨⟨hs.depth_eq, hlimit ▸ hs.turns_exact⟩, ⟨by omega, ?_⟩, fun q => exists_answers q s,
    fun q reply s' hanswer => ?_, fun hfailed => ?_⟩
  · rw [hconsumed, hsplit, List.drop_left]
  · obtain ⟨-, more, hsplit', hconsumed'⟩ := hanswer.onward
    have hlength' : s.cursor.rest.length = more.length + s'.cursor.rest.length := by
      rw [hsplit', List.length_append]
    have hrespond := hanswer.respond_eq hs
    rw [hlimit] at hrespond
    refine ⟨⟨by omega, by omega⟩, fun hq hne => ?_, fun reply' fresh hfresh => ?_, hrespond⟩
    · have hlt := hanswer.takes_of_expression hq hne
      omega
    · have hrespond' := hfresh.respond_eq (rested_ofTokens limit _)
      obtain ⟨hreply, hcursor⟩ := Prod.mk.inj
        ((respond_consumed limit.toNat s.cursor.rest s.cursor.consumed q).symm.trans hrespond)
      change Reader.respond ⟨limit.toNat, ⟨s.cursor.rest, 0⟩⟩ q = _ at hrespond'
      rw [hrespond'] at hreply hcursor
      exact ⟨hreply.symm, (congrArg Reader.cursor hcursor).symm⟩
  · have hle := h.length_of_failed hfailed
    exact Nat.le_trans (Nat.le_add_right _ _) hle

/-- Within one call of `( f ( g 1 ) )` the inner call is too deep. The program read from there
    fails at its name, and the next expression is the number. -/
theorem a_reader_goes_on_after_errors :
    ∃ s s' : Descent, Session
        (ofTokens 1 [.paren '(', .name "f", .paren '(', .name "g", .number "1", .paren ')',
          .paren ')'])
        [(.program, .program (.error (.unexpected (.name "g")))),
          (.expression, .node (.error (.tooDeep 1)))] s ∧
      s.cursor = ⟨[.number "1", .paren ')', .paren ')'], 4⟩ ∧
      s.depth = 0 ∧ s.turns = [⟨1, 0⟩, ⟨0, 1⟩] ∧ (∀ t ∈ s.turns, t.Exact 1) ∧
      Answers .expression s (.node (.ok (.number "1"))) s' ∧ s'.cursor.consumed = 5 := by
  have hsession : Session
      (ofTokens 1 [.paren '(', .name "f", .paren '(', .name "g", .number "1", .paren ')',
        .paren ')'])
      [(.program, .program (.error (.unexpected (.name "g")))),
        (.expression, .node (.error (.tooDeep 1)))]
      ⟨1, ⟨[.number "1", .paren ')', .paren ')'], 4⟩, 0, [⟨1, 0⟩, ⟨0, 1⟩]⟩ := by
    refine .next (.next .fresh (.expression (.opened rfl (.counted (by decide) (.named rfl
      (.failed rfl rfl (.opened rfl (.tooDeep rfl)))))))) (.program (.failed rfl ?_))
    exact .unexpected rfl nofun nofun
  obtain ⟨⟨hdepth, hexact⟩, -, -, hanswers, -⟩ := sessions_resume 1 _ hsession
  have hanswer : Answers .expression
      ⟨1, ⟨[.number "1", .paren ')', .paren ')'], 4⟩, 0, [⟨1, 0⟩, ⟨0, 1⟩]⟩
      (.node (.ok (.number "1"))) ⟨1, ⟨[.paren ')', .paren ')'], 5⟩, 0, [⟨1, 0⟩, ⟨0, 1⟩]⟩ :=
    .expression (.number rfl)
  obtain ⟨-, -, -, hrespond⟩ := hanswers _ _ _ hanswer
  exact ⟨_, _, hsession, rfl, hdepth, rfl, hexact, hanswer,
    congrArg (·.2.cursor.consumed) hrespond.symm⟩

end Descent

end CallForm.Source
