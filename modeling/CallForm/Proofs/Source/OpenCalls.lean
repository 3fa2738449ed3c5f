/-
  CallForm.Proofs.Source.OpenCalls — what the stack of open calls stands for, and how reading
  goes on from it.

  A stack stands for tokens (`opened`): the head of each call and its parameters so far. One
  token changes the stack in one of a few ways (`resume_number`, `resume_head`,
  `resume_close`), and an expression within the limit is taken as a whole (`resume_flat`).
  So a stack within the limit is exactly where reading stands after its tokens
  (`read_opened`), and closing parentheses make one expression of it (`opened_closers`).
-/

import CallForm.Proofs.Source.Shape
import CallForm.Source.Reading

namespace CallForm.Source

/-- The same reading after other events. -/
def Reading.after {α : Type} (events : List Event) (r : Reading α) : Reading α :=
  ⟨r.answer, r.rest, events ++ r.events⟩

@[simp] theorem Reading.after_after {α : Type} (xs ys : List Event) (r : Reading α) :
    (r.after ys).after xs = r.after (xs ++ ys) := by
  simp [after]

namespace Node

mutual

/-- The events of reading a tree: its calls in the order of their closing parentheses. -/
def closings : Node → List Event
  | .program body => closingsAll body
  | .call name params => closingsAll params ++ [.closedCall name params.length]
  | .number _ => []
  | .string _ => []

def closingsAll : List Node → List Event
  | [] => []
  | node :: others => closings node ++ closingsAll others

end

end Node

/-! ## Stacks -/

/-- The tokens that open a stack of calls. -/
def opened : List OpenCall → List Token
  | [] => []
  | call :: outer =>
    opened outer ++ .paren '(' :: .name call.name :: Node.flats call.params.reverse

/-- The events of the calls that were closed inside the calls of a stack. -/
def closedWithin : List OpenCall → List Event
  | [] => []
  | call :: outer => closedWithin outer ++ Node.closingsAll call.params.reverse

/-- At most `limit` calls are open, and no parameter goes deeper than that. -/
inductive Fits (limit : Nat) : List OpenCall → Prop
  | none : Fits limit []
  | within {call : OpenCall} {outer : List OpenCall} : outer.length < limit →
      (∀ q ∈ call.params, Expression (limit - (outer.length + 1)) q) → Fits limit outer →
      Fits limit (call :: outer)

theorem opened_cons_append (call : OpenCall) (outer : List OpenCall) (ts : List Token) :
    opened (call :: outer) ++ ts = opened outer ++
      .paren '(' :: .name call.name :: (Node.flats call.params.reverse ++ ts) := by
  simp [opened]

@[simp] theorem opened_add (call : OpenCall) (outer : List OpenCall) (q : Node) :
    opened (call.add q :: outer) = opened (call :: outer) ++ q.flat := by
  simp [opened, OpenCall.add]

theorem opened_close (call : OpenCall) (outer : List OpenCall) :
    opened (call :: outer) ++ [.paren ')'] = opened outer ++ call.close.flat := by
  simp [opened, OpenCall.close, Node.flat]

namespace Fits

variable {limit : Nat} {call : OpenCall} {others : List OpenCall}

theorem length_le {stack : List OpenCall} (h : Fits limit stack) : stack.length ≤ limit := by
  cases h with
  | none => exact Nat.zero_le _
  | within hlt _ _ => exact hlt

theorem outer (h : Fits limit (call :: others)) : Fits limit others := by
  cases h; assumption

theorem add (h : Fits limit (call :: others)) {q : Node}
    (hq : Expression (limit - (others.length + 1)) q) : Fits limit (call.add q :: others) := by
  cases h with
  | within hlt hparams houter =>
    refine .within hlt ?_ houter
    intro p hp
    rcases List.mem_cons.mp hp with rfl | hp
    · exact hq
    · exact hparams p hp

theorem open_ {stack : List OpenCall} (h : Fits limit stack) (hlt : stack.length < limit)
    (name : String) : Fits limit (⟨name, []⟩ :: stack) :=
  .within hlt (by simp) h

/-- Closing a call gives an expression that may stand where the call did. -/
theorem close (h : Fits limit (call :: others)) :
    Expression (limit - others.length) call.close := by
  cases h with
  | within hlt hparams _ =>
    have hdepth : limit - others.length = limit - (others.length + 1) + 1 := by omega
    rw [hdepth]
    exact .call fun q hq => hparams q (List.mem_reverse.mp hq)

end Fits

/-! ## Steps -/

/-- Goes on after an expression: it joins the innermost open call, or is the answer. -/
def deliver (limit : Nat) : List OpenCall → Node → List Token → Reading Node
  | [], q, rest => ⟨.ok q, rest, []⟩
  | call :: outer, q, rest => resume limit (call.add q :: outer) rest

theorem resume_number (limit : Nat) (stack : List OpenCall) (digits : String) (rest : List Token) :
    resume limit stack (.number digits :: rest) = deliver limit stack (.number digits) rest := by
  cases stack <;> simp only [resume, deliver]

theorem resume_head {limit : Nat} {stack : List OpenCall} (h : stack.length < limit)
    (name : String) (rest : List Token) :
    resume limit stack (.paren '(' :: .name name :: rest) =
      resume limit (⟨name, []⟩ :: stack) rest := by
  rw [resume.eq_def]
  simp only [if_pos h, if_true]

theorem resume_close (limit : Nat) (call : OpenCall) (outer : List OpenCall) (rest : List Token) :
    resume limit (call :: outer) (.paren ')' :: rest) =
      (deliver limit outer call.close rest).after [call.closed] := by
  rw [resume.eq_def]
  cases outer <;> simp [deliver, Reading.after]

/-- In a call that is open under these, reading takes the tree as a whole. -/
def TakenIn (limit : Nat) (outer : List OpenCall) (q : Node) : Prop :=
  ∀ call rest, resume limit (call :: outer) (q.flat ++ rest) =
    (resume limit (call.add q :: outer) rest).after q.closings

theorem resume_flats {limit : Nat} {outer : List OpenCall} {qs : List Node}
    (h : ∀ q ∈ qs, TakenIn limit outer q) : ∀ (call : OpenCall) (rest : List Token),
      resume limit (call :: outer) (Node.flats qs ++ rest) =
        (resume limit (⟨call.name, qs.reverse ++ call.params⟩ :: outer) rest).after
          (Node.closingsAll qs) := by
  induction qs with
  | nil => intro call rest; rfl
  | cons q qs ih =>
    intro call rest
    obtain ⟨hq, hqs⟩ := List.forall_mem_cons.mp h
    rw [Node.flats_cons, List.append_assoc, hq, ih hqs, Reading.after_after]
    simp [OpenCall.add, Node.closingsAll]

/-- An expression within the limit is taken as a whole, wherever it stands. -/
theorem resume_flat {limit d : Nat} {q : Node} (h : Expression d q) :
    ∀ {stack : List OpenCall}, stack.length + d ≤ limit → ∀ rest,
      resume limit stack (q.flat ++ rest) = (deliver limit stack q rest).after q.closings := by
  induction h with
  | number digits => intro stack _ rest; exact resume_number limit stack digits rest
  | @call d name params _ ih =>
    intro stack hdepth rest
    have hparams : ∀ q ∈ params, TakenIn limit stack q := fun q hq call rest =>
      ih q hq (by rw [List.length_cons]; omega) rest
    rw [Node.flat_call_append, resume_head (by omega), resume_flats hparams, resume_close,
      Reading.after_after]
    simp [OpenCall.close, OpenCall.closed, Node.closings]

theorem Expression.takenIn {limit d : Nat} {q : Node} (h : Expression d q)
    {outer : List OpenCall} (hdepth : outer.length + 1 + d ≤ limit) : TakenIn limit outer q :=
  fun _ rest => resume_flat h hdepth rest

/-! ## Whole stacks -/

/-- Reading from the start stands at the stack once it has taken the stack's tokens. -/
theorem read_opened {limit : Nat} {stack : List OpenCall} (h : Fits limit stack) :
    ∀ ts, read limit (opened stack ++ ts) = (resume limit stack ts).after (closedWithin stack) := by
  induction h with
  | none => intro ts; rfl
  | @within call outer hlt hparams _ ih =>
    intro ts
    have htaken : ∀ q ∈ call.params.reverse, TakenIn limit outer q := fun q hq =>
      (hparams q (List.mem_reverse.mp hq)).takenIn (by omega)
    rw [opened_cons_append, ih, resume_head hlt, resume_flats htaken, Reading.after_after]
    simp [closedWithin]

/-- Open calls become one expression by as many closing parentheses. -/
theorem opened_closers {limit : Nat} {outer : List OpenCall} :
    ∀ {call : OpenCall}, Fits limit (call :: outer) → ∃ q, Expression limit q ∧
      opened (call :: outer) ++ List.replicate (outer.length + 1) (.paren ')') = q.flat := by
  induction outer with
  | nil =>
    intro call h
    exact ⟨call.close, h.close, opened_close call []⟩
  | cons next others ih =>
    intro call h
    -- the innermost call, closed, is the newest parameter of the next
    obtain ⟨q, hq, hflat⟩ := ih (h.outer.add h.close)
    refine ⟨q, hq, ?_⟩
    rw [opened_add, ← opened_close, List.append_assoc] at hflat
    exact hflat

end CallForm.Source
