/-
  CallForm.Proofs.Source.ClosedCalls — the calls that a run of the reader closes.

  In a tree they are its calls with each behind those in it, which are the calls of the tree in
  another order (`closingsAll_eq`, `postorderAll_perm`). In tokens they are told by matching
  parentheses and counting what stands between (`closedCalls`), which needs no tree. Both say
  the same of expressions (`closedCalls_flats`), and of the calls that a stack leaves open
  (`closedCalls_opened`). So a run that succeeds reports the calls of its tree
  (`events_parse_of_ok`), and one that fails those closed by the tokens before the fault
  (`events_parse_of_error`).
-/

import CallForm.Proofs.Source.Faults

namespace CallForm

def Event.closed (call : String × Nat) : Event := .closedCall call.1 call.2

namespace Source

/-! ## Calls of trees -/

namespace Node

mutual

/-- A node and all nodes under it, each after its children. -/
def postorder : Node → List Node
  | .program body => postorderAll body ++ [.program body]
  | .call name params => postorderAll params ++ [.call name params]
  | .number digits => [.number digits]
  | .string value => [.string value]

def postorderAll : List Node → List Node
  | [] => []
  | node :: others => postorder node ++ postorderAll others

end

/-- The name of a call and the number of its parameters. -/
def call? : Node → Option (String × Nat)
  | .call name params => some (name, params.length)
  | .program _ | .number _ | .string _ => none

theorem postorderAll_perm_of {qs : List Node} (h : ∀ q ∈ qs, q.postorder.Perm q.nodes) :
    (postorderAll qs).Perm (nodesAll qs) := by
  induction qs with
  | nil => exact .nil
  | cons q qs ih =>
    obtain ⟨hq, hqs⟩ := List.forall_mem_cons.mp h
    exact hq.append (ih hqs)

theorem postorder_perm (q : Node) : q.postorder.Perm q.nodes := by
  induction q using tree_induction with
  | program body ih => exact (postorderAll_perm_of ih).append_right _ |>.trans List.perm_append_comm
  | call name params ih =>
    exact (postorderAll_perm_of ih).append_right _ |>.trans List.perm_append_comm
  | number digits | string value => exact .refl _

theorem postorderAll_perm (qs : List Node) : (postorderAll qs).Perm (nodesAll qs) :=
  postorderAll_perm_of fun q _ => postorder_perm q

theorem closingsAll_eq_of {qs : List Node}
    (h : ∀ q ∈ qs, q.closings = (q.postorder.filterMap call?).map Event.closed) :
    closingsAll qs = ((postorderAll qs).filterMap call?).map Event.closed := by
  induction qs with
  | nil => rfl
  | cons q qs ih =>
    obtain ⟨hq, hqs⟩ := List.forall_mem_cons.mp h
    rw [closingsAll, postorderAll, hq, ih hqs, List.filterMap_append, List.map_append]

theorem closings_eq (q : Node) :
    q.closings = (q.postorder.filterMap call?).map Event.closed := by
  induction q using tree_induction with
  | program body ih => simp [closings, postorder, closingsAll_eq_of ih, call?]
  | call name params ih => simp [closings, postorder, closingsAll_eq_of ih, call?, Event.closed]
  | number digits | string value => rfl

theorem closingsAll_eq (qs : List Node) :
    closingsAll qs = ((postorderAll qs).filterMap call?).map Event.closed :=
  closingsAll_eq_of fun q _ => closings_eq q

end Node

/-! ## Calls of tokens -/

/-- The innermost of the open calls has so many more parameters. -/
def counted (more : Nat) : List (String × Nat) → List (String × Nat)
  | [] => []
  | (name, params) :: outer => (name, params + more) :: outer

/-- The calls that tokens close, in the order of their closing parentheses, if the calls of
    `calls` are open before, innermost first, each with the number of its parameters so far. A
    token that neither begins nor closes anything ends the list. -/
def closedCalls (calls : List (String × Nat)) : List Token → List (String × Nat)
  | .number _ :: ts => closedCalls (counted 1 calls) ts
  | .paren '(' :: .name name :: ts => closedCalls ((name, 0) :: calls) ts
  | .paren ')' :: ts =>
    match calls with
    | [] => []
    | call :: outer => call :: closedCalls (counted 1 outer) ts
  | _ => []

@[simp] theorem counted_zero (calls : List (String × Nat)) : counted 0 calls = calls := by
  cases calls <;> rfl

@[simp] theorem counted_counted (m n : Nat) (calls : List (String × Nat)) :
    counted n (counted m calls) = counted (m + n) calls := by
  cases calls <;> simp [counted, Nat.add_assoc]

theorem closedCalls_flats_of {qs : List Node}
    (h : ∀ q ∈ qs, ∀ calls ts, (closedCalls calls (q.flat ++ ts)).map Event.closed =
      q.closings ++ (closedCalls (counted 1 calls) ts).map Event.closed) :
    ∀ calls ts, (closedCalls calls (Node.flats qs ++ ts)).map Event.closed =
      Node.closingsAll qs ++ (closedCalls (counted qs.length calls) ts).map Event.closed := by
  induction qs with
  | nil => simp [Node.closingsAll]
  | cons q qs ih =>
    intro calls ts
    obtain ⟨hq, hqs⟩ := List.forall_mem_cons.mp h
    rw [Node.flats_cons, List.append_assoc, hq, ih hqs, counted_counted, Node.closingsAll,
      List.append_assoc, List.length_cons, Nat.add_comm 1]

theorem closedCalls_flat {d : Nat} {q : Node} (h : Expression d q) :
    ∀ calls ts, (closedCalls calls (q.flat ++ ts)).map Event.closed =
      q.closings ++ (closedCalls (counted 1 calls) ts).map Event.closed := by
  induction h with
  | number digits => exact fun calls ts => rfl
  | @call d name params _ ih =>
    intro calls ts
    rw [Node.flat_call_append, closedCalls, closedCalls_flats_of ih]
    simp [counted, closedCalls, Node.closings, Event.closed]

theorem closedCalls_flats {d : Nat} {qs : List Node} (h : ∀ q ∈ qs, Expression d q)
    (calls : List (String × Nat)) (ts : List Token) :
    (closedCalls calls (Node.flats qs ++ ts)).map Event.closed =
      Node.closingsAll qs ++ (closedCalls (counted qs.length calls) ts).map Event.closed :=
  closedCalls_flats_of (fun q hq => closedCalls_flat (h q hq)) calls ts

/-- An open call as far as it has been read. -/
def OpenCall.soFar (call : OpenCall) : String × Nat := (call.name, call.params.length)

theorem closedCalls_opened {limit : Nat} {stack : List OpenCall} (h : Fits limit stack) :
    ∀ ts, (closedCalls [] (opened stack ++ ts)).map Event.closed =
      closedWithin stack ++ (closedCalls (stack.map OpenCall.soFar) ts).map Event.closed := by
  induction h with
  | none => exact fun ts => rfl
  | @within call outer _ hparams _ ih =>
    intro ts
    have hflats := closedCalls_flats fun q hq => hparams q (List.mem_reverse.mp hq)
    rw [opened_cons_append, ih, closedCalls, hflats]
    simp [counted, closedWithin, OpenCall.soFar]

/-! ## Runs -/

section

variable {limit : Nat} {body : List Node} {stack : List OpenCall} {last rest : List Token}
  {e : ParseError}

/-- The tokens at a fault close no call, with the last of them or without. -/
theorem closedCalls_fault (h : Fault limit stack last e rest) :
    closedCalls (stack.map OpenCall.soFar) last = [] ∧
      closedCalls (stack.map OpenCall.soFar) last.dropLast = [] := by
  cases h with
  | nothing | unterminated | missingHead | tooDeep => simp [closedCalls]
  | @malformedHead _ t _ _ hname => cases t <;> simp_all [closedCalls, Token.isName]
  | @unexpected _ t _ ht =>
    refine ⟨?_, rfl⟩
    cases t with
    | number digits => cases ht
    | name text => simp [closedCalls]
    | paren c =>
      obtain ⟨hopen, hclose⟩ := ht
      by_cases hc : c = ')'
      · simp [hc, hclose hc, closedCalls]
      · simp [closedCalls.eq_def, hc]

theorem closedCalls_stopped (hbody : ∀ q ∈ body, Expression limit q) (hfits : Fits limit stack)
    (hlast : closedCalls (stack.map OpenCall.soFar) last = []) :
    (closedCalls [] (Node.flats body ++ (opened stack ++ last))).map Event.closed =
      Node.closingsAll body ++ closedWithin stack := by
  rw [closedCalls_flats hbody, counted, closedCalls_opened hfits, hlast, List.map_nil,
    List.append_nil]

theorem resume_fault (h : Fault limit stack last e rest) :
    resume limit stack (last ++ rest) = ⟨.error e, rest, []⟩ := by
  cases he : e.atEnd with
  | false => exact resume_of_fault h he rest
  | true =>
    cases h with
    | malformedHead | unexpected | tooDeep => cases he
    | nothing | unterminated => simp [resume]
    | missingHead hlt =>
      rw [List.singleton_append, resume.eq_def]
      simp [hlt]

theorem events_readAll_of_fault (hbody : ∀ q ∈ body, Expression limit q)
    (hfits : Fits limit stack) (hfault : Fault limit stack last e rest)
    (hne : opened stack ++ (last ++ rest) ≠ []) :
    (readAll limit (Node.flats body ++ (opened stack ++ (last ++ rest)))).events =
      Node.closingsAll body ++ closedWithin stack := by
  have hread : read limit (opened stack ++ (last ++ rest)) =
      ⟨.error e, rest, closedWithin stack⟩ := by
    rw [read_opened hfits, resume_fault hfault]
    simp [Reading.after]
  rw [readAll_flats hbody, readAll_of_error hne (by rw [hread]), hread]

end

/-- The tokens at the front of `ts` that begin a program, as many as do. -/
structure Progress (limit : Nat) (ts front : List Token) : Prop where
  begins : front <+: ts
  viable : ∃ us p, (parse limit (front ++ us)).result = .ok p
  longest : ∀ more us p, more <+: ts → (parse limit (more ++ us)).result = .ok p →
    more.length ≤ front.length

/-- A token after which nothing can be a program ends the progress. -/
theorem Progress.of_offender {limit : Nat} {front after : List Token} {t : Token}
    {e : ParseError} (hviable : ∃ us p, (parse limit (front ++ us)).result = .ok p)
    (hfails : ∀ us, (parse limit (front ++ t :: us)).result = .error e) :
    Progress limit (front ++ t :: after) front := by
  refine ⟨List.prefix_append _ _, hviable, ?_⟩
  rintro more us p hmore hp
  rw [← Nat.not_lt]
  intro hlt
  obtain ⟨others, rfl⟩ : front <+: more :=
    List.prefix_of_prefix_length_le (List.prefix_append _ _) hmore (by omega)
  cases others with
  | nil => simp at hlt
  | cons u others =>
    obtain ⟨left, hleft⟩ := hmore
    rw [List.append_assoc] at hleft
    obtain rfl : u = t := (List.cons.inj (List.append_cancel_left hleft)).1
    rw [List.append_assoc, List.cons_append, hfails] at hp
    cases hp

/-- A run that fails has closed the calls that the tokens before its fault close. -/
theorem events_parse_of_error {limit : Nat} {ts : List Token} {e : ParseError}
    (h : (parse limit ts).result = .error e) : ∃ front, Progress limit ts front ∧
      (parse limit ts).events = (closedCalls [] front).map Event.closed := by
  rw [result_parse_eq_error] at h
  have hevents : (parse limit ts).events = (readAll limit ts).events := by
    rw [parse]
    simp only [h]
  have hend := readAll_ending limit ts
  rw [h] at hend
  rw [hevents]
  generalize (readAll limit ts).rest = rest at hend
  cases hend with
  | @stopped body stack last _ _ hbody hfits hfault hne hts =>
    obtain ⟨hlast, hbefore⟩ := closedCalls_fault hfault
    have hclosed := events_readAll_of_fault hbody hfits hfault hne
    rw [← hts] at hclosed
    rw [hclosed]
    cases he : e.atEnd with
    | true =>
      obtain ⟨rfl, hviable, -⟩ := atEnd_of_fault hbody hfits hfault he hne hts
      refine ⟨ts, ⟨List.prefix_refl ts, hviable, fun more us p hmore _ => hmore.length_le⟩, ?_⟩
      rw [hts, List.append_nil, closedCalls_stopped hbody hfits hlast]
    | false =>
      obtain ⟨front, t, hsplit, -, hviable⟩ := offender_of_fault hbody hfits hfault he
      have hfails : ∀ us, (parse limit (front ++ t :: us)).result = .error e := by
        intro us
        rw [result_parse_eq_error, List.append_cons, ← hsplit, List.append_assoc,
          List.append_assoc]
        exact readAll_of_fault hbody hfits hfault he us
      have hts' : ts = front ++ t :: rest := by
        rw [hts, List.append_cons, ← hsplit]
        simp
      refine ⟨front, hts' ▸ Progress.of_offender hviable hfails, ?_⟩
      have hne_last : last ≠ [] := by
        rintro rfl
        cases hfault with
        | nothing | unterminated => cases he
      have hfront : front = Node.flats body ++ (opened stack ++ last.dropLast) := by
        have hdrop := congrArg List.dropLast hsplit
        rw [List.dropLast_concat, ← List.append_assoc, List.dropLast_append_of_ne_nil hne_last,
          List.append_assoc] at hdrop
        exact hdrop.symm
      rw [hfront, closedCalls_stopped hbody hfits hbefore]

theorem events_parse_of_ok {limit : Nat} {ts : List Token} {p : Program}
    (h : (parse limit ts).result = .ok p) : (parse limit ts).events =
      ((Node.postorderAll p.body).filterMap Node.call?).map Event.closed ++
        [.parsed ts.length p.body.length] := by
  rw [result_parse_eq_ok] at h
  obtain ⟨hbody, hts⟩ := readAll_eq_ok_iff.mp h
  have hread := readAll_flats hbody []
  rw [List.append_nil, ← hts] at hread
  have hevents : (readAll limit ts).events = Node.closingsAll p.body := by
    rw [hread]
    simp
  rw [parse, ← Node.closingsAll_eq, ← hevents]
  simp only [h]

/-- Matching parentheses and counting tells the calls of expressions. -/
theorem closedCalls_flats_eq {d : Nat} {qs : List Node} (h : ∀ q ∈ qs, Expression d q) :
    closedCalls [] (Node.flats qs) = (Node.postorderAll qs).filterMap Node.call? := by
  have hclosed : (closedCalls [] (Node.flats qs)).map Event.closed =
      ((Node.postorderAll qs).filterMap Node.call?).map Event.closed := by
    simpa [counted, closedCalls, Node.closingsAll_eq] using closedCalls_flats h [] []
  have hinj : Function.Injective Event.closed := by
    rintro ⟨name, params⟩ ⟨name', params'⟩ heq
    cases heq
    rfl
  exact (List.map_inj_right hinj).mp hclosed

end Source

end CallForm
