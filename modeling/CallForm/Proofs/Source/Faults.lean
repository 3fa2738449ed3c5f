/-
  CallForm.Proofs.Source.Faults — parse errors are exact, and as early as they can be.

  Two facts carry it. Tokens at which calls are open can be completed to a program
  (`completes`), also after the parenthesis of one more call (`completes_head`). And at a fault
  that is not the end of the tokens, the error does not depend on what follows
  (`readAll_of_fault`). So an error at the end of the tokens says that they are the beginning
  of a program, and any other error stands at the first token that is not (`parse_error_exact`).

  Which calls are open after tokens is said by `openCalls`, which matches parentheses only.
-/

import CallForm.Proofs.Source.Acceptance

namespace CallForm.Source

/-- The names of the calls that tokens leave open, innermost first, if those of `names` are open
    before: a parenthesis with a name opens a call, a closing parenthesis closes the innermost. -/
def openCalls (names : List String) : List Token → List String
  | [] => names
  | .paren '(' :: .name name :: ts => openCalls (name :: names) ts
  | .paren ')' :: ts => openCalls names.tail ts
  | _ :: ts => openCalls names ts

/-- The number of tokens taken by the time reading a program ends. -/
def taken (limit : Nat) (ts : List Token) : Nat :=
  (Reader.ofTokens limit ts).program.2.cursor.consumed

namespace ParseError

/-- Errors that say the tokens ended too early. -/
def atEnd : ParseError → Bool
  | .unexpectedEnd | .unterminated _ => true
  | .malformedHead _ | .unexpected _ | .tooDeep _ => false

/-- The error is about the token `t` after the tokens `before`: it is the one found, or a
    parenthesis where `limit` calls are open already. -/
def Offender (limit : Nat) (before : List Token) (t : Token) : ParseError → Prop
  | .malformedHead found | .unexpected found => t = found
  | .tooDeep n => n = limit ∧ t = .paren '(' ∧ (openCalls [] before).length = limit
  | .unexpectedEnd | .unterminated _ => False

end ParseError

/-! ## Calls that are open -/

theorem openCalls_flats_of {qs : List Node}
    (h : ∀ q ∈ qs, ∀ names ts, openCalls names (q.flat ++ ts) = openCalls names ts) :
    ∀ names ts, openCalls names (Node.flats qs ++ ts) = openCalls names ts := by
  induction qs with
  | nil => intro names ts; rfl
  | cons q qs ih =>
    intro names ts
    obtain ⟨hq, hqs⟩ := List.forall_mem_cons.mp h
    rw [Node.flats_cons, List.append_assoc, hq, ih hqs]

theorem openCalls_flat {d : Nat} {q : Node} (h : Expression d q) :
    ∀ names ts, openCalls names (q.flat ++ ts) = openCalls names ts := by
  induction h with
  | number digits => intro names ts; rfl
  | @call d name params _ ih =>
    intro names ts
    rw [Node.flat_call_append, openCalls, openCalls_flats_of ih, openCalls, List.tail_cons]

theorem openCalls_flats {d : Nat} {qs : List Node} (h : ∀ q ∈ qs, Expression d q)
    (names : List String) (ts : List Token) :
    openCalls names (Node.flats qs ++ ts) = openCalls names ts :=
  openCalls_flats_of (fun q hq => openCalls_flat (h q hq)) names ts

theorem openCalls_opened {limit : Nat} {stack : List OpenCall} (h : Fits limit stack) :
    ∀ ts, openCalls [] (opened stack ++ ts) = openCalls (stack.map (·.name)) ts := by
  induction h with
  | none => intro ts; rfl
  | @within call outer _ hparams _ ih =>
    intro ts
    have hflats := openCalls_flats fun q hq => hparams q (List.mem_reverse.mp hq)
    rw [opened_cons_append, ih, openCalls, hflats, List.map_cons]

/-! ## Completion -/

section

variable {limit : Nat} {body : List Node} {stack : List OpenCall}

theorem completes (hbody : ∀ q ∈ body, Expression limit q) (h : Fits limit stack) :
    ∃ us p, (parse limit (Node.flats body ++ (opened stack ++ us))).result = .ok p := by
  cases stack with
  | nil =>
    refine ⟨[], ⟨body⟩, ?_⟩
    rw [result_parse_eq_ok, readAll_eq_ok_iff]
    exact ⟨hbody, by simp [opened]⟩
  | cons call outer =>
    obtain ⟨q, hq, hflat⟩ := opened_closers h
    refine ⟨List.replicate (outer.length + 1) (.paren ')'), ⟨body ++ [q]⟩, ?_⟩
    rw [result_parse_eq_ok, readAll_eq_ok_iff, hflat]
    refine ⟨?_, by simp⟩
    intro r hr
    rcases List.mem_append.mp hr with hr | hr
    · exact hbody r hr
    · rwa [List.mem_singleton.mp hr]

/-- Any name will do after the parenthesis. -/
theorem completes_head (hbody : ∀ q ∈ body, Expression limit q) (h : Fits limit stack)
    (hlt : stack.length < limit) :
    ∃ us p,
      (parse limit (Node.flats body ++ (opened stack ++ .paren '(' :: us))).result = .ok p := by
  obtain ⟨us, p, hp⟩ := completes hbody (h.open_ hlt "")
  refine ⟨.name "" :: us, p, ?_⟩
  simpa [opened] using hp

/-! ## Errors before the end -/

/-- Such a fault is found from its tokens alone, and nothing after them is taken. -/
theorem resume_of_fault {last rest : List Token} {e : ParseError}
    (hf : Fault limit stack last e rest) (he : e.atEnd = false) (us : List Token) :
    resume limit stack (last ++ us) = ⟨.error e, us, []⟩ := by
  cases hf with
  | nothing | unterminated | missingHead => cases he
  | @malformedHead _ t _ hlt hname =>
    rw [List.cons_append, List.singleton_append, resume.eq_def]
    cases t with
    | name text => cases hname
    | paren c => simp [hlt]
    | number digits => simp [hlt]
  | @unexpected _ t _ ht =>
    rw [List.singleton_append]
    cases t with
    | number digits => cases ht
    | name text => rw [resume]
    | paren c =>
      obtain ⟨hopen, hclose⟩ := ht
      rw [resume.eq_def]
      by_cases hc : c = ')'
      · subst hc
        rw [hclose rfl]
        simp
      · simp [hopen, hc]
  | tooDeep hge =>
    rw [List.singleton_append, resume.eq_def]
    simp [Nat.not_lt.mpr hge]

/-- A program that begins with the tokens up to a fault ends there, whatever follows. -/
theorem readAll_of_fault (hbody : ∀ q ∈ body, Expression limit q) (h : Fits limit stack)
    {last rest : List Token} {e : ParseError} (hf : Fault limit stack last e rest)
    (he : e.atEnd = false) (us : List Token) :
    (readAll limit (Node.flats body ++ (opened stack ++ (last ++ us)))).answer = .error e := by
  have hread : (read limit (opened stack ++ (last ++ us))).answer = .error e := by
    rw [read_opened h, resume_of_fault hf he]
    rfl
  have hne : opened stack ++ (last ++ us) ≠ [] := by
    cases hf with
    | nothing | unterminated | missingHead => cases he
    | malformedHead | unexpected | tooDeep => simp
  rw [readAll_flats hbody, readAll_of_error hne hread]
  rfl

theorem offender_of_fault (hbody : ∀ q ∈ body, Expression limit q) (h : Fits limit stack)
    {last rest : List Token} {e : ParseError} (hf : Fault limit stack last e rest)
    (he : e.atEnd = false) : ∃ before t,
      Node.flats body ++ (opened stack ++ last) = before ++ [t] ∧ e.Offender limit before t ∧
        ∃ us p, (parse limit (before ++ us)).result = .ok p := by
  obtain ⟨us, p, hp⟩ := completes hbody h
  rw [← List.append_assoc] at hp
  cases hf with
  | nothing | unterminated | missingHead => cases he
  | @malformedHead _ t _ hlt hname =>
    refine ⟨Node.flats body ++ (opened stack ++ [.paren '(']), t, by simp, rfl, ?_⟩
    obtain ⟨us, p, hp⟩ := completes_head hbody h hlt
    exact ⟨us, p, by simpa using hp⟩
  | @unexpected _ t _ ht =>
    exact ⟨Node.flats body ++ opened stack, t, by simp, rfl, us, p, hp⟩
  | tooDeep hge =>
    refine ⟨Node.flats body ++ opened stack, .paren '(', by simp, ⟨rfl, rfl, ?_⟩, us, p, hp⟩
    have hopen := openCalls_opened h []
    rw [openCalls, List.append_nil] at hopen
    rw [openCalls_flats hbody, hopen, List.length_map]
    exact Nat.le_antisymm h.length_le hge

/-! ## Errors at the end -/

/-- An expression ends with a number or a closing parenthesis. -/
theorem getLast_flat_ne {d : Nat} {q : Node} (h : Expression d q) :
    q.flat.getLast? ≠ some (.paren '(') := by
  cases h with
  | number digits => simp [Node.flat]
  | call _ => simp [Node.flat, List.getLast?_cons]

theorem getLast_flats_ne {d : Nat} {qs : List Node} (h : ∀ q ∈ qs, Expression d q) :
    (Node.flats qs).getLast? ≠ some (.paren '(') := by
  induction qs with
  | nil => simp
  | cons q qs ih =>
    obtain ⟨hq, hqs⟩ := List.forall_mem_cons.mp h
    have hlast := ih hqs
    rw [Node.flats_cons, List.getLast?_append]
    cases hflats : (Node.flats qs).getLast? with
    | none => simpa using getLast_flat_ne hq
    | some t => rwa [hflats] at hlast

/-- After the head of a call comes its name, or the end of a parameter. -/
theorem getLast_opened_ne {call : OpenCall} {outer : List OpenCall}
    (h : Fits limit (call :: outer)) : (opened (call :: outer)).getLast? ≠ some (.paren '(') := by
  cases h with
  | within _ hparams _ =>
    have hlast := getLast_flats_ne fun q hq => hparams q (List.mem_reverse.mp hq)
    rw [opened, List.getLast?_append, List.getLast?_cons_cons, List.getLast?_cons]
    cases hflats : (Node.flats call.params.reverse).getLast? with
    | none => simp
    | some t => simpa [hflats] using hlast

/-- A fault at the end takes all tokens. They begin a program, and the error is told by their
    last parenthesis and the calls they leave open. -/
theorem atEnd_of_fault (hbody : ∀ q ∈ body, Expression limit q) (h : Fits limit stack)
    {last rest : List Token} {e : ParseError} (hf : Fault limit stack last e rest)
    (he : e.atEnd = true) (hne : opened stack ++ (last ++ rest) ≠ []) {ts : List Token}
    (hts : ts = Node.flats body ++ (opened stack ++ (last ++ rest))) :
    rest = [] ∧ (∃ us p, (parse limit (ts ++ us)).result = .ok p) ∧
      (e = .unexpectedEnd ↔ ts.getLast? = some (.paren '(')) ∧
      (e ≠ .unexpectedEnd → ∃ name outer, openCalls [] ts = name :: outer ∧
        e = .unterminated name) := by
  subst hts
  cases hf with
  | malformedHead | unexpected | tooDeep => cases he
  | nothing => exact absurd rfl hne
  | missingHead hlt =>
    obtain ⟨us, p, hp⟩ := completes_head hbody h hlt
    exact ⟨rfl, ⟨us, p, by simpa using hp⟩, by simp, fun hc => absurd rfl hc⟩
  | unterminated call outer =>
    obtain ⟨us, p, hp⟩ := completes hbody h
    have hopen := openCalls_opened h []
    rw [List.append_nil, openCalls, List.map_cons] at hopen
    refine ⟨rfl, ⟨us, p, by simpa using hp⟩, ?_, fun _ => ⟨call.name, outer.map (·.name), ?_, rfl⟩⟩
    · have hlast := getLast_opened_ne h
      rw [List.append_nil, List.append_nil, List.getLast?_append]
      cases hl : (opened (call :: outer)).getLast? with
      | none => simpa using getLast_flats_ne hbody
      | some t => simpa [hl] using hlast
    · rw [List.append_nil, List.append_nil, openCalls_flats hbody, hopen]

end

/-! ## Errors of programs -/

theorem taken_eq (limit : Nat) (ts : List Token) :
    taken limit ts = ts.length - (readAll limit ts).rest.length := by
  simp [taken, Reader.program, Reader.ofTokens, Reader.after, Cursor.leaving]

/-- An error that is not about the end stays the error whatever follows. -/
theorem parse_append_of_error {limit : Nat} {ts : List Token} {e : ParseError}
    (h : (parse limit ts).result = .error e) (he : e.atEnd = false) (us : List Token) :
    (parse limit (ts ++ us)).result = .error e := by
  rw [result_parse_eq_error] at h ⊢
  have hend := readAll_ending limit ts
  rw [h] at hend
  cases hend with
  | stopped hbody hfits hfault _ hts =>
    rw [hts, List.append_assoc, List.append_assoc, List.append_assoc]
    exact readAll_of_fault hbody hfits hfault he _

/-- A parse error is of the end exactly if the tokens begin some program; then all were taken,
    and it tells which parenthesis or call is open. Any other error is about the last token
    that was taken: those before it begin some program, and with it nothing does. -/
theorem parse_error_exact (limit : Nat) (ts : List Token) {e : ParseError}
    (h : (parse limit ts).result = .error e) :
    (e.atEnd = true ↔ ∃ us p, (parse limit (ts ++ us)).result = .ok p) ∧
    (e.atEnd = true → taken limit ts = ts.length ∧
      (e = .unexpectedEnd ↔ ts.getLast? = some (.paren '(')) ∧
      (e ≠ .unexpectedEnd → ∃ name outer, openCalls [] ts = name :: outer ∧
        e = .unterminated name)) ∧
    (e.atEnd = false → ∃ before t after, ts = before ++ t :: after ∧
      taken limit ts = before.length + 1 ∧ e.Offender limit before t ∧
      (∃ us p, (parse limit (before ++ us)).result = .ok p) ∧
      ∀ us, (parse limit (before ++ t :: us)).result = .error e) := by
  have hend := readAll_ending limit ts
  rw [result_parse_eq_error.mp h] at hend
  rw [taken_eq]
  generalize (readAll limit ts).rest = rest at hend
  cases hend with
  | @stopped body stack last _ _ hbody hfits hfault hne hts =>
    cases he : e.atEnd with
    | true =>
      obtain ⟨rfl, hmore, hlast, hname⟩ := atEnd_of_fault hbody hfits hfault he hne hts
      exact ⟨by simpa using hmore, fun _ => ⟨by simp, hlast, hname⟩, nofun⟩
    | false =>
      obtain ⟨before, t, hsplit, hoffender, hviable⟩ := offender_of_fault hbody hfits hfault he
      have happend : ∀ us, before ++ t :: us =
          Node.flats body ++ (opened stack ++ (last ++ us)) := fun us => by
        rw [← List.singleton_append, ← List.append_assoc, ← hsplit]
        simp
      have hfails : ∀ us, (parse limit (before ++ t :: us)).result = .error e := fun us => by
        rw [result_parse_eq_error, happend]
        exact readAll_of_fault hbody hfits hfault he us
      rw [← happend] at hts
      refine ⟨⟨nofun, ?_⟩, nofun, fun _ => ⟨before, t, rest, hts, ?_, hoffender, hviable, hfails⟩⟩
      · rintro ⟨us, p, hp⟩
        rw [hts, List.append_assoc, List.cons_append, hfails] at hp
        cases hp
      · rw [hts, List.length_append, List.length_cons]
        omega

/-- `1 (f (2` goes wrong at the `2`: `1 (f (` begins a program, but no program begins so. -/
theorem a_number_is_no_call_name :
    let ts : List Token := [.number "1", .paren '(', .name "f", .paren '(', .number "2"]
    (parse 2 ts).result = .error (.malformedHead (.number "2")) ∧
      (¬ ∃ us p, (parse 2 (ts ++ us)).result = .ok p) ∧
      ∃ before t after, ts = before ++ t :: after ∧ taken 2 ts = before.length + 1 ∧
        t = .number "2" ∧ (∃ us p, (parse 2 (before ++ us)).result = .ok p) ∧
        ∀ us, (parse 2 (before ++ t :: us)).result = .error (.malformedHead (.number "2")) := by
  intro ts
  have h : (parse 2 ts).result = .error (.malformedHead (.number "2")) := by cbv
  obtain ⟨hend, -, hother⟩ := parse_error_exact 2 ts h
  exact ⟨h, fun hmore => Bool.noConfusion (hend.mpr hmore), hother rfl⟩

end CallForm.Source
