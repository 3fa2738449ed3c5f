/-
  CallForm.Proofs.Source.Canonical — the text of a tree read back.

  The text of a tree of names and numbers has the tokens of the tree (`tokens_text`): between
  any two of its names or numbers stands a blank or a parenthesis. Reading gives only such
  trees, as each token of a text is a parenthesis, a name or a number. So exactly these trees,
  not nested too deep, are read back from their text (`reads_back_iff`).
-/

import CallForm.Proofs.Source.Acceptance
import CallForm.Proofs.Token.Policies

namespace CallForm.Source

namespace Node

/-- A call by a name that can be written, or a number that can. -/
def Lexical : Node → Prop
  | .call name _ => IsName name
  | .number digits => IsNumber digits
  | .program _ | .string _ => False

instance : DecidablePred Lexical
  | .call name _ => inferInstanceAs (Decidable (IsName name))
  | .number digits => inferInstanceAs (Decidable (IsNumber digits))
  | .program _ | .string _ => instDecidableFalse

/-! ## The characters of a text -/

theorem intercalate_cons {α : Type} (sep x : List α) (xs : List (List α)) :
    sep.intercalate (x :: xs) = x ++ xs.flatMap (sep ++ ·) := by
  induction xs generalizing x with
  | nil => simp
  | cons y ys ih => simp [List.intercalate_cons_cons, ih]

theorem toList_text_call (name : String) (params : List Node) :
    (call name params).text.toList =
      '(' :: (name.toList ++ (params.flatMap (fun q => ' ' :: q.text.toList) ++ [')'])) := by
  have hblank : (" " : String).toList = [' '] := rfl
  simp [text, String.toList_intercalate, hblank, intercalate_cons, List.flatMap_map]

theorem toList_text_program (q : Node) (body : List Node) :
    (program (q :: body)).text.toList =
      q.text.toList ++ body.flatMap (fun q => '\n' :: q.text.toList) := by
  have hbreak : ("\n" : String).toList = ['\n'] := rfl
  simp [text, String.toList_intercalate, hbreak, intercalate_cons, List.flatMap_map]

/-! ## The tokens of a text -/

/-- No run goes on into this text. -/
def Breaks (cs : List Char) : Prop := ∀ d ∈ cs.head?, (CharClass.of d).isRun = false

theorem Breaks.ne {cs : List Char} (h : Breaks cs) {k : CharClass} (hk : k.isRun = true) :
    ∀ d ∈ cs.head?, CharClass.of d ≠ k := by
  rintro d hd rfl
  rw [h d hd] at hk
  cases hk

/-- The node has its own tokens wherever no run goes on after it. -/
def Delimited (q : Node) : Prop :=
  ∀ rest, Breaks rest → toks (q.text.toList ++ rest) = q.flat ++ toks rest

theorem Breaks.of_gap {c : Char} (h : (CharClass.of c).isGap = true) (cs : List Char) :
    Breaks (c :: cs) := by
  intro d hd
  obtain rfl : c = d := by simpa using hd
  cases hrun : (CharClass.of c).isRun with
  | false => rfl
  | true => simp [CharClass.isGap_of_isRun hrun] at h

section

variable {α : Type} {sep : List Char} {f : α → List Char} {g : α → List Token} {xs : List α}
  {rest : List Char}

theorem breaks_flatMap (hne : sep ≠ []) (hsep : ∀ c ∈ sep, (CharClass.of c).isGap = true)
    (h : Breaks rest) : Breaks (xs.flatMap (fun x => sep ++ f x) ++ rest) := by
  cases xs with
  | nil => exact h
  | cons x xs =>
    obtain ⟨c, sep, rfl⟩ := List.exists_cons_of_ne_nil hne
    exact .of_gap (hsep c List.mem_cons_self) _

/-- Pieces behind separators have their own tokens. -/
theorem toks_flatMap (hne : sep ≠ []) (hsep : ∀ c ∈ sep, (CharClass.of c).isGap = true)
    (h : ∀ x ∈ xs, ∀ rest, Breaks rest → toks (f x ++ rest) = g x ++ toks rest)
    (hrest : Breaks rest) :
    toks (xs.flatMap (fun x => sep ++ f x) ++ rest) = xs.flatMap g ++ toks rest := by
  induction xs with
  | nil => rfl
  | cons x xs ih =>
    obtain ⟨hx, hxs⟩ := List.forall_mem_cons.mp h
    rw [List.flatMap_cons, List.append_assoc, List.append_assoc, toks_gaps hsep,
      hx _ (breaks_flatMap hne hsep hrest), ih hxs, List.flatMap_cons, List.append_assoc]

end

theorem flats_eq_flatMap (qs : List Node) : flats qs = qs.flatMap flat := by
  induction qs with
  | nil => rfl
  | cons q qs ih => rw [flats_cons, ih, List.flatMap_cons]

theorem delimited_of_lexical {q : Node} (h : ∀ m ∈ q.nodes, m.Lexical) : q.Delimited := by
  induction q using tree_induction with
  | program body _ => exact (h _ (mem_nodes_self _)).elim
  | string value => exact (h _ (mem_nodes_self _)).elim
  | number digits =>
    intro rest hrest
    have hdigits : IsNumber digits := h _ (mem_nodes_self _)
    exact toks_number hdigits (hrest.ne rfl)
  | call name params ih =>
    intro rest hrest
    rw [forall_mem_nodes_call] at h
    obtain ⟨hname, hparams⟩ := h
    have hclose : Breaks (')' :: rest) := by
      intro d hd
      obtain rfl : ')' = d := by simpa using hd
      rfl
    have hblank : ∀ c ∈ [' '], (CharClass.of c).isGap = true :=
      List.forall_mem_singleton.mpr rfl
    have hne : [' '] ≠ [] := List.cons_ne_nil _ _
    have htail : Breaks (params.flatMap (fun q => ' ' :: q.text.toList) ++ ')' :: rest) :=
      breaks_flatMap hne hblank hclose
    have hoperands : toks (params.flatMap (fun q => ' ' :: q.text.toList) ++ ')' :: rest) =
        params.flatMap flat ++ toks (')' :: rest) :=
      toks_flatMap hne hblank (fun q hq => ih q hq (hparams q hq)) hclose
    rw [toList_text_call]
    simp only [List.cons_append, List.append_assoc, List.nil_append]
    rw [toks_paren (.inl rfl), toks_name hname (htail.ne rfl), hoperands, toks_paren (.inr rfl)]
    simp [flat, flats_eq_flatMap]

end Node

/-- The tokens of the text of names and numbers are those of the tree. -/
theorem tokens_text {p : Program} (h : ∀ m ∈ p.below, m.Lexical) : tokens p.text = p.flat := by
  obtain ⟨body⟩ := p
  have hbody := Node.forall_mem_nodesAll.mp h
  rw [tokens_eq_toks, Program.text, Program.flat]
  cases body with
  | nil => rfl
  | cons q body =>
    have hdelimited : ∀ r ∈ q :: body, r.Delimited := fun r hr =>
      Node.delimited_of_lexical (hbody r hr)
    obtain ⟨hq, hrest⟩ := List.forall_mem_cons.mp hdelimited
    have hnil : Node.Breaks [] := by simp [Node.Breaks]
    have hbreak : ∀ c ∈ ['\n'], (CharClass.of c).isGap = true :=
      List.forall_mem_singleton.mpr rfl
    have hne : ['\n'] ≠ [] := List.cons_ne_nil _ _
    have htoks : toks (body.flatMap (fun q => '\n' :: q.text.toList) ++ []) =
        body.flatMap Node.flat ++ toks [] := Node.toks_flatMap hne hbreak hrest hnil
    have hbreaks : Node.Breaks (body.flatMap (fun q => '\n' :: q.text.toList) ++ []) :=
      Node.breaks_flatMap hne hbreak hnil
    rw [List.append_nil] at htoks hbreaks
    rw [Node.toList_text_program, hq _ hbreaks, htoks]
    simp [toks, Node.flats_eq_flatMap]

/-! ## The alphabet -/

theorem inAlphabet_flatMap {sep : Char} (hsep : InAlphabet sep) {qs : List Node}
    (h : ∀ q ∈ qs, ∀ c ∈ q.text.toList, InAlphabet c) :
    ∀ c ∈ qs.flatMap (fun q => sep :: q.text.toList), InAlphabet c := by
  intro c hc
  obtain ⟨q, hq, hc⟩ := List.mem_flatMap.mp hc
  rcases List.mem_cons.mp hc with rfl | hc
  · exact hsep
  · exact h q hq c hc

theorem inAlphabet_text {q : Node} (h : ∀ m ∈ q.nodes, m.Lexical) :
    ∀ c ∈ q.text.toList, InAlphabet c := by
  induction q using Node.tree_induction with
  | program body _ => exact (h _ (Node.mem_nodes_self _)).elim
  | string value => exact (h _ (Node.mem_nodes_self _)).elim
  | number digits =>
    have hdigits : IsNumber digits := h _ (Node.mem_nodes_self _)
    exact fun c hc => .inr (.inr (.inr (.inl (hdigits.2 c hc))))
  | call name params ih =>
    rw [Node.forall_mem_nodes_call] at h
    obtain ⟨hname, hparams⟩ := h
    have hblank : InAlphabet ' ' := isStray_eq_false_iff.mp (by decide)
    have hflat := inAlphabet_flatMap hblank fun q hq => ih q hq (hparams q hq)
    intro c hc
    rw [Node.toList_text_call, List.mem_cons, List.mem_append, List.mem_append,
      List.mem_singleton] at hc
    rcases hc with rfl | hc | hc | rfl
    · exact .inl rfl
    · exact .inr (.inr (.inl (hname.2 c hc)))
    · exact hflat c hc
    · exact .inr (.inl rfl)

theorem admits_text {p : Program} (h : ∀ m ∈ p.below, m.Lexical) (policy : StrayPolicy) :
    Admits policy p.text := by
  obtain ⟨body⟩ := p
  have hbody := Node.forall_mem_nodesAll.mp h
  intro _
  cases body with
  | nil => intro c hc; cases hc
  | cons q body =>
    have htext : ∀ r ∈ q :: body, ∀ c ∈ r.text.toList, InAlphabet c := fun r hr =>
      inAlphabet_text (hbody r hr)
    obtain ⟨hq, hrest⟩ := List.forall_mem_cons.mp htext
    have hbreak : InAlphabet '\n' := isStray_eq_false_iff.mp (by decide)
    intro c hc
    rw [Program.text, Node.toList_text_program, List.mem_append] at hc
    rcases hc with hc | hc
    · exact hq c hc
    · exact inAlphabet_flatMap hbreak hrest c hc

/-! ## Reading back -/

/-- An expression whose tokens a text can have is made of names and numbers. -/
theorem lexical_of_flat {d : Nat} {q : Node} (h : Expression d q) (hflat : ∀ t ∈ q.flat, t.Lexed) :
    ∀ m ∈ q.nodes, m.Lexical := by
  induction h with
  | number digits =>
    intro m hm
    obtain rfl : m = .number digits := by simpa [Node.nodes] using hm
    exact hflat (.number digits) (by simp [Node.flat])
  | @call d name params _ ih =>
    rw [Node.forall_mem_nodes_call]
    refine ⟨hflat (.name name) (by simp [Node.flat]), fun q hq => ih q hq fun t ht => hflat t ?_⟩
    have hmem : t ∈ Node.flats params := Node.mem_flats.mpr ⟨q, hq, ht⟩
    simp only [Node.flat, List.mem_cons, List.mem_append, hmem, true_or, or_true]

/-- Expressions with the tokens of a text are made of names and numbers. -/
theorem lexical_of_tokens {d : Nat} {body : List Node} (h : ∀ q ∈ body, Expression d q)
    {source : String} (hflat : tokens source = Node.flats body) :
    ∀ q ∈ body, ∀ m ∈ q.nodes, m.Lexical := by
  intro q hq
  apply lexical_of_flat (h q hq)
  intro t ht
  have hmem : t ∈ tokens source := hflat ▸ Node.mem_flats.mpr ⟨q, hq, ht⟩
  exact lexed_of_mem_toks (tokens_eq_toks source ▸ hmem)

/-- The trees that are read back from their text are those of names and numbers, not nested
    too deep; and their text has no other characters and no other tokens. -/
theorem reads_back_iff (p : Program) :
    ((parse defaultMaxDepth (tokens p.text)).result = .ok p ↔
      (∀ m ∈ p.below, m.Lexical) ∧ p.callDepth ≤ defaultMaxDepth) ∧
    ((∀ m ∈ p.below, m.Lexical) ∧ p.callDepth ≤ defaultMaxDepth →
      (lex .reject p.text).result = .ok (tokens p.text) ∧ tokens p.text = p.flat) := by
  refine ⟨?_, fun h => ⟨result_lex_of_admits (admits_text h.1 .reject), tokens_text h.1⟩⟩
  rw [result_parse_eq_ok, readAll_eq_ok_iff]
  constructor
  · rintro ⟨hbody, hflat⟩
    have hlexed : ∀ t ∈ Node.flats p.body, t.Lexed := by
      rw [← hflat, tokens_eq_toks]
      exact fun t ht => lexed_of_mem_toks ht
    refine ⟨Node.forall_mem_nodesAll.mpr fun q hq => ?_, (expressions_iff.mp hbody).2⟩
    exact lexical_of_flat (hbody q hq) fun t ht => hlexed t (Node.mem_flats.mpr ⟨q, hq, ht⟩)
  · rintro ⟨hlexical, hdepth⟩
    refine ⟨expressions_iff.mpr ⟨fun m hm => ?_, hdepth⟩, tokens_text hlexical⟩
    have hm := hlexical m hm
    cases m <;> simp_all [Node.Lexical, Node.kind]

theorem a_nested_call_reads_back :
    let p : Program := ⟨[.call "add" [.number "07", .call "f" []], .number "2"]⟩
    ((∀ m ∈ p.below, m.Lexical) ∧ p.callDepth ≤ defaultMaxDepth) ∧
      (parse defaultMaxDepth (tokens p.text)).result = .ok p ∧
      (lex .reject p.text).result = .ok (tokens p.text) ∧ tokens p.text = p.flat := by
  intro p
  have h : (∀ m ∈ p.below, m.Lexical) ∧ p.callDepth ≤ defaultMaxDepth := by decide
  obtain ⟨hiff, htext⟩ := reads_back_iff p
  exact ⟨h, hiff.mpr h, htext h⟩

end CallForm.Source
