/-
  CallForm.Proofs.Compiler.Tokens — the tokens of the code that is written.

  A separator that is not empty and holds only blanks and strays keeps the pieces around it
  apart (`toks_intercalate`), so the code of an expression has the tokens of the expression
  with each name in front of its parenthesis (`toks_rendered`). In the tokens of a text that
  is exchanging these two wherever they meet (`swapped_flats`), which can be undone
  (`unswapped_swapped_flats`); so code tells the tokens it was written for (`compile_swaps`).
-/

import CallForm.Proofs.Compiler
import CallForm.Proofs.Source.Canonical

namespace CallForm

/-! ## Separators -/

/-- Not empty, and without letters a-z, digits and parentheses. -/
def Separates (sep : String) : Prop :=
  sep ≠ "" ∧ ∀ c ∈ sep.toList,
    ¬ ('a' ≤ c ∧ c ≤ 'z') ∧ ¬ ('0' ≤ c ∧ c ≤ '9') ∧ c ≠ '(' ∧ c ≠ ')'

instance : DecidablePred Separates := fun sep =>
  @instDecidableAnd _ _ inferInstance (List.decidableBAll _ sep.toList)

theorem CharClass.isGap_iff {c : Char} : (CharClass.of c).isGap = true ↔
    ¬ ('a' ≤ c ∧ c ≤ 'z') ∧ ¬ ('0' ≤ c ∧ c ≤ '9') ∧ c ≠ '(' ∧ c ≠ ')' := by
  rw [← CharClass.of_eq_letter_iff, ← CharClass.of_eq_digit_iff, ← not_or,
    ← CharClass.of_eq_paren_iff]
  cases CharClass.of c <;> simp [CharClass.isGap]

/-- Separated pieces have their own tokens. -/
theorem Separates.toks_intercalate {sep : String} (hsep : Separates sep) {α : Type}
    {f : α → String} {g : α → List Token} {xs : List α} {rest : List Char}
    (h : ∀ x ∈ xs, ∀ rest, Source.Node.Breaks rest →
      toks ((f x).toList ++ rest) = g x ++ toks rest)
    (hrest : Source.Node.Breaks rest) :
    toks ((sep.intercalate (xs.map f)).toList ++ rest) = xs.flatMap g ++ toks rest := by
  have hne : sep.toList ≠ [] := by simpa using hsep.1
  have hgap : ∀ c ∈ sep.toList, (CharClass.of c).isGap = true := fun c hc =>
    CharClass.isGap_iff.mpr (hsep.2 c hc)
  rw [String.toList_intercalate, List.map_map]
  cases xs with
  | nil => rfl
  | cons x xs =>
    obtain ⟨hx, hxs⟩ := List.forall_mem_cons.mp h
    have htail := Source.Node.toks_flatMap hne hgap hxs hrest
    have hbreaks : Source.Node.Breaks (xs.flatMap (fun x => sep.toList ++ (f x).toList) ++ rest) :=
      Source.Node.breaks_flatMap hne hgap hrest
    rw [List.map_cons, Source.Node.intercalate_cons, List.flatMap_map, List.append_assoc]
    show toks ((f x).toList ++ (xs.flatMap (fun x => sep.toList ++ (f x).toList) ++ rest)) = _
    rw [hx _ hbreaks, htail, List.flatMap_cons, List.append_assoc]

/-! ## Names before parentheses -/

/-- Each opening parenthesis and the name behind it change places. -/
def swapped : List Token → List Token
  | .paren '(' :: .name text :: ts => .name text :: .paren '(' :: swapped ts
  | t :: ts => t :: swapped ts
  | [] => []

/-- Each name and the opening parenthesis behind it change places. -/
def unswapped : List Token → List Token
  | .name text :: .paren '(' :: ts => .paren '(' :: .name text :: unswapped ts
  | t :: ts => t :: unswapped ts
  | [] => []

theorem filter_swapped (ts : List Token) :
    (swapped ts).filter (!·.isOpen) = ts.filter (!·.isOpen) := by
  fun_induction swapped ts with
  | case1 text ts ih =>
    have hname : (!(Token.name text).isOpen) = true := rfl
    have hopen : (!(Token.paren '(').isOpen) = false := rfl
    simp only [List.filter_cons, hname, hopen, ih, if_true, if_false, Bool.false_eq_true]
  | case2 t ts _ ih => rw [List.filter_cons, List.filter_cons, ih]
  | case3 => rfl

namespace Source

mutual

/-- The tokens of the code of a tree: as in its source, but each name in front of its
    parenthesis. -/
def Node.written : Node → List Token
  | .program body => Node.writtenAll body
  | .call name params => .name name :: .paren '(' :: (Node.writtenAll params ++ [.paren ')'])
  | .number digits => [.number digits]
  | .string _ => []

def Node.writtenAll : List Node → List Token
  | [] => []
  | node :: others => node.written ++ Node.writtenAll others

end

theorem Node.writtenAll_eq_flatMap (qs : List Node) :
    Node.writtenAll qs = qs.flatMap Node.written := by
  induction qs with
  | nil => rfl
  | cons q qs ih => rw [Node.writtenAll, ih, List.flatMap_cons]

/-- What holds of each piece in front of any tokens holds of the pieces in a row. -/
theorem flatMap_append_of {f : List Token → List Token} {g h : Node → List Token} {qs : List Node}
    (hqs : ∀ q ∈ qs, ∀ ts, f (g q ++ ts) = h q ++ f ts) (ts : List Token) :
    f (qs.flatMap g ++ ts) = qs.flatMap h ++ f ts := by
  induction qs with
  | nil => rfl
  | cons q qs ih =>
    obtain ⟨hq, hqs⟩ := List.forall_mem_cons.mp hqs
    rw [List.flatMap_cons, List.append_assoc, hq, ih hqs, List.flatMap_cons, List.append_assoc]

theorem swapped_flat {d : Nat} {q : Node} (h : Expression d q) :
    ∀ ts, swapped (q.flat ++ ts) = q.written ++ swapped ts := by
  induction h with
  | number digits => exact fun ts => rfl
  | @call d name params _ ih =>
    intro ts
    rw [Node.flat_call_append, swapped, Node.flats_eq_flatMap, flatMap_append_of ih]
    simp [Node.written, Node.writtenAll_eq_flatMap, swapped]

theorem unswapped_written {d : Nat} {q : Node} (h : Expression d q) :
    ∀ ts, unswapped (q.written ++ ts) = q.flat ++ unswapped ts := by
  induction h with
  | number digits => exact fun ts => rfl
  | @call d name params _ ih =>
    intro ts
    rw [Node.flat_call_append, Node.written, List.cons_append, List.cons_append, unswapped,
      List.append_assoc, Node.writtenAll_eq_flatMap, flatMap_append_of ih]
    simp [Node.flats_eq_flatMap, unswapped]

theorem swapped_flats {d : Nat} {body : List Node} (h : ∀ q ∈ body, Expression d q) :
    swapped (Node.flats body) = body.flatMap Node.written := by
  have hbody := flatMap_append_of (fun q hq => swapped_flat (h q hq)) []
  simpa [Node.flats_eq_flatMap, swapped] using hbody

/-- The tokens of expressions can be told from the tokens of their code. -/
theorem unswapped_swapped_flats {d : Nat} {body : List Node} (h : ∀ q ∈ body, Expression d q) :
    unswapped (swapped (Node.flats body)) = Node.flats body := by
  have hbody := flatMap_append_of (fun q hq => unswapped_written (h q hq)) []
  rw [swapped_flats h, Node.flats_eq_flatMap]
  simpa [unswapped] using hbody

/-! ## Tokens of code -/

theorem toks_rendered {style : CodeStyle} (hsep : Separates style.argumentSeparator) {d : Nat}
    {q : Node} (h : Expression d q) (hlexical : ∀ m ∈ q.nodes, m.Lexical) :
    ∀ rest, Node.Breaks rest →
      toks ((q.rendered style).toList ++ rest) = q.written ++ toks rest := by
  induction h with
  | number digits =>
    intro rest hrest
    exact toks_number (hlexical _ (Node.mem_nodes_self _)) (hrest.ne rfl)
  | @call d name params _ ih =>
    intro rest hrest
    obtain ⟨hname, hparams⟩ := Node.forall_mem_nodes_call.mp hlexical
    have hclose : Node.Breaks (')' :: rest) := by
      intro c hc
      obtain rfl : ')' = c := by simpa using hc
      rfl
    have hopen : ∀ c ∈ ('(' :: ((style.argumentSeparator.intercalate
        (params.map (·.rendered style))).toList ++ ')' :: rest)).head?,
        CharClass.of c ≠ .letter := by
      intro c hc
      obtain rfl : '(' = c := by simpa using hc
      exact nofun
    have hoperands := hsep.toks_intercalate (fun q hq => ih q hq (hparams q hq)) hclose
    have hlist : ((Node.call name params).rendered style).toList ++ rest =
        name.toList ++ '(' :: ((style.argumentSeparator.intercalate
          (params.map (·.rendered style))).toList ++ ')' :: rest) := by
      simp [Node.rendered, Node.renderedAll_eq_map]
    rw [hlist, toks_name hname hopen, toks_paren (.inl rfl), hoperands, toks_paren (.inr rfl)]
    simp [Node.written, Node.writtenAll_eq_flatMap]

end Source

open Source (Expression Node)

variable {s : Settings} {source code : String}

/-- A text that is compiled has the tokens of expressions, and its code is theirs. -/
theorem expressions_of_compile (h : (s.compile source).result = .ok code) :
    ∃ body, (∀ q ∈ body, Expression s.maxDepth q) ∧ tokens source = Node.flats body ∧
      code = s.style.statementSeparator.intercalate (body.map (·.rendered s.style)) := by
  by_cases hadmits : Admits s.strays source
  · rcases result_compile_of_admits hadmits with ⟨body, hbody, hflat, hok⟩ | ⟨e, -, herror⟩
    · rw [hok] at h
      exact ⟨body, hbody, hflat, (Except.ok.inj h).symm⟩
    · rw [herror] at h
      cases h
  · obtain ⟨hpolicy, c, hc⟩ := exists_firstStray hadmits
    rw [result_compile_of_firstStray hpolicy hc] at h
    cases h

theorem tokens_of_compile (hstatement : Separates s.style.statementSeparator)
    (hargument : Separates s.style.argumentSeparator)
    (h : (s.compile source).result = .ok code) :
    tokens code = swapped (tokens source) ∧ unswapped (tokens code) = tokens source := by
  obtain ⟨body, hbody, hflat, rfl⟩ := expressions_of_compile h
  have hlexical := Source.lexical_of_tokens hbody hflat
  have hend : Node.Breaks [] := by simp [Node.Breaks]
  have htoks := hstatement.toks_intercalate
    (fun q hq => Source.toks_rendered hargument (hbody q hq) (hlexical q hq)) hend
  have hnil : toks [] = [] := rfl
  rw [List.append_nil, hnil, List.append_nil, ← Source.swapped_flats hbody, ← tokens_eq_toks,
    ← hflat] at htoks
  refine ⟨htoks, ?_⟩
  rw [htoks, hflat, Source.unswapped_swapped_flats hbody]

/-- With separators that separate, code has the tokens of the text it is written for, but each
    opening parenthesis and the name behind it in the other order. So all names, numbers and
    closing parentheses stay as they are, and two texts have the same code exactly if they
    have the same tokens. -/
theorem compile_swaps (hstatement : Separates s.style.statementSeparator)
    (hargument : Separates s.style.argumentSeparator)
    (h : (s.compile source).result = .ok code) :
    tokens code = swapped (tokens source) ∧
    (tokens code).filter (!·.isOpen) = (tokens source).filter (!·.isOpen) ∧
    ∀ other out, (s.compile other).result = .ok out →
      (out = code ↔ tokens other = tokens source) := by
  obtain ⟨hswapped, hunswapped⟩ := tokens_of_compile hstatement hargument h
  refine ⟨hswapped, hswapped ▸ filter_swapped _, fun other out hother => ⟨?_, fun htokens => ?_⟩⟩
  · rintro rfl
    exact (tokens_of_compile hstatement hargument hother).2.symm.trans hunswapped
  · obtain ⟨body, hbody, hflat, rfl⟩ := expressions_of_compile h
    obtain ⟨others, hothers, hflats, rfl⟩ := expressions_of_compile hother
    have hread := Source.readAll_eq_ok_iff.mpr ⟨hbody, hflat⟩
    rw [← htokens, Source.readAll_eq_ok_iff.mpr ⟨hothers, hflats⟩] at hread
    rw [Except.ok.inj hread]

/-- The separators of the default style qualify; blanks and strays of a text do not count. -/
theorem the_default_style_swaps :
    Separates ({} : CodeStyle).statementSeparator ∧ Separates ({} : CodeStyle).argumentSeparator ∧
    (({} : Settings).compile "(add 1 (f))\n2").result = .ok "add(1, f())\n2" ∧
    (({} : Settings).compile "(add 1#(f)) 2").result = .ok "add(1, f())\n2" ∧
    tokens "add(1, f())\n2" = swapped (tokens "(add 1 (f))\n2") ∧
    tokens "(add 1#(f)) 2" = tokens "(add 1 (f))\n2" := by
  have hstatement : Separates ({} : CodeStyle).statementSeparator := by decide
  have hargument : Separates ({} : CodeStyle).argumentSeparator := by decide
  let body := [Node.call "add" [.number "1", .call "f" []], .number "2"]
  have hbody : ∀ q ∈ body, Expression 256 q := by decide
  have hcode : ∀ source, tokens source = Node.flats body →
      (({} : Settings).compile source).result = .ok "add(1, f())\n2" := by
    intro source htokens
    have hadmits : Admits .skip source := by simp [Admits]
    exact result_compile_of_flats hadmits hbody htokens
  have hcompile := hcode "(add 1 (f))\n2" (by decide)
  have hother := hcode "(add 1#(f)) 2" (by decide)
  obtain ⟨hswapped, -, hiff⟩ := compile_swaps hstatement hargument hcompile
  exact ⟨hstatement, hargument, hcompile, hother, hswapped, (hiff _ _ hother).mp rfl⟩

end CallForm
