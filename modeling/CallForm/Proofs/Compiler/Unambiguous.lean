/-
  CallForm.Proofs.Compiler.Unambiguous — code tells the tree it was written for.

  Code is cancelled from the left. A number ends where its digits end, a name at its
  parenthesis, a string at its closing quote, whatever stands in it; and the first character
  of a node tells its kind (`exists_lead`). A separator begins with a character that goes on
  with no number and closes no call, so a row of nodes ends where a parenthesis or nothing
  stands (`row_cancels`). By induction no text begins with the code of two nodes in two ways
  (`cancels_of_spelled`), so under quoted strings two programs with the same code are one
  (`lowered_determines`).
-/

import CallForm.Proofs.Compiler.Lowering
import CallForm.Proofs.Source.Canonical

namespace CallForm

/-- Begins with a character that is no letter a-z, digit, parenthesis or double quote. -/
def Parts (sep : String) : Prop :=
  ∃ c ∈ sep.toList.head?,
    ¬ ('a' ≤ c ∧ c ≤ 'z') ∧ ¬ ('0' ≤ c ∧ c ≤ '9') ∧ c ≠ '(' ∧ c ≠ ')' ∧ c ≠ '"'

namespace Source.Node

/-- A call by a name that can be written, a number that can, or any string. -/
def Spelled : Node → Prop
  | .call name _ => IsName name
  | .number digits => IsNumber digits
  | .string _ => True
  | .program _ => False

instance : DecidablePred Spelled
  | .call name _ => inferInstanceAs (Decidable (IsName name))
  | .number digits => inferInstanceAs (Decidable (IsNumber digits))
  | .string _ => instDecidableTrue
  | .program _ => instDecidableFalse

variable {style : CodeStyle}

/-! ## The first character -/

/-- The class of the first character of a node's code. -/
def lead : Node → CharClass
  | .call _ _ => .letter
  | .number _ => .digit
  | .string _ => .stray
  | .program _ => .blank

theorem exists_cons_of_ne {s : String} (h : s ≠ "") : ∃ c cs, s.toList = c :: cs :=
  List.exists_cons_of_ne_nil (by simpa using h)

theorem toList_rendered_call (style : CodeStyle) (name : String) (params : List Node)
    (rest : List Char) :
    ((call name params).rendered style).toList ++ rest =
      name.toList ++ '(' :: ((style.argumentSeparator.intercalate
        (params.map (·.rendered style))).toList ++ ')' :: rest) := by
  simp [rendered, renderedAll_eq_map]

/-- The code of a node is not empty, and its first character is of the class for the node. -/
theorem exists_lead (style : CodeStyle) {q : Node} (h : q.Spelled) :
    ∃ c cs, (q.rendered style).toList = c :: cs ∧ CharClass.of c = q.lead := by
  cases q with
  | program body => exact h.elim
  | string value =>
    have hquote : CharClass.of '"' = .stray := by decide
    exact ⟨'"', _, Json.toList_quoted value, hquote⟩
  | number digits =>
    obtain ⟨hne, hdigits⟩ := h
    obtain ⟨c, cs, hcs⟩ := exists_cons_of_ne hne
    exact ⟨c, cs, hcs, CharClass.of_eq_digit_iff.mpr (hdigits c (by simp [hcs]))⟩
  | call name params =>
    obtain ⟨hne, hletters⟩ := h
    obtain ⟨c, cs, hcs⟩ := exists_cons_of_ne hne
    have htext := toList_rendered_call style name params []
    rw [List.append_nil, hcs] at htext
    exact ⟨c, _, htext, CharClass.of_eq_letter_iff.mpr (hletters c (by simp [hcs]))⟩

/-- Nodes whose codes begin a text in common begin alike. -/
theorem lead_eq {p q : Node} (hp : p.Spelled) (hq : q.Spelled) {r s : List Char}
    (h : (p.rendered style).toList ++ r = (q.rendered style).toList ++ s) : p.lead = q.lead := by
  obtain ⟨c, cs, hcs, hc⟩ := exists_lead style hp
  obtain ⟨d, ds, hds, hd⟩ := exists_lead style hq
  rw [hcs, hds, List.cons_append, List.cons_append] at h
  obtain ⟨rfl, -⟩ := List.cons.inj h
  exact hc.symm.trans hd

/-! ## Literals and names -/

theorem name_cancels {m n : String} (hm : IsName m) (hn : IsName n) {r s : List Char}
    (h : m.toList ++ '(' :: r = n.toList ++ '(' :: s) : m = n ∧ r = s := by
  have hopen : ∀ cs : List Char, ∀ c ∈ ('(' :: cs).head?, CharClass.of c ≠ .letter := by
    intro cs c hc
    obtain rfl : '(' = c := by simpa using hc
    exact nofun
  have htoks := congrArg toks h
  rw [toks_name hm (hopen r), toks_name hn (hopen s)] at htoks
  obtain rfl : m = n := by simpa using (List.cons.inj htoks).1
  have hrest := List.append_cancel_left h
  exact ⟨rfl, (List.cons.inj hrest).2⟩

theorem number_cancels {m n : String} (hm : IsNumber m) (hn : IsNumber n) {r s : List Char}
    (hr : ∀ c ∈ r.head?, CharClass.of c ≠ .digit) (hs : ∀ c ∈ s.head?, CharClass.of c ≠ .digit)
    (h : m.toList ++ r = n.toList ++ s) : m = n ∧ r = s := by
  have htoks := congrArg toks h
  rw [toks_number hm hr, toks_number hn hs] at htoks
  obtain rfl : m = n := by simpa using (List.cons.inj htoks).1
  exact ⟨rfl, List.append_cancel_left h⟩

/-- Reading a quoted string stops behind its closing quote. -/
theorem quoted_cancels {u v : String} {r s : List Char}
    (h : (Json.quoted u).toList ++ r = (Json.quoted v).toList ++ s) : u = v ∧ r = s := by
  rw [Json.quoted_append, Json.quoted_append] at h
  have hread := congrArg Json.readString (List.cons.inj h).2
  rw [Json.readString_escaped, Json.readString_escaped] at hread
  exact Prod.mk.inj (Except.ok.inj hread)

/-! ## Rows of nodes -/

/-- The code of the node is told from any text that it begins and in which no number goes on
    behind it. -/
def Cancels (style : CodeStyle) (p : Node) : Prop :=
  ∀ q : Node, (∀ m ∈ q.nodes, m.Spelled) → ∀ r s : List Char,
    (∀ c ∈ r.head?, CharClass.of c ≠ .digit) → (∀ c ∈ s.head?, CharClass.of c ≠ .digit) →
    (p.rendered style).toList ++ r = (q.rendered style).toList ++ s → p = q ∧ r = s

/-- Nothing, or a closing parenthesis first. -/
def Closes (cs : List Char) : Prop := ∀ c ∈ cs.head?, c = ')'

theorem Closes.not_digit {cs : List Char} (h : Closes cs) :
    ∀ c ∈ cs.head?, CharClass.of c ≠ .digit := by
  intro c hc
  rw [h c hc]
  exact nofun

section

variable {sep : String} {r s : List Char}

theorem Closes.ne_sep (hsep : Parts sep) (hr : Closes r) (cs : List Char) :
    r ≠ sep.toList ++ cs := by
  rintro rfl
  obtain ⟨c, hc, -, -, -, hclose, -⟩ := hsep
  exact hclose (hr c (by simp [List.head?_append, Option.mem_def.mp hc]))

theorem Closes.ne_rendered {q : Node} (hq : q.Spelled) (hr : Closes r) (cs : List Char) :
    r ≠ (q.rendered style).toList ++ cs := by
  rintro rfl
  obtain ⟨c, ds, hds, hlead⟩ := exists_lead style hq
  have hclose : c = ')' := hr c (by simp [hds])
  subst hclose
  cases q <;> cases hlead

/-- What stands behind a node in a row: separators and nodes, and then what closes the row. -/
def tail (style : CodeStyle) (sep : String) (qs : List Node) (rest : List Char) : List Char :=
  qs.flatMap (fun q => sep.toList ++ (q.rendered style).toList) ++ rest

theorem tail_cons (q : Node) (qs : List Node) (rest : List Char) :
    tail style sep (q :: qs) rest =
      sep.toList ++ ((q.rendered style).toList ++ tail style sep qs rest) := by
  simp [tail]

theorem tail_not_digit (hsep : Parts sep) (qs : List Node) (hr : Closes r) :
    ∀ c ∈ (tail style sep qs r).head?, CharClass.of c ≠ .digit := by
  cases qs with
  | nil => exact hr.not_digit
  | cons q qs =>
    obtain ⟨d, hd, -, hdigit, -⟩ := hsep
    intro c hc hclass
    obtain rfl : d = c := by
      simpa [tail_cons, List.head?_append, Option.mem_def.mp hd] using hc
    exact hdigit (CharClass.of_eq_digit_iff.mp hclass)

theorem tail_cancels (hsep : Parts sep) {ps : List Node} (hps : ∀ p ∈ ps, Cancels style p) :
    ∀ qs : List Node, (∀ q ∈ qs, ∀ m ∈ q.nodes, m.Spelled) → ∀ {r s : List Char},
      Closes r → Closes s → tail style sep ps r = tail style sep qs s → ps = qs ∧ r = s := by
  induction ps with
  | nil =>
    intro qs _ r s hr _ h
    cases qs with
    | nil => exact ⟨rfl, h⟩
    | cons q qs =>
      rw [tail_cons] at h
      exact absurd h (hr.ne_sep hsep _)
  | cons p ps ih =>
    obtain ⟨hp, hps⟩ := List.forall_mem_cons.mp hps
    intro qs hqs r s hr hs h
    cases qs with
    | nil =>
      rw [tail_cons] at h
      exact absurd h.symm (hs.ne_sep hsep _)
    | cons q qs =>
      obtain ⟨hq, hothers⟩ := List.forall_mem_cons.mp hqs
      rw [tail_cons, tail_cons] at h
      obtain ⟨rfl, hrest⟩ := hp q hq _ _ (tail_not_digit hsep ps hr) (tail_not_digit hsep qs hs)
        (List.append_cancel_left h)
      obtain ⟨rfl, hrs⟩ := ih hps qs hothers hr hs hrest
      exact ⟨rfl, hrs⟩

theorem toList_row (q : Node) (qs : List Node) (rest : List Char) :
    (sep.intercalate ((q :: qs).map (·.rendered style))).toList ++ rest =
      (q.rendered style).toList ++ tail style sep qs rest := by
  simp [String.toList_intercalate, intercalate_cons, tail, List.flatMap_map]

/-- A row of nodes is told from any text that it begins and that closes it. -/
theorem row_cancels (hsep : Parts sep) {ps qs : List Node} (hps : ∀ p ∈ ps, Cancels style p)
    (hspelled : ∀ p ∈ ps, ∀ m ∈ p.nodes, m.Spelled) (hqs : ∀ q ∈ qs, ∀ m ∈ q.nodes, m.Spelled)
    (hr : Closes r) (hs : Closes s)
    (h : (sep.intercalate (ps.map (·.rendered style))).toList ++ r =
      (sep.intercalate (qs.map (·.rendered style))).toList ++ s) : ps = qs ∧ r = s := by
  cases ps with
  | nil =>
    cases qs with
    | nil => exact ⟨rfl, h⟩
    | cons q qs =>
      rw [toList_row] at h
      exact absurd h (hr.ne_rendered (hqs q List.mem_cons_self _ (mem_nodes_self q)) _)
  | cons p ps =>
    cases qs with
    | nil =>
      rw [toList_row] at h
      exact absurd h.symm (hs.ne_rendered (hspelled p List.mem_cons_self _ (mem_nodes_self p)) _)
    | cons q qs =>
      obtain ⟨hp, hps⟩ := List.forall_mem_cons.mp hps
      obtain ⟨hq, hothers⟩ := List.forall_mem_cons.mp hqs
      rw [toList_row, toList_row] at h
      obtain ⟨rfl, hrest⟩ := hp q hq _ _ (tail_not_digit hsep ps hr) (tail_not_digit hsep qs hs) h
      obtain ⟨rfl, hrs⟩ := tail_cancels hsep hps qs hothers hr hs hrest
      exact ⟨rfl, hrs⟩

end

/-! ## Trees -/

/-- The code of a tree is told from any text that it begins. -/
theorem cancels_of_spelled (hsep : Parts style.argumentSeparator) {p : Node}
    (h : ∀ m ∈ p.nodes, m.Spelled) : Cancels style p := by
  induction p using tree_induction with
  | program body _ => exact (h _ (mem_nodes_self _)).elim
  | number digits =>
    intro q hq r s hr hs heq
    have hlead := lead_eq (h _ (mem_nodes_self _)) (hq _ (mem_nodes_self _)) heq
    cases q with
    | number others =>
      obtain ⟨rfl, hrs⟩ := number_cancels (h _ (mem_nodes_self _)) (hq _ (mem_nodes_self _))
        hr hs heq
      exact ⟨rfl, hrs⟩
    | program body | call name params | string value => cases hlead
  | string value =>
    intro q hq r s _ _ heq
    have hlead := lead_eq (h _ (mem_nodes_self _)) (hq _ (mem_nodes_self _)) heq
    cases q with
    | string other =>
      obtain ⟨rfl, hrs⟩ := quoted_cancels heq
      exact ⟨rfl, hrs⟩
    | program body | call name params | number digits => cases hlead
  | call name params ih =>
    obtain ⟨hname, hparams⟩ := forall_mem_nodes_call.mp h
    intro q hq r s _ _ heq
    have hlead := lead_eq (h _ (mem_nodes_self _)) (hq _ (mem_nodes_self _)) heq
    cases q with
    | program body | number digits | string value => cases hlead
    | call other others =>
      obtain ⟨hother, hothers⟩ := forall_mem_nodes_call.mp hq
      have hclose : ∀ cs : List Char, Closes (')' :: cs) := by
        intro cs c hc
        simpa using hc.symm
      rw [toList_rendered_call, toList_rendered_call] at heq
      obtain ⟨rfl, hrow⟩ := name_cancels hname hother heq
      obtain ⟨rfl, hrest⟩ := row_cancels hsep (fun p hp => ih p hp (hparams p hp)) hparams hothers
        (hclose r) (hclose s) hrow
      exact ⟨rfl, (List.cons.inj hrest).2⟩

end Source.Node

open Source (Node)

variable {style : CodeStyle} {p : Source.Program}

theorem lowered_of_spelled (hquote : style.strings = .quote) (h : ∀ m ∈ p.below, m.Spelled) :
    p.lowered style =
      .ok (style.statementSeparator.intercalate (p.body.map (·.rendered style))) := by
  refine lowered_of_codable fun m hm => ⟨?_, fun _ => hquote⟩
  intro hk
  have hspelled := h m hm
  cases m with
  | program body => exact hspelled
  | call name params | number digits | string value => cases hk

/-- If strings are quoted and separators part, a program of names, numbers and strings has
    code, and no other such program has the same code. -/
theorem lowered_determines (hquote : style.strings = .quote)
    (hstatement : Parts style.statementSeparator) (hargument : Parts style.argumentSeparator)
    (hp : ∀ m ∈ p.below, m.Spelled) :
    ∃ code, p.lowered style = .ok code ∧
      ∀ q : Source.Program, (∀ m ∈ q.below, m.Spelled) → q.lowered style = .ok code → p = q := by
  refine ⟨_, lowered_of_spelled hquote hp, ?_⟩
  intro q hq hcode
  rw [lowered_of_spelled hquote hq] at hcode
  have hps := Node.forall_mem_nodesAll.mp hp
  have hqs := Node.forall_mem_nodesAll.mp hq
  have hcancels : ∀ n ∈ p.body, Node.Cancels style n := fun n hn =>
    Node.cancels_of_spelled hargument (hps n hn)
  have hend : Node.Closes [] := by simp [Node.Closes]
  have htext := congrArg String.toList (Except.ok.inj hcode).symm
  obtain ⟨hbody, -⟩ := Node.row_cancels hstatement hcancels hps hqs hend hend
    (congrArg (· ++ []) htext)
  cases p
  cases q
  exact congrArg Source.Program.mk hbody

/-- One string with a quote, a separator and a parenthesis in it is told from two strings. -/
theorem a_string_of_marks_is_one_string :
    let style : CodeStyle := { strings := .quote }
    let p : Source.Program := ⟨[.call "f" [.string "a\", \"b)\n"], .number "2"]⟩
    let q : Source.Program := ⟨[.call "f" [.string "a", .string "b)\n"], .number "2"]⟩
    Parts style.statementSeparator ∧ Parts style.argumentSeparator ∧
      (∀ m ∈ p.below, m.Spelled) ∧ (∀ m ∈ q.below, m.Spelled) ∧
      p.lowered style = .ok "f(\"a\\\", \\\"b)\\n\")\n2" ∧ q.lowered style ≠ p.lowered style := by
  intro style p q
  have hstatement : Parts style.statementSeparator := ⟨'\n', by decide, by decide⟩
  have hargument : Parts style.argumentSeparator := ⟨',', by decide, by decide⟩
  have hp : ∀ m ∈ p.below, m.Spelled := by decide
  have hq : ∀ m ∈ q.below, m.Spelled := by decide
  obtain ⟨code, hcode, honly⟩ := lowered_determines rfl hstatement hargument hp
  have htext := lowered_of_spelled (p := p) (rfl : style.strings = .quote) hp
  refine ⟨hstatement, hargument, hp, hq, htext.trans (congrArg _ (by decide)), fun heq => ?_⟩
  have hsame : p = q := honly q hq (heq.trans hcode)
  exact absurd hsame (by decide)

end CallForm
