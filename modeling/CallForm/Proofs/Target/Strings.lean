/-
  CallForm.Proofs.Target.Strings — which target trees have code.

  `written` writes any tree, of whatever nodes, and asks no policy: strings are quoted. The
  policy on strings decides only whether the tree has that code. If strings are refused, a tree
  with one, wherever it stands, has none, and every other tree has the code it would have if
  they were quoted (`code_eq`).
-/

import CallForm.Proofs.Target.Shape
import CallForm.Target.Code

namespace CallForm.Target

namespace Node

mutual

/-- The code of a tree with strings quoted, by the separators of statements and of arguments. -/
def written (statements arguments : String) : Node → String
  | .program body => statements.intercalate (writtenAll statements arguments body)
  | .statement callee passed =>
    callee ++ "(" ++ arguments.intercalate (writtenAll statements arguments passed) ++ ")"
  | .call callee passed =>
    callee ++ "(" ++ arguments.intercalate (writtenAll statements arguments passed) ++ ")"
  | .identifier name => name
  | .number digits => digits
  | .string value => Json.quoted value

def writtenAll (statements arguments : String) : List Node → List String
  | [] => []
  | node :: others =>
    written statements arguments node :: writtenAll statements arguments others

end

theorem writtenAll_eq_map (statements arguments : String) (ms : List Node) :
    writtenAll statements arguments ms = ms.map (written statements arguments) := by
  induction ms with
  | nil => rfl
  | cons m ms ih => rw [writtenAll, ih, List.map_cons]

/-- A string stands in the tree. -/
def HasString (m : Node) : Prop := ∃ n ∈ m.nodes, n.kind = .string

instance : DecidablePred HasString := fun m =>
  inferInstanceAs (Decidable (∃ n ∈ m.nodes, n.kind = .string))

/-- A node that is no string has one in it exactly if one of its parts does. -/
theorem hasString_iff {m : Node} (h : m.kind ≠ .string) :
    m.HasString ↔ ∃ n ∈ m.parts, n.HasString := by
  rw [HasString, nodes_eq]
  simp only [List.mem_cons, mem_nodesAll]
  constructor
  · rintro ⟨n, rfl | ⟨q, hq, hn⟩, hk⟩
    · exact absurd hk h
    · exact ⟨q, hq, n, hn, hk⟩
  · rintro ⟨q, hq, n, hn, hk⟩
    exact ⟨n, .inr ⟨q, hq, hn⟩, hk⟩

theorem hasString_program_iff {body : List Node} :
    (program body).HasString ↔ ∃ m ∈ body, m.HasString :=
  hasString_iff (by simp [kind])

theorem hasString_call_iff {callee : String} {arguments : List Node} :
    (call callee arguments).HasString ↔ ∃ m ∈ arguments, m.HasString := by
  have hcallee : ¬ (identifier callee).HasString := by simp [HasString, nodes, kind]
  simp [hasString_iff (m := call callee arguments) (by simp [kind]), parts, hcallee]

theorem hasString_statement_iff {callee : String} {arguments : List Node} :
    (statement callee arguments).HasString ↔ ∃ m ∈ arguments, m.HasString := by
  simp [hasString_iff (m := statement callee arguments) (by simp [kind]), parts,
    hasString_call_iff]

end Node

open Node (HasString written writtenAll_eq_map)

variable {style : CodeStyle}

/-! ## Lists of trees -/

section

variable {ms : List Node}

theorem codes_of_ok {text : Node → String} (h : ∀ m ∈ ms, m.code style = .ok (text m)) :
    Node.codes style ms = .ok (ms.map text) := by
  induction ms with
  | nil => rfl
  | cons m ms ih =>
    obtain ⟨hm, hms⟩ := List.forall_mem_cons.mp h
    rw [Node.codes, hm]
    simp only [ih hms]
    rfl

/-- If trees can fail for one reason only, and one of them does, all of them together do. -/
theorem codes_of_error (text : Node → String) {e : CodeError}
    (h : ∀ m ∈ ms, m.code style = .ok (text m) ∨ m.code style = .error e)
    (hsome : ∃ m ∈ ms, m.code style = .error e) : Node.codes style ms = .error e := by
  induction ms with
  | nil =>
    obtain ⟨m, hm, -⟩ := hsome
    cases hm
  | cons m ms ih =>
    obtain ⟨hm, hms⟩ := List.forall_mem_cons.mp h
    rw [Node.codes]
    rcases hm with hok | herror
    · have hothers : ∃ n ∈ ms, n.code style = .error e := by
        obtain ⟨n, hn, herror⟩ := hsome
        rcases List.mem_cons.mp hn with rfl | hn
        · rw [hok] at herror
          cases herror
        · exact ⟨n, hn, herror⟩
      rw [hok]
      simp only [ih hms hothers]
      rfl
    · rw [herror]

end

/-! ## Trees -/

/-- What a tree has under a style: the code with strings quoted, or the error for strings. -/
def Node.outcome (style : CodeStyle) (m : Node) : Except CodeError String :=
  if style.strings = .reject ∧ m.HasString then .error (.unsupported .string)
  else .ok (m.written style.statementSeparator style.argumentSeparator)

theorem codes_eq {ms : List Node} (h : ∀ m ∈ ms, m.code style = m.outcome style) :
    Node.codes style ms =
      if style.strings = .reject ∧ ∃ m ∈ ms, m.HasString then .error (.unsupported .string)
      else .ok (ms.map (written style.statementSeparator style.argumentSeparator)) := by
  split
  · rename_i hrefused
    obtain ⟨hreject, m, hm, hstring⟩ := hrefused
    refine codes_of_error (written style.statementSeparator style.argumentSeparator)
      (fun m hm => ?_) ⟨m, hm, ?_⟩
    · rw [h m hm, Node.outcome]
      split
      · exact .inr rfl
      · exact .inl rfl
    · rw [h m hm, Node.outcome, if_pos ⟨hreject, hstring⟩]
  · rename_i hnone
    refine codes_of_ok fun m hm => ?_
    rw [h m hm, Node.outcome, if_neg fun hrefused => hnone ⟨hrefused.1, m, hm, hrefused.2⟩]

/-- The outcome of a node that is written from those of the trees in it. -/
theorem map_codes {m : Node} {ms : List Node} {write : List String → String}
    (h : ∀ n ∈ ms, n.code style = n.outcome style)
    (hstring : m.HasString ↔ ∃ n ∈ ms, n.HasString)
    (hwritten : m.written style.statementSeparator style.argumentSeparator =
      write (ms.map (written style.statementSeparator style.argumentSeparator))) :
    (Node.codes style ms).map write = m.outcome style := by
  rw [codes_eq h, Node.outcome, hwritten]
  simp only [hstring]
  split <;> rfl

theorem code_eq (style : CodeStyle) (m : Node) : m.code style = m.outcome style := by
  induction m using Node.tree_induction with
  | identifier name =>
    have hnone : ¬ (Node.identifier name).HasString := by simp [HasString, Node.nodes, Node.kind]
    simp [Node.outcome, hnone, Node.code, written]
  | number digits =>
    have hnone : ¬ (Node.number digits).HasString := by simp [HasString, Node.nodes, Node.kind]
    simp [Node.outcome, hnone, Node.code, written]
  | string value =>
    have hself : (Node.string value).HasString := ⟨_, Node.mem_nodes_self _, rfl⟩
    cases hstrings : style.strings <;> simp [Node.outcome, hself, hstrings, Node.code, written]
  | program body ih =>
    exact map_codes ih Node.hasString_program_iff (by rw [written, writtenAll_eq_map])
  | call callee arguments ih =>
    exact map_codes ih Node.hasString_call_iff (by rw [written, writtenAll_eq_map, callCode])
  | statement callee arguments ih =>
    exact map_codes ih Node.hasString_statement_iff (by rw [written, writtenAll_eq_map, callCode])

/-- Under quoted strings every tree has code. Under refused strings a tree has none exactly if a
    string stands anywhere in it, the error is always the one for strings, and all other trees
    have the same code under both policies. -/
theorem code_under_policies (statements arguments : String) (m : Node) :
    let quote : CodeStyle := ⟨.quote, statements, arguments⟩
    let reject : CodeStyle := ⟨.reject, statements, arguments⟩
    (∃ text, m.code quote = .ok text) ∧
      ((∃ e, m.code reject = .error e) ↔ ∃ n ∈ m.nodes, n.kind = .string) ∧
      (∀ e, m.code reject = .error e → e = .unsupported .string) ∧
      ((∀ n ∈ m.nodes, n.kind ≠ .string) → m.code reject = m.code quote) := by
  intro quote reject
  have hquote : m.code quote = .ok (m.written statements arguments) := by
    rw [code_eq, Node.outcome, if_neg nofun]
  have hreject : m.code reject =
      if m.HasString then .error (.unsupported .string)
      else .ok (m.written statements arguments) := by
    rw [code_eq, Node.outcome]
    simp only [reject, true_and]
  by_cases hstring : m.HasString
  · rw [if_pos hstring] at hreject
    refine ⟨⟨_, hquote⟩, ⟨fun _ => hstring, fun _ => ⟨_, hreject⟩⟩, ?_, ?_⟩
    · intro e he
      rw [hreject] at he
      exact (Except.error.inj he).symm
    · rintro hnone
      obtain ⟨n, hn, hk⟩ := hstring
      exact absurd hk (hnone n hn)
  · rw [if_neg hstring] at hreject
    refine ⟨⟨_, hquote⟩, ⟨?_, fun h => absurd h hstring⟩, ?_, fun _ => hreject.trans hquote.symm⟩
    · rintro ⟨e, he⟩
      rw [hreject] at he
      cases he
    · intro e he
      rw [hreject] at he
      cases he

/-- A string in a program that is passed to a call is found, and with a number in its place the
    tree has one code under both policies. -/
theorem a_string_in_a_passed_program_is_refused :
    let tree (leaf : Node) : Node :=
      .program [.identifier "x", .statement "f" [.program [.call "g" [leaf], .number "1"]]]
    let quote : CodeStyle := ⟨.quote, ";", ","⟩
    let reject : CodeStyle := ⟨.reject, ";", ","⟩
    (∃ n ∈ (tree (.string "a")).nodes, n.kind = .string) ∧
      (tree (.string "a")).code quote = .ok "x;f(g(\"a\");1)" ∧
      (tree (.string "a")).code reject = .error (.unsupported .string) ∧
      (∀ n ∈ (tree (.number "2")).nodes, n.kind ≠ .string) ∧
      (tree (.number "2")).code reject = .ok "x;f(g(2);1)" := by
  intro tree quote reject
  have hstring : ∃ n ∈ (tree (.string "a")).nodes, n.kind = .string := by decide
  have hnone : ∀ n ∈ (tree (.number "2")).nodes, n.kind ≠ .string := by decide
  obtain ⟨-, hfails, honly, -⟩ := code_under_policies ";" "," (tree (.string "a"))
  obtain ⟨e, he⟩ := hfails.mpr hstring
  obtain ⟨-, -, -, hsame⟩ := code_under_policies ";" "," (tree (.number "2"))
  exact ⟨hstring, rfl, he.trans (congrArg _ (honly e he)), hnone, hsame hnone⟩

end CallForm.Target
