/-
  CallForm.Proofs.Target.Code — the code of a converted tree, from the source tree alone.

  `rendered` writes code by recursion over the source tree. The target tree is written alike and
  has the same strings in it, so `rendered` is its code unless strings are refused and one
  stands in the tree (`code_converted`).
-/

import Mathlib.Logic.Basic
import CallForm.Proofs.Conversion.Calls
import CallForm.Proofs.Target.Strings

namespace CallForm

namespace Source.Node

mutual

/-- The code of a source tree: numbers as they are, strings quoted, and a call as its name and
    its operands in parentheses. -/
def rendered (style : CodeStyle) : Node → String
  | .program body => style.statementSeparator.intercalate (renderedAll style body)
  | .call name params =>
    name ++ "(" ++ style.argumentSeparator.intercalate (renderedAll style params) ++ ")"
  | .number digits => digits
  | .string value => Json.quoted value

def renderedAll (style : CodeStyle) : List Node → List String
  | [] => []
  | node :: others => rendered style node :: renderedAll style others

end

theorem renderedAll_eq_map (style : CodeStyle) (qs : List Node) :
    renderedAll style qs = qs.map (rendered style) := by
  induction qs with
  | nil => rfl
  | cons q qs ih => rw [renderedAll, ih, List.map_cons]

/-- A node that can be converted and written. -/
def Codable (style : CodeStyle) (m : Node) : Prop :=
  m.kind ≠ .program ∧ (m.kind = .string → style.strings = .quote)

end Source.Node

namespace Target

open Source.Node (Codable rendered renderedAll_eq_map arguments_eq_map argument statement)

variable {style : CodeStyle}

theorem written_argument (style : CodeStyle) (q : Source.Node) :
    q.argument.written style.statementSeparator style.argumentSeparator = q.rendered style := by
  induction q using Source.Node.tree_induction with
  | number digits => rfl
  | string value => rfl
  | program body ih =>
    rw [argument, Node.written, Node.writtenAll_eq_map, arguments_eq_map, List.map_map, rendered,
      renderedAll_eq_map, ← List.map_congr_left ih]
    rfl
  | call name params ih =>
    rw [argument, Node.written, Node.writtenAll_eq_map, arguments_eq_map, List.map_map, rendered,
      renderedAll_eq_map, ← List.map_congr_left ih]
    rfl

theorem hasString_argument (q : Source.Node) :
    q.argument.HasString ↔ ∃ m ∈ q.nodes, m.kind = .string := by
  induction q using Source.Node.tree_induction with
  | number digits =>
    simp [argument, Node.HasString, Node.nodes, Source.Node.nodes, Node.kind, Source.Node.kind]
  | string value =>
    simp [argument, Node.HasString, Node.nodes, Source.Node.nodes, Node.kind, Source.Node.kind]
  | program body ih =>
    have hnot : (Source.Node.program body).kind ≠ .string := by simp [Source.Node.kind]
    rw [argument, Node.hasString_program_iff, arguments_eq_map, Source.Node.exists_mem_nodes]
    simp only [List.mem_map, exists_exists_and_eq_and, hnot, false_or]
    exact exists_congr fun q => and_congr_right (ih q)
  | call name params ih =>
    have hnot : (Source.Node.call name params).kind ≠ .string := by simp [Source.Node.kind]
    rw [argument, Node.hasString_call_iff, arguments_eq_map, Source.Node.exists_mem_nodes]
    simp only [List.mem_map, exists_exists_and_eq_and, hnot, false_or]
    exact exists_congr fun q => and_congr_right (ih q)

/-- A statement is written like the call it holds. -/
theorem written_statement (style : CodeStyle) (q : Source.Node) :
    q.statement.written style.statementSeparator style.argumentSeparator = q.rendered style := by
  rw [← written_argument]
  cases q <;> rfl

theorem hasString_statement (q : Source.Node) :
    q.statement.HasString ↔ ∃ m ∈ q.nodes, m.kind = .string := by
  rw [← hasString_argument]
  cases q with
  | call name params =>
    rw [statement, argument, Node.hasString_statement_iff, Node.hasString_call_iff]
  | program | number | string => rfl

theorem code_converted (style : CodeStyle) (body : List Source.Node) :
    Program.code style ⟨body.map statement⟩ =
      if style.strings = .reject ∧ ∃ q ∈ body, ∃ m ∈ q.nodes, m.kind = .string then
        .error (.unsupported .string)
      else .ok (style.statementSeparator.intercalate (body.map (rendered style))) := by
  have hstring : (Node.program (body.map statement)).HasString ↔
      ∃ q ∈ body, ∃ m ∈ q.nodes, m.kind = .string := by
    simp [Node.hasString_program_iff, hasString_statement]
  have hwritten :
      (Node.program (body.map statement)).written style.statementSeparator
        style.argumentSeparator =
        style.statementSeparator.intercalate (body.map (rendered style)) := by
    simp [Node.written, Node.writtenAll_eq_map, Function.comp_def, written_statement]
  rw [Program.code, code_eq, Node.outcome, hwritten]
  simp only [hstring]

theorem code_convert {body : List Source.Node}
    (h : ∀ q ∈ body, ∀ m ∈ q.nodes, Codable style m) :
    Program.code style ⟨body.map statement⟩ =
      .ok (style.statementSeparator.intercalate (body.map (rendered style))) := by
  rw [code_converted, if_neg]
  rintro ⟨hreject, q, hq, m, hm, hk⟩
  rw [(h q hq m hm).2 hk] at hreject
  cases hreject

theorem code_convert_of_string (hreject : style.strings = .reject) {body : List Source.Node}
    (h : ∃ q ∈ body, ∃ m ∈ q.nodes, m.kind = .string) :
    Program.code style ⟨body.map statement⟩ = .error (.unsupported .string) := by
  rw [code_converted, if_pos ⟨hreject, h⟩]

end Target

end CallForm
