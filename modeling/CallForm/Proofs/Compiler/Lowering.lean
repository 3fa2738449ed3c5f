/-
  CallForm.Proofs.Compiler.Lowering — trees built by hand, converted and written.

  A tree that no text was read for may hold programs and strings anywhere. Conversion ends at
  any program below the root (`result_convert`) and comes before the code, which ends at any
  string if strings are refused; so a program counts before a string, whichever comes first in
  the tree. A tree with neither has the code that recursion over it writes (`lowered_eq`).
-/

import CallForm.Compiler
import CallForm.Proofs.Conversion.Inverse
import CallForm.Proofs.Json.Strings
import CallForm.Proofs.Target.Code

namespace CallForm

open Source (Node)

/-- The code of a source tree, by way of its target tree. -/
def Source.Program.lowered (style : CodeStyle) (p : Source.Program) :
    Except CompileError String := do
  let target ← (Conversion.convert p).result.mapError .convert
  (target.code style).mapError .code

variable {style : CodeStyle} {p : Source.Program}

theorem lowered_of_nested (h : ∃ m ∈ p.below, m.kind = .program) :
    p.lowered style = .error (.convert .nestedProgram) := by
  have hnot : ¬ ∀ m ∈ p.below, m.kind ≠ .program := by
    intro hall
    obtain ⟨m, hm, hk⟩ := h
    exact hall m hm hk
  rw [Source.Program.lowered, Conversion.result_convert, if_neg hnot]
  rfl

/-- What is converted has the code of its target tree. -/
theorem lowered_of_unnested (h : ∀ m ∈ p.below, m.kind ≠ .program) :
    p.lowered style =
      (Target.Program.code style ⟨p.body.map Node.statement⟩).mapError .code := by
  rw [Source.Program.lowered, Conversion.result_convert, if_pos h]
  rfl

theorem lowered_of_string (hreject : style.strings = .reject)
    (h : ∀ m ∈ p.below, m.kind ≠ .program) (hstring : ∃ m ∈ p.below, m.kind = .string) :
    p.lowered style = .error (.code (.unsupported .string)) := by
  have hsome : ∃ q ∈ p.body, ∃ m ∈ q.nodes, m.kind = .string := by
    obtain ⟨m, hm, hk⟩ := hstring
    obtain ⟨q, hq, hm⟩ := Node.mem_nodesAll.mp hm
    exact ⟨q, hq, m, hm, hk⟩
  rw [lowered_of_unnested h, Target.code_convert_of_string hreject hsome]
  rfl

theorem lowered_of_codable (h : ∀ m ∈ p.below, m.Codable style) :
    p.lowered style =
      .ok (style.statementSeparator.intercalate (p.body.map (·.rendered style))) := by
  rw [lowered_of_unnested fun m hm => (h m hm).1,
    Target.code_convert (Node.forall_mem_nodesAll.mp h)]
  rfl

/-- A string is written as the JSON text of it. -/
theorem ofText_rendered_string (style : CodeStyle) (depth : Nat) (value : String) :
    Json.ofText depth ((Node.string value).rendered style) = .ok (.string value) := by
  have hread : Json.readValue depth (Json.quoted value).toList = .ok (.string value, []) := by
    have hstring := Json.readString_escaped value []
    rw [Json.toList_quoted, Json.readValue]
    simp [Json.skipBlanks, Json.isBlank, hstring, Except.map]
  rw [Node.rendered, Json.ofText, hread]
  rfl

/-- A tree with a program below its root is not converted. Any other with a string in it is not
    written if strings are refused. In all other cases its code is written by recursion over
    it, strings as JSON. -/
theorem lowered_eq (style : CodeStyle) (p : Source.Program) :
    (p.lowered style =
      if ∃ m ∈ p.below, m.kind = .program then .error (.convert .nestedProgram)
      else if style.strings = .reject ∧ ∃ m ∈ p.below, m.kind = .string then
        .error (.code (.unsupported .string))
      else .ok (style.statementSeparator.intercalate (p.body.map (·.rendered style)))) ∧
    ∀ depth value,
      Json.ofText depth ((Node.string value).rendered style) = .ok (.string value) := by
  refine ⟨?_, ofText_rendered_string style⟩
  by_cases hprogram : ∃ m ∈ p.below, m.kind = .program
  · rw [if_pos hprogram]
    exact lowered_of_nested hprogram
  · have hnone : ∀ m ∈ p.below, m.kind ≠ .program := fun m hm hk => hprogram ⟨m, hm, hk⟩
    rw [if_neg hprogram]
    by_cases hrefused : style.strings = .reject ∧ ∃ m ∈ p.below, m.kind = .string
    · rw [if_pos hrefused]
      exact lowered_of_string hrefused.1 hnone hrefused.2
    · rw [if_neg hrefused]
      refine lowered_of_codable fun m hm => ⟨hnone m hm, fun hk => ?_⟩
      cases hstrings : style.strings with
      | reject => exact absurd ⟨hstrings, m, hm, hk⟩ hrefused
      | quote => rfl

/-- The program counts, though the string comes first in the tree. -/
example : Source.Program.lowered {} ⟨[.call "f" [.string "a", .program []]]⟩ =
    .error (.convert .nestedProgram) := rfl

end CallForm
