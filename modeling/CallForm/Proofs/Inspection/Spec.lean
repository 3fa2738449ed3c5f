/-
  CallForm.Proofs.Inspection.Spec — the texts that name a spec.

  The first hyphen of a text ends the name of the stage, and no name of a stage has one; so a
  text names a spec exactly if it is the text of an available one (`ofText_eq_ok_iff`).
-/

import CallForm.Inspection.Spec

namespace CallForm.Inspection

theorem splitFirst_eq_some_iff {mark : Char} {cs before after : List Char} :
    splitFirst mark cs = some (before, after) ↔ cs = before ++ mark :: after ∧ mark ∉ before := by
  induction cs generalizing before with
  | nil => simp [splitFirst]
  | cons c cs ih =>
    rw [splitFirst]
    by_cases hc : c = mark
    · subst hc
      rw [if_pos rfl]
      constructor
      · intro h
        cases h
        exact ⟨rfl, List.not_mem_nil⟩
      · rintro ⟨h, hnot⟩
        cases before with
        | nil =>
          rw [List.nil_append] at h
          rw [(List.cons.inj h).2]
        | cons d before => simp [(List.cons.inj h).1] at hnot
    · rw [if_neg hc, Option.map_eq_some_iff]
      constructor
      · rintro ⟨⟨others, rest⟩, hsplit, hparts⟩
        cases hparts
        obtain ⟨rfl, hnot⟩ := ih.mp hsplit
        exact ⟨rfl, by simp [hnot, Ne.symm hc]⟩
      · rintro ⟨h, hnot⟩
        cases before with
        | nil => exact absurd (List.cons.inj h).1 hc
        | cons d before =>
          obtain ⟨rfl, hcs⟩ := List.cons.inj h
          have hbefore : mark ∉ before := fun hm => hnot (List.mem_cons_of_mem _ hm)
          exact ⟨(before, after), ih.mpr ⟨hcs, hbefore⟩, rfl⟩

theorem Stage.ofName?_eq_some_iff {name : String} {s : Stage} :
    Stage.ofName? name = some s ↔ s.name = name := by
  constructor
  · intro h
    unfold Stage.ofName? at h
    split at h <;> cases h <;> rfl
  · rintro rfl
    exact Stage.ofName?_name s

theorem Format.ofName?_eq_some_iff {name : String} {f : Format} :
    Format.ofName? name = some f ↔ f.name = name := by
  constructor
  · intro h
    unfold Format.ofName? at h
    split at h <;> cases h <;> rfl
  · rintro rfl
    exact Format.ofName?_name f

theorem Stage.hyphen_not_mem_name (s : Stage) : '-' ∉ s.name.toList := by
  cases s <;> decide

theorem Spec.toList_text (spec : Spec) :
    spec.text.toList = spec.stage.name.toList ++ '-' :: spec.format.name.toList := by
  simp [Spec.text]

/-- The parts of a text before and after its first hyphen name a stage and a format exactly if
    it is the text of the spec of these two. -/
theorem splitFirst_text_iff {text : String} {spec : Spec} :
    (∃ before after, splitFirst '-' text.toList = some (before, after) ∧
      Stage.ofName? (String.ofList before) = some spec.stage ∧
      Format.ofName? (String.ofList after) = some spec.format) ↔ spec.text = text := by
  constructor
  · rintro ⟨before, after, hsplit, hstage, hformat⟩
    obtain ⟨hcs, -⟩ := splitFirst_eq_some_iff.mp hsplit
    rw [Stage.ofName?_eq_some_iff] at hstage
    rw [Format.ofName?_eq_some_iff] at hformat
    rw [← String.toList_inj, Spec.toList_text, hcs, hstage, hformat]
    simp
  · rintro rfl
    refine ⟨spec.stage.name.toList, spec.format.name.toList, ?_, ?_, ?_⟩
    · exact splitFirst_eq_some_iff.mpr ⟨spec.toList_text, spec.stage.hyphen_not_mem_name⟩
    · rw [String.ofList_toList, Stage.ofName?_name]
    · rw [String.ofList_toList, Format.ofName?_name]

theorem Spec.ofText_eq_ok_iff {text : String} {spec : Spec} :
    Spec.ofText text = .ok spec ↔ spec ∈ Spec.available ∧ spec.text = text := by
  rw [← splitFirst_text_iff]
  constructor
  · intro h
    unfold Spec.ofText at h
    split at h
    · cases h
    rename_i before after hsplit
    split at h
    · cases h
    rename_i stage hstage
    split at h
    · cases h
    rename_i format hformat
    split at h
    · rename_i hmem
      cases h
      exact ⟨hmem, before, after, hsplit, hstage, hformat⟩
    · cases h
  · rintro ⟨hmem, before, after, hsplit, hstage, hformat⟩
    rw [Spec.ofText, hsplit]
    simp only [hstage, hformat]
    rw [if_pos hmem]

end CallForm.Inspection
