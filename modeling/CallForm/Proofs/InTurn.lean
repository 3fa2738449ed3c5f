/-
  CallForm.Proofs.InTurn — steps that are taken in turn, up to the first that fails.

  What comes of them is a value if all pass (`passes_of_ok`), and else the failure of the first
  step that does not (`exists_first`).
-/

namespace CallForm

/-- What comes of steps that are taken in turn: `passes` and `fails` judge a step by itself, and
    `gives` what is made when all have passed. -/
inductive InTurn {σ ε α : Type} (passes : σ → Prop) (fails : σ → ε → Prop) (gives : α → Prop) :
    List σ → Except ε α → Prop
  | done {a : α} : gives a → InTurn passes fails gives [] (.ok a)
  | next {s : σ} {ss : List σ} {r : Except ε α} :
      passes s → InTurn passes fails gives ss r → InTurn passes fails gives (s :: ss) r
  | stop {s : σ} {ss : List σ} {e : ε} :
      fails s e → InTurn passes fails gives (s :: ss) (.error e)

namespace InTurn

variable {σ ε α : Type} {passes : σ → Prop} {fails : σ → ε → Prop} {gives : α → Prop}
  {ss ts : List σ} {r : Except ε α} {a : α} {e : ε}

theorem append_of_ok (h : InTurn passes fails gives ss (.ok a))
    (hts : InTurn passes fails gives ts r) : InTurn passes fails gives (ss ++ ts) r := by
  generalize hok : (.ok a : Except ε α) = outcome at h
  induction h with
  | done => exact hts
  | next hs _ ih => exact .next hs (ih hok)
  | stop => cases hok

theorem append_of_error (ts : List σ) (h : InTurn passes fails gives ss (.error e)) :
    InTurn passes fails gives (ss ++ ts) (.error e) := by
  generalize herror : (.error e : Except ε α) = outcome at h ⊢
  induction h with
  | done => cases herror
  | next hs _ ih => exact .next hs (ih herror)
  | stop hs => exact .stop hs

theorem passes_of_ok (h : InTurn passes fails gives ss (.ok a)) :
    gives a ∧ ∀ s ∈ ss, passes s := by
  generalize hok : (.ok a : Except ε α) = outcome at h
  induction h with
  | done hgives =>
    obtain rfl := Except.ok.inj hok
    exact ⟨hgives, nofun⟩
  | next hs _ ih => exact ⟨(ih hok).1, List.forall_mem_cons.mpr ⟨hs, (ih hok).2⟩⟩
  | stop => cases hok

/-- The step that fails is the first that does not pass. -/
theorem exists_first (h : InTurn passes fails gives ss (.error e)) :
    ∃ before step behind, ss = before ++ step :: behind ∧ (∀ s ∈ before, passes s) ∧
      fails step e := by
  generalize herror : (.error e : Except ε α) = outcome at h
  induction h with
  | done => cases herror
  | @next s ss r hs _ ih =>
    obtain ⟨before, step, behind, rfl, hbefore, hfails⟩ := ih herror
    exact ⟨s :: before, step, behind, rfl, List.forall_mem_cons.mpr ⟨hs, hbefore⟩, hfails⟩
  | @stop s ss e' hs =>
    obtain rfl := Except.error.inj herror
    exact ⟨[], s, ss, rfl, nofun, hs⟩

end InTurn

end CallForm
