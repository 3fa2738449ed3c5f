/-
  CallForm.Proofs.Conversion.Logs — any visitor with a log of its calls.

  `logged` keeps the answers of a visitor and writes down each call of it, so a walk with a log
  is the walk without, and the log takes its course (`logs_walkNodes`). A visitor that answers
  where another fails is asked the same up to there (`Leads`, `leads_walkNodes`). Together they
  tell all that a walk asks of its visitor (`walk_course`).
-/

import CallForm.Proofs.Conversion.Callbacks

namespace CallForm.Conversion

open Source (Node)

/-! ## The log of a visitor -/

/-- The scope of this call that also writes down how it is closed. -/
def Scope.logged {σ : Type} (name : String) (params : List Node) (scope : Scope σ) :
    Scope (σ × List Callback) where
  initial := scope.initial
  close nodes s :=
    let made := (scope.close nodes s.1).1
    (made, (scope.close nodes s.1).2, s.2 ++ [.close name params nodes made])

namespace Visitor

variable {σ : Type} (v : Visitor σ)

/-- The visitor that also writes down each call of it. -/
def logged : Visitor (σ × List Callback) where
  enterCall name params parent s :=
    let answer := (v.enterCall name params parent s.1).1
    (answer.map (·.logged name params), (v.enterCall name params parent s.1).2,
      s.2 ++ [.enter name params parent (answer.map (·.initial))])
  number digits parent s :=
    let answer := (v.number digits parent s.1).1
    (answer, (v.number digits parent s.1).2, s.2 ++ [.number digits parent answer])
  string value parent s :=
    let answer := (v.string value parent s.1).1
    (answer, (v.string value parent s.1).2, s.2 ++ [.string value parent answer])

/-- The calls of the visitor on a walk through this program from this state. -/
def log (p : Source.Program) (s : σ) : List Callback := (v.logged.walk p (s, [])).2.2

variable {v} {parent : Parent} {q : Node} {qs : List Node} {s s' : σ} {events : List Event}

theorem walkNodes_cons_of_ok {t : Target.Node} (h : v.walkNode parent q s = (⟨events, .ok t⟩, s')) :
    v.walkNodes parent (q :: qs) s =
      (⟨events ++ (v.walkNodes parent qs s').1.events,
        (v.walkNodes parent qs s').1.result.map (t :: ·)⟩, (v.walkNodes parent qs s').2) := by
  rw [walkNodes, Walk.bind_of_ok h]
  rcases hqs : v.walkNodes parent qs s' with ⟨⟨others, made | e⟩, s''⟩
  · rw [Walk.bind_of_error hqs]; rfl
  · rw [Walk.bind_of_ok hqs, Walk.pure_apply, List.append_nil]; rfl

theorem walkNodes_cons_of_error {e : ConversionError}
    (h : v.walkNode parent q s = (⟨events, .error e⟩, s')) :
    v.walkNodes parent (q :: qs) s = (⟨events, .error e⟩, s') := by
  rw [walkNodes, Walk.bind_of_error h]

theorem walkNode_call_of_error {name : String} {params : List Node} {e : ConversionError}
    (h : v.enterCall name params parent s = (.error e, s')) :
    v.walkNode parent (.call name params) s =
      (⟨[.enteringCall name params.length], .error e⟩, s') := by
  rw [walkNode, Walk.bind_of_ok (Walk.emit_apply _ _),
    Walk.bind_of_error (by rw [Walk.quietly_apply, h])]
  rfl

/-- What a walk does in a call whose scope is open. -/
def finish (v : Visitor σ) (name : String) (params : List Node) (scope : Scope σ) :
    Walk σ Target.Node := do
  let made ← v.walkNodes (.call name params) params
  Walk.quietly fun s =>
    (.ok (scope.close (scope.initial ++ made) s).1, (scope.close (scope.initial ++ made) s).2)

theorem walkNode_call_of_ok {name : String} {params : List Node} {scope : Scope σ}
    (h : v.enterCall name params parent s = (.ok scope, s')) :
    v.walkNode parent (.call name params) s =
      (⟨.enteringCall name params.length :: (v.finish name params scope s').1.events,
        (v.finish name params scope s').1.result⟩, (v.finish name params scope s').2) := by
  rw [walkNode, Walk.bind_of_ok (Walk.emit_apply _ _),
    Walk.bind_of_ok (by rw [Walk.quietly_apply, h])]
  rfl

theorem finish_of_error {name : String} {params : List Node} {e : ConversionError}
    (h : v.walkNodes (.call name params) params s = (⟨events, .error e⟩, s')) (scope : Scope σ) :
    v.finish name params scope s = (⟨events, .error e⟩, s') := by
  rw [finish, Walk.bind_of_error h]

theorem finish_of_ok {name : String} {params : List Node} {made : List Target.Node}
    (h : v.walkNodes (.call name params) params s = (⟨events, .ok made⟩, s')) (scope : Scope σ) :
    v.finish name params scope s =
      (⟨events, .ok (scope.close (scope.initial ++ made) s').1⟩,
        (scope.close (scope.initial ++ made) s').2) := by
  rw [finish, Walk.bind_of_ok h, Walk.quietly_apply, List.append_nil]

theorem logged_enterCall_of_error {name : String} {params : List Node} {e : ConversionError}
    (h : v.enterCall name params parent s = (.error e, s')) (log : List Callback) :
    v.logged.enterCall name params parent (s, log) =
      (.error e, s', log ++ [.enter name params parent (.error e)]) := by
  simp only [logged, h]
  rfl

theorem logged_enterCall_of_ok {name : String} {params : List Node} {scope : Scope σ}
    (h : v.enterCall name params parent s = (.ok scope, s')) (log : List Callback) :
    v.logged.enterCall name params parent (s, log) =
      (.ok (scope.logged name params), s',
        log ++ [.enter name params parent (.ok scope.initial)]) := by
  simp only [logged, h]
  rfl

/-- Logging changes nothing but the log, which takes its course. -/
def Logs (v : Visitor σ) (parent : Parent) (qs : List Node) : Prop :=
  ∀ s log, ∃ new, v.logged.walkNodes parent qs (s, log) =
      ((v.walkNodes parent qs s).1, (v.walkNodes parent qs s).2, log ++ new) ∧
    Course parent qs new (v.walkNodes parent qs s).1.result

theorem logs_literal {f : σ → Except ConversionError Target.Node × σ}
    {c : Except ConversionError Target.Node → Callback}
    (hplain : v.walkNode parent q = Walk.quietly f)
    (hlogged : v.logged.walkNode parent q =
      Walk.quietly fun s => ((f s.1).1, (f s.1).2, s.2 ++ [c (f s.1).1]))
    (hok : ∀ t log r, Course parent qs log r →
      Course parent (q :: qs) (c (.ok t) :: log) (r.map (t :: ·)))
    (herror : ∀ e, Course parent (q :: qs) [c (.error e)] (.error e))
    (h : Logs v parent qs) : Logs v parent (q :: qs) := by
  intro s log
  rcases hf : f s with ⟨e | t, s'⟩
  · have hrun : v.walkNode parent q s = (⟨[], .error e⟩, s') := by
      rw [hplain, Walk.quietly_apply, hf]
    have hlog : v.logged.walkNode parent q (s, log) =
        (⟨[], .error e⟩, s', log ++ [c (.error e)]) := by
      rw [hlogged, Walk.quietly_apply, hf]
    rw [walkNodes_cons_of_error hrun, walkNodes_cons_of_error hlog]
    exact ⟨_, rfl, herror e⟩
  · have hrun : v.walkNode parent q s = (⟨[], .ok t⟩, s') := by
      rw [hplain, Walk.quietly_apply, hf]
    have hlog : v.logged.walkNode parent q (s, log) =
        (⟨[], .ok t⟩, s', log ++ [c (.ok t)]) := by
      rw [hlogged, Walk.quietly_apply, hf]
    obtain ⟨new, hnew, hcourse⟩ := h s' (log ++ [c (.ok t)])
    rw [walkNodes_cons_of_ok hrun, walkNodes_cons_of_ok hlog, hnew]
    exact ⟨c (.ok t) :: new, by simp, hok t new _ hcourse⟩

theorem logs_call {name : String} {params : List Node}
    (hparams : Logs v (.call name params) params) (h : Logs v parent qs) :
    Logs v parent (.call name params :: qs) := by
  intro s log
  rcases henter : v.enterCall name params parent s with ⟨e | scope, s'⟩
  · have hlogged := logged_enterCall_of_error henter log
    rw [walkNodes_cons_of_error (walkNode_call_of_error henter),
      walkNodes_cons_of_error (walkNode_call_of_error hlogged)]
    exact ⟨_, rfl, .enterFails⟩
  · have hrun := walkNode_call_of_ok henter
    have hlogged := walkNode_call_of_ok (logged_enterCall_of_ok henter log)
    obtain ⟨inner, hinner, hcourse⟩ :=
      hparams s' (log ++ [.enter name params parent (.ok scope.initial)])
    rcases hmade : v.walkNodes (.call name params) params s' with ⟨⟨events, e | made⟩, s''⟩
    · rw [hmade] at hinner hcourse
      rw [finish_of_error hmade] at hrun
      rw [finish_of_error hinner] at hlogged
      rw [walkNodes_cons_of_error hrun, walkNodes_cons_of_error hlogged]
      exact ⟨.enter name params parent (.ok scope.initial) :: inner, by simp, .paramFails hcourse⟩
    · rw [hmade] at hinner hcourse
      rw [finish_of_ok hmade] at hrun
      rw [finish_of_ok hinner] at hlogged
      rw [walkNodes_cons_of_ok hrun, walkNodes_cons_of_ok hlogged]
      rcases hclose : scope.close (scope.initial ++ made) s'' with ⟨t, last⟩
      obtain ⟨new, hnew, hothers⟩ := h last
        (log ++ [.enter name params parent (.ok scope.initial)] ++ inner ++
          [.close name params (scope.initial ++ made) t])
      refine ⟨.enter name params parent (.ok scope.initial) ::
        (inner ++ .close name params (scope.initial ++ made) t :: new), ?_, .call hcourse hothers⟩
      simp only [Scope.logged, hclose, hnew]
      simp

theorem logs_walkNodes (v : Visitor σ) (qs : List Node) : ∀ parent, Logs v parent qs := by
  induction qs using Node.forest_induction with
  | nil => exact fun parent s log => ⟨[], by simp [walkNodes, Walk.pure_apply], .done⟩
  | program body qs _ =>
    intro parent s log
    have hrun : v.walkNode parent (.program body) s = (⟨[], .error .nestedProgram⟩, s) := by
      rw [walkNode]; rfl
    have hlog : v.logged.walkNode parent (.program body) (s, log) =
        (⟨[], .error .nestedProgram⟩, s, log) := by
      rw [walkNode]; rfl
    rw [walkNodes_cons_of_error hrun, walkNodes_cons_of_error hlog]
    exact ⟨[], by simp, .program⟩
  | number digits qs ih =>
    exact fun parent => logs_literal (c := .number digits parent) (by rw [walkNode])
      (by rw [walkNode]; rfl) (fun _ _ _ => .number) (fun _ => .numberFails) (ih parent)
  | string value qs ih =>
    exact fun parent => logs_literal (c := .string value parent) (by rw [walkNode])
      (by rw [walkNode]; rfl) (fun _ _ _ => .string) (fun _ => .stringFails) (ih parent)
  | call name params qs ihparams ih =>
    exact fun parent => logs_call (ihparams (.call name params)) (ih parent)

end Visitor

/-! ## Visitors that answer where another fails -/

/-- `w` answers as `v` does wherever `v` answers. -/
structure Visitor.Extends {σ : Type} (w v : Visitor σ) : Prop where
  enterCall : ∀ {name params parent s scope s'},
    v.enterCall name params parent s = (.ok scope, s') →
      w.enterCall name params parent s = (.ok scope, s')
  number : ∀ {digits parent s t s'},
    v.number digits parent s = (.ok t, s') → w.number digits parent s = (.ok t, s')
  string : ∀ {value parent s t s'},
    v.string value parent s = (.ok t, s') → w.string value parent s = (.ok t, s')

/-- A step that only adds to the log. -/
def Grows {σ α : Type} (x : Walk (σ × List Callback) α) : Prop := ∀ s, s.2 <+: (x s).2.2

/-- The steps are the same, or the first fails and the second is asked the same up to there. -/
def Leads {σ α : Type} (x y : Walk (σ × List Callback) α) : Prop :=
  ∀ s, x s = y s ∨ (∃ e, (x s).1.result = .error e) ∧
    (x s).2.2.map Callback.asked <+: (y s).2.2.map Callback.asked

section

variable {σ α β : Type} {x y : Walk (σ × List Callback) α} {f g : α → Walk (σ × List Callback) β}

theorem Grows.bind (hx : Grows x) (hf : ∀ a, Grows (f a)) : Grows (x >>= f) := by
  intro s
  rcases h : x s with ⟨⟨events, e | a⟩, s'⟩
  · rw [Walk.bind_of_error h]
    simpa [h] using hx s
  · rw [Walk.bind_of_ok h]
    refine List.IsPrefix.trans ?_ (hf a s')
    simpa [h] using hx s

theorem Leads.refl (x : Walk (σ × List Callback) α) : Leads x x := fun _ => .inl rfl

theorem Leads.bind (hx : Leads x y) (hg : ∀ a, Grows (g a)) (hf : ∀ a, Leads (f a) (g a)) :
    Leads (x >>= f) (y >>= g) := by
  intro s
  rcases h : x s with ⟨⟨events, e | a⟩, s'⟩
  · have herror : (x >>= f) s = (⟨events, .error e⟩, s') := Walk.bind_of_error h f
    rcases hx s with heq | ⟨-, hprefix⟩
    · rw [h] at heq
      exact .inl (herror.trans (Walk.bind_of_error heq.symm g).symm)
    · refine .inr ⟨⟨e, by rw [herror]⟩, ?_⟩
      rw [h] at hprefix
      rw [herror]
      rcases hy : y s with ⟨⟨others, e' | b⟩, s₂⟩
      · rw [Walk.bind_of_error hy]
        rwa [hy] at hprefix
      · rw [Walk.bind_of_ok hy]
        rw [hy] at hprefix
        exact hprefix.trans ((hg b s₂).map Callback.asked)
  · have heq : y s = (⟨events, .ok a⟩, s') := by
      rcases hx s with heq | ⟨⟨e, herror⟩, -⟩
      · rw [← heq, h]
      · rw [h] at herror
        cases herror
    rw [Walk.bind_of_ok h, Walk.bind_of_ok heq]
    rcases hf a s' with hsame | ⟨⟨e, herror⟩, hprefix⟩
    · exact .inl (by rw [hsame])
    · exact .inr ⟨⟨e, herror⟩, hprefix⟩

end

namespace Visitor

variable {σ : Type} {v w : Visitor σ} {parent : Parent} {q : Node} {qs : List Node}

theorem grows_walkNodes (v : Visitor σ) (parent : Parent) (qs : List Node) :
    Grows (v.logged.walkNodes parent qs) := by
  rintro ⟨s, log⟩
  obtain ⟨new, hnew, -⟩ := logs_walkNodes v qs parent s log
  rw [hnew]
  exact List.prefix_append log new

theorem grows_finish (v : Visitor σ) (name : String) (params : List Node) (scope : Scope σ) :
    Grows (v.logged.finish name params (scope.logged name params)) :=
  (grows_walkNodes v _ params).bind fun _ s => List.prefix_append s.2 _

theorem leads_cons (h : Leads (v.logged.walkNode parent q) (w.logged.walkNode parent q))
    (hqs : Leads (v.logged.walkNodes parent qs) (w.logged.walkNodes parent qs)) :
    Leads (v.logged.walkNodes parent (q :: qs)) (w.logged.walkNodes parent (q :: qs)) := by
  have hpure : ∀ made : List Target.Node, Grows (pure made : Walk (σ × List Callback) _) :=
    fun made s => List.prefix_rfl
  rw [walkNodes, walkNodes]
  refine h.bind (fun _ => (grows_walkNodes w parent qs).bind fun _ => hpure _) fun _ => ?_
  exact hqs.bind (fun _ => hpure _) fun _ => Leads.refl _

theorem leads_literal {f g : σ → Except ConversionError Target.Node × σ}
    {c : Except ConversionError Target.Node → Callback}
    (hv : v.logged.walkNode parent q =
      Walk.quietly fun s => ((f s.1).1, (f s.1).2, s.2 ++ [c (f s.1).1]))
    (hw : w.logged.walkNode parent q =
      Walk.quietly fun s => ((g s.1).1, (g s.1).2, s.2 ++ [c (g s.1).1]))
    (hasked : ∀ answer answer', (c answer).asked = (c answer').asked)
    (hext : ∀ s t s', f s = (.ok t, s') → g s = (.ok t, s')) :
    Leads (v.logged.walkNode parent q) (w.logged.walkNode parent q) := by
  rintro ⟨s, log⟩
  rw [hv, hw, Walk.quietly_apply, Walk.quietly_apply]
  rcases hf : f s with ⟨e | t, s'⟩
  · refine .inr ⟨⟨e, rfl⟩, ?_⟩
    rewrite [List.map_append, List.map_append, List.map_singleton, List.map_singleton,
      hasked _ (g s).1]
    exact List.prefix_rfl
  · rw [hext s t s' hf]
    exact .inl rfl

theorem leads_finish {name : String} {params : List Node}
    (h : Leads (v.logged.walkNodes (.call name params) params)
      (w.logged.walkNodes (.call name params) params)) (scope : Scope σ) :
    Leads (v.logged.finish name params (scope.logged name params))
      (w.logged.finish name params (scope.logged name params)) :=
  h.bind (fun _ s => List.prefix_append s.2 _) fun _ => Leads.refl _

theorem leads_call {name : String} {params : List Node} (hext : w.Extends v)
    (h : Leads (v.logged.walkNodes (.call name params) params)
      (w.logged.walkNodes (.call name params) params)) :
    Leads (v.logged.walkNode parent (.call name params))
      (w.logged.walkNode parent (.call name params)) := by
  rintro ⟨s, log⟩
  rcases hv : v.enterCall name params parent s with ⟨e | scope, s'⟩
  · rw [walkNode_call_of_error (logged_enterCall_of_error hv log)]
    refine .inr ⟨⟨e, rfl⟩, ?_⟩
    rcases hw : w.enterCall name params parent s with ⟨e' | scope, s₂⟩
    · rewrite [walkNode_call_of_error (logged_enterCall_of_error hw log)]
      simp [Callback.asked, Callback.visit, Callback.context]
    · -- the second goes on into the call, which only adds to its log
      rw [walkNode_call_of_ok (logged_enterCall_of_ok hw log)]
      refine List.IsPrefix.trans ?_ ((grows_finish w name params scope _).map Callback.asked)
      simp [Callback.asked, Callback.visit, Callback.context]
  · rw [walkNode_call_of_ok (logged_enterCall_of_ok hv log),
      walkNode_call_of_ok (logged_enterCall_of_ok (hext.enterCall hv) log)]
    rcases leads_finish h scope (s', log ++ [.enter name params parent (.ok scope.initial)]) with
      hsame | ⟨⟨e, herror⟩, hprefix⟩
    · exact .inl (by rw [hsame])
    · exact .inr ⟨⟨e, herror⟩, hprefix⟩

theorem leads_walkNodes (hext : w.Extends v) (qs : List Node) :
    ∀ parent, Leads (v.logged.walkNodes parent qs) (w.logged.walkNodes parent qs) := by
  induction qs using Node.forest_induction with
  | nil => exact fun parent => Leads.refl _
  | program body qs ih =>
    intro parent
    refine leads_cons ?_ (ih parent)
    rw [walkNode, walkNode]
    exact Leads.refl _
  | number digits qs ih =>
    intro parent
    have h : Leads (v.logged.walkNode parent (.number digits))
        (w.logged.walkNode parent (.number digits)) :=
      leads_literal (f := v.number digits parent) (g := w.number digits parent)
        (c := .number digits parent) (by rw [walkNode]; rfl) (by rw [walkNode]; rfl)
        (fun _ _ => rfl) fun _ _ _ => hext.number
    exact leads_cons h (ih parent)
  | string value qs ih =>
    intro parent
    have h : Leads (v.logged.walkNode parent (.string value))
        (w.logged.walkNode parent (.string value)) :=
      leads_literal (f := v.string value parent) (g := w.string value parent)
        (c := .string value parent) (by rw [walkNode]; rfl) (by rw [walkNode]; rfl)
        (fun _ _ => rfl) fun _ _ _ => hext.string
    exact leads_cons h (ih parent)
  | call name params qs ihparams ih =>
    exact fun parent => leads_cons (leads_call hext (ihparams _)) (ih parent)

/-! ## Whole walks -/

theorem walk_apply (v : Visitor σ) (p : Source.Program) (s : σ) :
    v.walk p s = (⟨(v.walkNodes (.program p.body) p.body s).1.events,
      (v.walkNodes (.program p.body) p.body s).1.result.map Target.Program.mk⟩,
      (v.walkNodes (.program p.body) p.body s).2) := by
  rw [walk]
  rcases h : v.walkNodes (.program p.body) p.body s with ⟨⟨events, e | body⟩, s'⟩
  · rw [Walk.bind_of_error h]
    rfl
  · rw [Walk.bind_of_ok h, Walk.pure_apply, List.append_nil]
    rfl

theorem log_eq (v : Visitor σ) (p : Source.Program) (s : σ) :
    v.log p s = (v.logged.walkNodes (.program p.body) p.body (s, [])).2.2 := by
  rw [log, walk_apply]

theorem logged_walk (v : Visitor σ) (p : Source.Program) (s : σ) :
    v.logged.walk p (s, []) = ((v.walk p s).1, (v.walk p s).2, v.log p s) ∧
    Course (.program p.body) p.body (v.log p s)
      ((v.walk p s).1.result.map Target.Program.body) := by
  obtain ⟨new, hnew, hcourse⟩ := logs_walkNodes v p.body (.program p.body) s []
  rw [log_eq, walk_apply, walk_apply, hnew]
  refine ⟨rfl, ?_⟩
  cases h : (v.walkNodes (.program p.body) p.body s).1.result <;> rwa [h] at hcourse

end Visitor

/-- A log changes nothing of a walk. It takes its course, and it follows the plan of the
    program: to the end if the walk ends well, and then it meets the nodes below the root once
    each and in order; else to the callback that fails, or to the first program. What is asked
    up to there is asked also by a visitor that does not fail there. -/
theorem walk_course {σ : Type} (v : Visitor σ) (p : Source.Program) (s : σ) :
    v.logged.walk p (s, []) = ((v.walk p s).1, (v.walk p s).2, v.log p s) ∧
    Course (.program p.body) p.body (v.log p s) ((v.walk p s).1.result.map Target.Program.body) ∧
    Ending (visitsAll (.program p.body) p.body) p.body.length (v.log p s)
      ((v.walk p s).1.result.map Target.Program.body) ∧
    (∀ t, (v.walk p s).1.result = .ok t → (v.log p s).filterMap (·.visit.node?) = p.below) ∧
    ∀ w : Visitor σ, w.Extends v →
      (v.log p s).map Callback.asked <+: (w.log p s).map Callback.asked := by
  obtain ⟨hrun, hcourse⟩ := Visitor.logged_walk v p s
  refine ⟨hrun, hcourse, hcourse.ending, fun t ht => ?_, fun w hext => ?_⟩
  · rw [ht] at hcourse
    exact hcourse.filterMap_node
  · rw [Visitor.log_eq, Visitor.log_eq]
    rcases Visitor.leads_walkNodes hext p.body (.program p.body) (s, []) with hsame | ⟨-, hprefix⟩
    · rewrite [hsame]
      exact List.prefix_rfl
    · exact hprefix

/-- A visitor that counts the calls it enters, names each in its scope from the start, and may
    refuse one number. -/
def naming (refused : Option String) : Visitor Nat where
  enterCall name _ _ n :=
    (.ok { initial := [.identifier name], close := fun nodes n => (.call name nodes, n) }, n + 1)
  number digits _ n :=
    (if refused = some digits then .error .nestedProgram else .ok (.number digits), n)
  string value _ n := (.ok (.string value), n)

theorem naming_extends (refused : Option String) : (naming none).Extends (naming refused) where
  enterCall h := h
  number {digits parent s t s'} h := by
    by_cases hrefused : refused = some digits
    · simp [naming, hrefused] at h
    · simpa [naming, hrefused] using h
  string h := h

/-- The number `2` is refused while `f` is open: `f` is not closed and `3` not visited. -/
theorem a_refused_number_ends_the_walk :
    let p : Source.Program := ⟨[.call "f" [.number "1", .call "g" [], .number "2"], .number "3"]⟩
    let target : Target.Program := ⟨[.call "f" [.identifier "f", .number "1",
      .call "g" [.identifier "g"], .number "2"], .number "3"]⟩
    ((naming none).walk p 0).1.result = .ok target ∧
    ((naming none).log p 0).filterMap (·.visit.node?) = p.below ∧
    (naming none).Extends (naming (some "2")) ∧
    ((naming (some "2")).log p 0).length = 5 ∧ ((naming none).log p 0).length = 7 ∧
    ((naming (some "2")).log p 0).map Callback.asked <+:
      ((naming none).log p 0).map Callback.asked := by
  intro p target
  have hresult : ((naming none).walk p 0).1.result = .ok target := by rfl
  obtain ⟨-, -, -, hnodes, -⟩ := walk_course (naming none) p 0
  obtain ⟨-, -, -, -, hprefix⟩ := walk_course (naming (some "2")) p 0
  exact ⟨hresult, hnodes target hresult, naming_extends _, rfl, rfl,
    hprefix _ (naming_extends _)⟩

end CallForm.Conversion
