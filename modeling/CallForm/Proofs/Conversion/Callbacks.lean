/-
  CallForm.Proofs.Conversion.Callbacks — the calls that a walk makes of its visitor.

  The plan of a tree are the stops a walk comes to (`visits`): each node before its children,
  with its parent, and the end of each call after its parameters. A log lists calls of the
  visitor with their answers; those of walks have one shape (`Course`), in which a scope is
  closed holding what it held from the start and one node for each parameter. A log follows
  the plan: to its end, to the first callback that fails, or to the first program
  (`Course.ending`); so a walk that ends well meets each node once (`Course.filterMap_node`).
-/

import CallForm.Proofs.Conversion.Calls

namespace CallForm.Conversion

open Source (Node)

/-! ## Plans -/

/-- A stop of a walk: a node under its parent, the end of a call, or a program below the root. -/
inductive Visit where
  | enter (name : String) (params : List Node) (parent : Parent)
  | number (digits : String) (parent : Parent)
  | string (value : String) (parent : Parent)
  | close (name : String) (params : List Node)
  | program (body : List Node)

/-- The node that is met here for the first time. -/
def Visit.node? : Visit → Option Node
  | .enter name params _ => some (.call name params)
  | .number digits _ => some (.number digits)
  | .string value _ => some (.string value)
  | .program body => some (.program body)
  | .close _ _ => none

mutual

/-- The stops of a walk through a tree: nodes before their children, and the end of a call
    after its parameters. -/
def visits (parent : Parent) : Node → List Visit
  | .program body => [.program body]
  | .call name params =>
    .enter name params parent :: (visitsAll (.call name params) params ++ [.close name params])
  | .number digits => [.number digits parent]
  | .string value => [.string value parent]

def visitsAll (parent : Parent) : List Node → List Visit
  | [] => []
  | node :: others => visits parent node ++ visitsAll parent others

end

/-- A call of the visitor and its answer; of a scope that is opened, the nodes it holds. -/
inductive Callback where
  | enter (name : String) (params : List Node) (parent : Parent)
      (initial : Except ConversionError (List Target.Node))
  | number (digits : String) (parent : Parent) (made : Except ConversionError Target.Node)
  | string (value : String) (parent : Parent) (made : Except ConversionError Target.Node)
  | close (name : String) (params : List Node) (context : List Target.Node) (made : Target.Node)

namespace Callback

def visit : Callback → Visit
  | .enter name params parent _ => .enter name params parent
  | .number digits parent _ => .number digits parent
  | .string value parent _ => .string value parent
  | .close name params _ _ => .close name params

/-- The nodes of the scope that is closed. -/
def context : Callback → List Target.Node
  | .close _ _ context _ => context
  | _ => []

/-- What was asked, whatever the answer. -/
def asked (c : Callback) : Visit × List Target.Node := (c.visit, c.context)

/-- The visitor answered with this error. -/
def Fails (e : ConversionError) : Callback → Prop
  | .enter _ _ _ answer => answer = .error e
  | .number _ _ answer => answer = .error e
  | .string _ _ answer => answer = .error e
  | .close _ _ _ _ => False

def Succeeds (c : Callback) : Prop := ∀ e, ¬ c.Fails e

section

variable {name : String} {params : List Node} {parent : Parent}

@[simp] theorem succeeds_enter {initial : List Target.Node} :
    (enter name params parent (.ok initial)).Succeeds := nofun

@[simp] theorem succeeds_number {digits : String} {t : Target.Node} :
    (number digits parent (.ok t)).Succeeds := nofun

@[simp] theorem succeeds_string {value : String} {t : Target.Node} :
    (string value parent (.ok t)).Succeeds := nofun

@[simp] theorem succeeds_close {context : List Target.Node} {t : Target.Node} :
    (close name params context t).Succeeds := nofun

end

end Callback

/-- The logs of walks through these trees, and what the walks give. -/
inductive Course : Parent → List Node → List Callback →
    Except ConversionError (List Target.Node) → Prop
  | done {parent : Parent} : Course parent [] [] (.ok [])
  | program {parent : Parent} {body qs : List Node} :
      Course parent (.program body :: qs) [] (.error .nestedProgram)
  | number {parent : Parent} {digits : String} {t : Target.Node} {qs : List Node}
      {log : List Callback} {r : Except ConversionError (List Target.Node)} :
      Course parent qs log r →
      Course parent (.number digits :: qs) (.number digits parent (.ok t) :: log) (r.map (t :: ·))
  | numberFails {parent : Parent} {digits : String} {e : ConversionError} {qs : List Node} :
      Course parent (.number digits :: qs) [.number digits parent (.error e)] (.error e)
  | string {parent : Parent} {value : String} {t : Target.Node} {qs : List Node}
      {log : List Callback} {r : Except ConversionError (List Target.Node)} :
      Course parent qs log r →
      Course parent (.string value :: qs) (.string value parent (.ok t) :: log) (r.map (t :: ·))
  | stringFails {parent : Parent} {value : String} {e : ConversionError} {qs : List Node} :
      Course parent (.string value :: qs) [.string value parent (.error e)] (.error e)
  | enterFails {parent : Parent} {name : String} {params qs : List Node} {e : ConversionError} :
      Course parent (.call name params :: qs) [.enter name params parent (.error e)] (.error e)
  | call {parent : Parent} {name : String} {params qs : List Node}
      {initial made : List Target.Node} {t : Target.Node} {inner log : List Callback}
      {r : Except ConversionError (List Target.Node)} :
      Course (.call name params) params inner (.ok made) → Course parent qs log r →
      Course parent (.call name params :: qs)
        (.enter name params parent (.ok initial) ::
          (inner ++ .close name params (initial ++ made) t :: log)) (r.map (t :: ·))
  | paramFails {parent : Parent} {name : String} {params qs : List Node}
      {initial : List Target.Node} {inner : List Callback} {e : ConversionError} :
      Course (.call name params) params inner (.error e) →
      Course parent (.call name params :: qs) (.enter name params parent (.ok initial) :: inner)
        (.error e)

/-- How a walk with this plan through so many trees ends: with all stops made and a node of
    each tree; with a callback that fails; or before a program. -/
inductive Ending (plan : List Visit) (trees : Nat) : List Callback →
    Except ConversionError (List Target.Node) → Prop
  | finished {log : List Callback} {made : List Target.Node} : (∀ c ∈ log, c.Succeeds) →
      log.map Callback.visit = plan → made.length = trees → Ending plan trees log (.ok made)
  | failed {before : List Callback} {c : Callback} {e : ConversionError} :
      (∀ b ∈ before, b.Succeeds) → c.Fails e → (before ++ [c]).map Callback.visit <+: plan →
      Ending plan trees (before ++ [c]) (.error e)
  | program {log : List Callback} {body : List Node} : (∀ c ∈ log, c.Succeeds) →
      log.map Callback.visit ++ [.program body] <+: plan →
      Ending plan trees log (.error .nestedProgram)

namespace Ending

variable {plan after : List Visit} {trees : Nat} {first log : List Callback}
  {r : Except ConversionError (List Target.Node)} {e : ConversionError}

/-- A callback that fails ends the walk. -/
theorem of_fails {c : Callback} (h : c.Fails e) (after : List Visit) (trees : Nat) :
    Ending (c.visit :: after) trees [c] (.error e) :=
  @failed _ _ [] c e nofun h ⟨after, rfl⟩

/-- An error ends what it stands in. -/
theorem within (hfirst : ∀ c ∈ first, c.Succeeds) (h : Ending plan trees log (.error e))
    (after : List Visit) (others : Nat) :
    Ending (first.map Callback.visit ++ (plan ++ after)) others (first ++ log) (.error e) := by
  cases h with
  | @failed before c e hbefore hc hplan =>
    rw [← List.append_assoc first]
    refine .failed (List.forall_mem_append.mpr ⟨hfirst, hbefore⟩) hc ?_
    rw [List.append_assoc, List.map_append, List.prefix_append_right_inj]
    exact hplan.trans (List.prefix_append plan after)
  | @program _ body hlog hplan =>
    refine @program _ _ _ body (List.forall_mem_append.mpr ⟨hfirst, hlog⟩) ?_
    rw [List.map_append, List.append_assoc, List.prefix_append_right_inj]
    exact hplan.trans (List.prefix_append plan after)

/-- A tree that is finished stands in front. -/
theorem cons (hfirst : ∀ c ∈ first, c.Succeeds) (hplan : first.map Callback.visit = plan)
    (t : Target.Node) (h : Ending after trees log r) :
    Ending (plan ++ after) (trees + 1) (first ++ log) (r.map (t :: ·)) := by
  cases r with
  | ok made =>
    cases h with
    | finished hlog hafter hlength =>
      refine .finished (List.forall_mem_append.mpr ⟨hfirst, hlog⟩) ?_ ?_
      · rw [List.map_append, hplan, hafter]
      · rw [List.length_cons, hlength]
  | error e =>
    have herror := h.within hfirst [] (trees + 1)
    rwa [List.append_nil, hplan] at herror

end Ending

/-- The log of a walk follows the plan of its trees. -/
theorem Course.ending {parent : Parent} {qs : List Node} {log : List Callback}
    {r : Except ConversionError (List Target.Node)} (h : Course parent qs log r) :
    Ending (visitsAll parent qs) qs.length log r := by
  induction h with
  | done => exact .finished nofun rfl rfl
  | @program parent body qs => exact @Ending.program _ _ [] body nofun (List.prefix_append _ _)
  | numberFails => exact .of_fails (c := .number _ _ _) rfl _ _
  | stringFails => exact .of_fails (c := .string _ _ _) rfl _ _
  | enterFails => exact .of_fails (c := .enter _ _ _ _) rfl _ _
  | @number parent digits t qs log r _ ih =>
    have hfirst : ∀ c ∈ [Callback.number digits parent (.ok t)], c.Succeeds := by simp
    exact ih.cons hfirst rfl t
  | @string parent value t qs log r _ ih =>
    have hfirst : ∀ c ∈ [Callback.string value parent (.ok t)], c.Succeeds := by simp
    exact ih.cons hfirst rfl t
  | @call parent name params qs initial made t inner log r _ _ ihparams ih =>
    cases ihparams with
    | finished hinner hplan _ =>
      have hfirst : ∀ c ∈ Callback.enter name params parent (.ok initial) ::
          (inner ++ [.close name params (initial ++ made) t]), c.Succeeds := by
        simp only [List.forall_mem_cons, List.forall_mem_append, Callback.succeeds_enter,
          Callback.succeeds_close, true_and]
        exact ⟨hinner, nofun⟩
      have hvisits : (Callback.enter name params parent (.ok initial) ::
          (inner ++ [.close name params (initial ++ made) t])).map Callback.visit =
            visits parent (.call name params) := by
        simp [hplan, visits, Callback.visit]
      simpa [visitsAll] using ih.cons hfirst hvisits t
  | @paramFails parent name params qs initial inner e _ ih =>
    have hfirst : ∀ c ∈ [Callback.enter name params parent (.ok initial)], c.Succeeds := by simp
    have herror := ih.within hfirst (.close name params :: visitsAll parent qs) (qs.length + 1)
    simpa [visitsAll, visits, Callback.visit] using herror

theorem Callback.visit_ne_program (c : Callback) (body : List Node) : c.visit ≠ .program body := by
  cases c <;> exact nofun

/-- A plan without programs meets all nodes, each before its children. -/
theorem filterMap_visitsAll (qs : List Node) : ∀ parent,
    (∀ x ∈ visitsAll parent qs, ∀ body, x ≠ .program body) →
      (visitsAll parent qs).filterMap Visit.node? = Node.nodesAll qs := by
  induction qs using Node.forest_induction with
  | nil => exact fun _ _ => rfl
  | program body qs _ =>
    intro parent h
    exact absurd rfl (h (.program body) (by simp [visitsAll, visits]) body)
  | number digits qs ih | string value qs ih =>
    intro parent h
    have hqs := ih parent fun x hx => h x (by simp [visitsAll, hx])
    simp [visitsAll, visits, Visit.node?, Node.nodesAll, Node.nodes, hqs]
  | call name params qs ihparams ih =>
    intro parent h
    have hparams := ihparams (.call name params) fun x hx => h x (by simp [visitsAll, visits, hx])
    have hqs := ih parent fun x hx => h x (by simp [visitsAll, hx])
    simp [visitsAll, visits, Visit.node?, Node.nodesAll, Node.nodes, hparams, hqs,
      List.filterMap_cons]

theorem Course.filterMap_node {parent : Parent} {qs : List Node} {log : List Callback}
    {made : List Target.Node} (h : Course parent qs log (.ok made)) :
    log.filterMap (·.visit.node?) = Node.nodesAll qs := by
  cases h.ending with
  | finished _ hplan _ =>
    rw [← filterMap_visitsAll qs parent, ← hplan, List.filterMap_map]
    · rfl
    · rw [← hplan]
      intro x hx body
      obtain ⟨c, -, rfl⟩ := List.mem_map.mp hx
      exact c.visit_ne_program body

/-- A walk that ends well meets no program. -/
theorem Course.kind_ne_program {parent : Parent} {qs : List Node} {log : List Callback}
    {made : List Target.Node} (h : Course parent qs log (.ok made)) :
    ∀ m ∈ Node.nodesAll qs, m.kind ≠ .program := by
  intro m hm
  rw [← h.filterMap_node] at hm
  obtain ⟨c, -, hc⟩ := List.mem_filterMap.mp hm
  cases c <;> cases hc <;> exact nofun

end CallForm.Conversion
