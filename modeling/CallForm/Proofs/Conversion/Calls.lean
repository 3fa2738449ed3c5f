/-
  CallForm.Proofs.Conversion.Calls — what conversion makes of a source tree.

  A tree without programs becomes its `argument`, or its `statement` directly under the
  program; nothing else happens on the way but an event for each call, in the order of their
  opening parentheses (`walkNode_calls`, `convert_eq`).
-/

import CallForm.Conversion.Calls
import CallForm.Proofs.Source.Shape

namespace CallForm

namespace Source.Node

mutual

/-- The target tree of a tree under a call. -/
def argument : Node → Target.Node
  | .program body => .program (arguments body)
  | .call name params => .call name (arguments params)
  | .number digits => .number digits
  | .string value => .string value

def arguments : List Node → List Target.Node
  | [] => []
  | node :: others => argument node :: arguments others

end

/-- The target tree of a tree directly under the program. -/
def statement : Node → Target.Node
  | .call name params => .statement name (arguments params)
  | node => node.argument

mutual

/-- The events of converting a tree: its calls, each before those in it. -/
def entries : Node → List Event
  | .program body => entriesAll body
  | .call name params => .enteringCall name params.length :: entriesAll params
  | .number _ => []
  | .string _ => []

def entriesAll : List Node → List Event
  | [] => []
  | node :: others => entries node ++ entriesAll others

end

theorem arguments_eq_map (qs : List Node) : arguments qs = qs.map argument := by
  induction qs with
  | nil => rfl
  | cons q qs ih => rw [arguments, ih, List.map_cons]

end Source.Node

namespace Conversion

open Source (Node)

/-! ## Steps -/

namespace Walk

variable {σ α β : Type}

theorem bind_of_ok {x : Walk σ α} {s s' : σ} {events : List Event} {a : α}
    (h : x s = (⟨events, .ok a⟩, s')) (f : α → Walk σ β) :
    (x >>= f) s = (⟨events ++ (f a s').1.events, (f a s').1.result⟩, (f a s').2) := by
  show bind x f s = _
  rw [bind, h]

theorem bind_of_error {x : Walk σ α} {s s' : σ} {events : List Event} {e : ConversionError}
    (h : x s = (⟨events, .error e⟩, s')) (f : α → Walk σ β) :
    (x >>= f) s = (⟨events, .error e⟩, s') := by
  show bind x f s = _
  rw [bind, h]

theorem pure_apply (a : α) (s : σ) : (pure a : Walk σ α) s = (⟨[], .ok a⟩, s) := rfl

theorem emit_apply (event : Event) (s : σ) :
    (emit event : Walk σ Unit) s = (⟨[event], .ok ()⟩, s) := rfl

theorem quietly_apply (f : σ → Except ConversionError α × σ) (s : σ) :
    quietly f s = (⟨[], (f s).1⟩, (f s).2) := rfl

end Walk

/-! ## The walk of the conversion -/

/-- What a tree becomes under this parent. -/
def converted (parent : Parent) (q : Node) : Target.Node :=
  if parent.isProgram then q.statement else q.argument

theorem walkNodes_calls_of {parent : Parent} {qs : List Node}
    (h : ∀ q ∈ qs, calls.walkNode parent q () = (⟨q.entries, .ok (converted parent q)⟩, ())) :
    calls.walkNodes parent qs () =
      (⟨Node.entriesAll qs, .ok (qs.map (converted parent))⟩, ()) := by
  induction qs with
  | nil => rfl
  | cons q qs ih =>
    obtain ⟨hq, hqs⟩ := List.forall_mem_cons.mp h
    rw [Visitor.walkNodes, Walk.bind_of_ok hq, Walk.bind_of_ok (ih hqs), Walk.pure_apply]
    simp [Node.entriesAll]

theorem walkNode_calls {q : Node} (h : ∀ m ∈ q.nodes, m.kind ≠ .program) :
    ∀ parent, calls.walkNode parent q () = (⟨q.entries, .ok (converted parent q)⟩, ()) := by
  induction q using Node.tree_induction with
  | program body _ => exact absurd rfl (h _ (Node.mem_nodes_self _))
  | number digits =>
    intro parent
    simp only [converted, Node.statement, Node.argument, ite_self]
    rfl
  | string value =>
    intro parent
    simp only [converted, Node.statement, Node.argument, ite_self]
    rfl
  | call name params ih =>
    intro parent
    have hparams := (Node.forall_mem_nodes_call.mp h).2
    have hargs := walkNodes_calls_of fun q hq => ih q hq (hparams q hq) (.call name params)
    have hmap : params.map (converted (.call name params)) = Node.arguments params := by
      rw [Node.arguments_eq_map]
      rfl
    rw [hmap] at hargs
    rw [Visitor.walkNode, Walk.bind_of_ok (Walk.emit_apply _ _),
      Walk.bind_of_ok (Walk.quietly_apply _ _), Walk.bind_of_ok hargs, Walk.quietly_apply]
    simp [converted, Node.statement, Node.argument, Node.entries]

theorem convert_eq {p : Source.Program} (h : ∀ m ∈ p.below, m.kind ≠ .program) :
    convert p = ⟨Node.entriesAll p.body ++ [.transformed p.body.length],
      .ok ⟨p.body.map Node.statement⟩⟩ := by
  have hbody := walkNodes_calls_of fun q hq =>
    walkNode_calls (Node.forall_mem_nodesAll.mp h q hq) (.program p.body)
  have hwalk : calls.walk p () =
      (⟨Node.entriesAll p.body, .ok ⟨p.body.map Node.statement⟩⟩, ()) := by
    rw [Visitor.walk, Walk.bind_of_ok hbody, Walk.pure_apply, List.append_nil]
    rfl
  rw [convert, hwalk, Logged.bind_of_ok rfl, Logged.bind_of_ok rfl]
  simp

end Conversion

end CallForm
