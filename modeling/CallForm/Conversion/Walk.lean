/-
  CallForm.Conversion.Walk — the depth-first walk over a source program that builds a target
  program.

  The walk owns the recursion and the places where results go; a `Visitor` decides what each
  node becomes. A call opens a scope before its parameters are visited; what they become is
  appended to the scope's nodes in order, and then the scope is closed. A program below the
  root ends the walk, as does a visitor that fails: nothing is visited or closed after that,
  and the visitor's state is kept.
-/

import CallForm.Event
import CallForm.Source.Node
import CallForm.Target.Node

namespace CallForm.Conversion

inductive ConversionError where
  | nestedProgram
  deriving DecidableEq, Repr

def ConversionError.message : ConversionError → String
  | .nestedProgram => "a Program node may only appear at the root of the tree"

/-! ## Steps of a walk -/

/-- A step that may fail, reports events and changes the visitor's state. -/
def Walk (σ α : Type) : Type := σ → Logged ConversionError α × σ

namespace Walk

variable {σ α β : Type}

def ok (a : α) : Walk σ α := fun s => (.ok a, s)

def fail (e : ConversionError) : Walk σ α := fun s => (.fail e, s)

def emit (event : Event) : Walk σ Unit := fun s => (.emit event, s)

/-- A step that reports no event. -/
def quietly (f : σ → Except ConversionError α × σ) : Walk σ α := fun s =>
  (.ofExcept (f s).1, (f s).2)

def bind (x : Walk σ α) (f : α → Walk σ β) : Walk σ β := fun s =>
  match x s with
  | (⟨events, .ok a⟩, s) => (⟨events ++ (f a s).1.events, (f a s).1.result⟩, (f a s).2)
  | (⟨events, .error e⟩, s) => (⟨events, .error e⟩, s)

instance : Monad (Walk σ) where
  pure := ok
  bind := bind

end Walk

/-! ## Visitors -/

/-- The node above the one that is visited. -/
inductive Parent where
  | program (body : List Source.Node)
  | call (name : String) (params : List Source.Node)

def Parent.isProgram : Parent → Bool
  | .program _ => true
  | .call _ _ => false

/-- A target node under construction: the nodes it holds from the start, and how it is
    finished from all the nodes it holds in the end. -/
structure Scope (σ : Type) where
  initial : List Target.Node := []
  close : List Target.Node → σ → Target.Node × σ

/-- What each kind of node becomes, in view of its parent. -/
structure Visitor (σ : Type) where
  enterCall : (name : String) → (params : List Source.Node) → Parent → σ →
    Except ConversionError (Scope σ) × σ
  number : (digits : String) → Parent → σ → Except ConversionError Target.Node × σ
  string : (value : String) → Parent → σ → Except ConversionError Target.Node × σ

namespace Visitor

variable {σ : Type} (v : Visitor σ)

mutual

def walkNode (parent : Parent) : Source.Node → Walk σ Target.Node
  | .program _ => Walk.fail .nestedProgram
  | .call name params => do
    Walk.emit (.enteringCall name params.length)
    let scope ← Walk.quietly (v.enterCall name params parent)
    let made ← walkNodes (.call name params) params
    Walk.quietly fun s =>
      (.ok (scope.close (scope.initial ++ made) s).1, (scope.close (scope.initial ++ made) s).2)
  | .number digits => Walk.quietly (v.number digits parent)
  | .string value => Walk.quietly (v.string value parent)

def walkNodes (parent : Parent) : List Source.Node → Walk σ (List Target.Node)
  | [] => pure []
  | node :: nodes => do
    let made ← walkNode parent node
    let others ← walkNodes parent nodes
    pure (made :: others)

end

def walk (p : Source.Program) : Walk σ Target.Program := do
  let body ← v.walkNodes (.program p.body) p.body
  pure ⟨body⟩

end Visitor

end CallForm.Conversion
