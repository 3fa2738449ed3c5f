/-
  CallForm.Event — what the compiler reports while it works, and computations that report
  events on their way to a result or a failure. A failure keeps the events before it.
-/

import CallForm.Inspection.Spec
import CallForm.Settings
import CallForm.Text.Quoted

namespace CallForm

inductive Level where
  | debug
  | trace
  deriving DecidableEq, Repr

def Level.name : Level → String
  | .debug => "DEBUG"
  | .trace => "TRACE"

inductive Event where
  | inspecting (spec : Inspection.Spec)
  /-- A stray character and the bytes it covers. -/
  | skipped (c : Char) (start stop : Nat)
  | tokenized (count : Nat) (policy : StrayPolicy)
  | closedCall (name : String) (params : Nat)
  | parsed (tokens expressions : Nat)
  | enteringCall (name : String) (params : Nat)
  | transformed (statements : Nat)
  /-- The bytes of the source and of the code written for it. -/
  | compiled (sourceBytes codeBytes : Nat)
  deriving DecidableEq, Repr

namespace Event

def level : Event → Level
  | .skipped _ _ _ | .closedCall _ _ | .enteringCall _ _ => .trace
  | .inspecting _ | .tokenized _ _ | .parsed _ _ | .transformed _ | .compiled _ _ => .debug

def message : Event → String
  | .inspecting _ => "processing source"
  | .skipped _ _ _ => "skipping unknown character"
  | .tokenized _ _ => "tokenized source"
  | .closedCall _ _ => "closed call"
  | .parsed _ _ => "parsed program"
  | .enteringCall _ _ => "entering call"
  | .transformed _ => "transformed program"
  | .compiled _ _ => "compiled source"

/-- The named details of an event, as text. -/
def fields : Event → List (String × String)
  | .inspecting spec => [("spec", spec.text)]
  | .skipped c start stop =>
    [("character", Text.quotedChar c), ("span", start.repr ++ ".." ++ stop.repr)]
  | .tokenized count policy =>
    [("token_count", count.repr),
     ("policy", match policy with | .skip => "Skip" | .reject => "Reject")]
  | .closedCall name params => [("name", name), ("params", params.repr)]
  | .parsed tokens expressions => [("tokens", tokens.repr), ("expressions", expressions.repr)]
  | .enteringCall name params => [("name", name), ("params", params.repr)]
  | .transformed statements => [("statements", statements.repr)]
  | .compiled sourceBytes codeBytes =>
    [("source_len", sourceBytes.repr), ("output_len", codeBytes.repr)]

end Event

/-! ## Computations that report events -/

/-- The events of a computation, oldest first, and how it ended. -/
structure Logged (ε α : Type) where
  events : List Event
  result : Except ε α

namespace Logged

variable {ε δ α β : Type}

def ok (a : α) : Logged ε α := ⟨[], .ok a⟩

def fail (e : ε) : Logged ε α := ⟨[], .error e⟩

def ofExcept (r : Except ε α) : Logged ε α := ⟨[], r⟩

def emit (event : Event) : Logged ε Unit := ⟨[event], .ok ()⟩

def bind (x : Logged ε α) (f : α → Logged ε β) : Logged ε β :=
  match x.result with
  | .ok a => ⟨x.events ++ (f a).events, (f a).result⟩
  | .error e => ⟨x.events, .error e⟩

def mapError (f : ε → δ) (x : Logged ε α) : Logged δ α := ⟨x.events, x.result.mapError f⟩

instance : Monad (Logged ε) where
  pure := ok
  bind := bind

@[simp] theorem events_pure (a : α) : (pure a : Logged ε α).events = [] := rfl
@[simp] theorem result_pure (a : α) : (pure a : Logged ε α).result = .ok a := rfl
@[simp] theorem events_emit (e : Event) : (emit e : Logged ε Unit).events = [e] := rfl
@[simp] theorem result_emit (e : Event) : (emit e : Logged ε Unit).result = .ok () := rfl
@[simp] theorem events_mapError (f : ε → δ) (x : Logged ε α) :
    (x.mapError f).events = x.events := rfl
@[simp] theorem result_mapError (f : ε → δ) (x : Logged ε α) :
    (x.mapError f).result = x.result.mapError f := rfl

theorem bind_of_ok {x : Logged ε α} {a : α} (h : x.result = .ok a) (f : α → Logged ε β) :
    x >>= f = ⟨x.events ++ (f a).events, (f a).result⟩ := by
  show bind x f = _
  rw [bind, h]

theorem bind_of_error {x : Logged ε α} {e : ε} (h : x.result = .error e) (f : α → Logged ε β) :
    x >>= f = ⟨x.events, .error e⟩ := by
  show bind x f = _
  rw [bind, h]

end Logged

end CallForm
