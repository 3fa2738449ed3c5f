/-
  CallForm.Settings — what a compiler can be told: how to treat characters outside the
  alphabet, how deep calls may nest, and how code is written.
-/

namespace CallForm

/-- Treatment of characters outside the alphabet. -/
inductive StrayPolicy where
  | skip
  | reject
  deriving DecidableEq, Repr

/-- Treatment of string literals, for which the written code has no form of its own. -/
inductive StringPolicy where
  | reject
  | quote
  deriving DecidableEq, Repr

structure CodeStyle where
  strings : StringPolicy := .reject
  statementSeparator : String := "\n"
  argumentSeparator : String := ", "
  deriving DecidableEq, Repr

/-- The deepest nesting of calls that is read unless the settings say otherwise. -/
def defaultMaxDepth : Nat := 256

structure Settings where
  strays : StrayPolicy := .skip
  maxDepth : Nat := defaultMaxDepth
  style : CodeStyle := {}
  deriving DecidableEq, Repr

end CallForm
