/-
  CallForm.Conversion.Calls — source programs converted into target programs: a call's name
  becomes its callee and its parameters become arguments; a call directly under the program
  becomes a statement; literals stay as they are.
-/

import CallForm.Conversion.Walk

namespace CallForm.Conversion

/-- The visitor of the conversion; it has no state and never fails. -/
def calls : Visitor Unit where
  enterCall name _ parent _ :=
    (.ok { close := fun arguments _ =>
      (if parent.isProgram then .statement name arguments else .call name arguments, ()) }, ())
  number digits _ _ := (.ok (.number digits), ())
  string value _ _ := (.ok (.string value), ())

/-- The target program for a source program. -/
def convert (p : Source.Program) : Logged ConversionError Target.Program := do
  let target ← (calls.walk p ()).1
  Logged.emit (.transformed target.body.length)
  pure target

end CallForm.Conversion
