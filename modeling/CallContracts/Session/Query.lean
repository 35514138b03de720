import CallContracts.Session.Step

/-!
Single questions to an environment.

Main definitions: `Environment.readSignature`, `Environment.verify`, `Environment.matches` and
`Environment.testerName`.
-/

namespace CallContracts.Environment

/-- Reads a signature with the names of an environment. -/
def readSignature (env : Environment) (signature : Value) : Act Tree :=
  Enforcer.readContract env.registry signature

/-- The stage at a place of a signature. -/
def stageAt (env : Environment) (signature : Value) (place : Int) : Act Stage := do
  let t ← env.readSignature signature
  Act.orMishap .index (Value.at? t.stages place)

/-- Checks values against a stage. -/
def verify (env : Environment) (stage : Stage) (values : List Value) : Act Verdict :=
  Stage.verify (Registry.accepts invokeValue env.registry) stage values

/-- What the predicate of a type reference answers. -/
def «matches» (env : Environment) (descriptor v : Value) : Act Value :=
  Registry.matches invokeValue env.registry descriptor v

/-- The name of the tester of a type expression. -/
def testerName (env : Environment) (expression : Datum) : Act String := do
  let tester ← env.tester (← expression.value)
  return tester.name?.getD ""

end CallContracts.Environment
