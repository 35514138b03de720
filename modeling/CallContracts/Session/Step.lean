import CallContracts.Session.Inspection

/-!
Sessions: steps on a world, one after the other.

A step names an environment by the name that it was made under. Its result may be kept in a
variable for later steps. A step that fails leaves what it has changed and does not end the
session.

Main definitions: `Request`, `Step`, `Answer`, `Request.carryOut` and `Session.run`.
-/

namespace CallContracts

/-- What an environment is made of. -/
inductive EnvironmentSpec where
  /-- A registry without a facade, with the base types and the extended types or without. -/
  | registry (base extended : Bool)
  /-- A facade with a setup. -/
  | facade (setup : Option Datum)

/-- What stands in front of an operation. -/
inductive Front where
  /-- The registry or the enforcer itself. -/
  | bare (op : Operation)
  | facade (op : Operation)
  /-- The maker of decorators of a facade. -/
  | contract
  deriving Repr, DecidableEq

/-- What a step asks for. -/
inductive Request where
  /-- Calls an operation of an environment. -/
  | operation (environment : String) (front : Front) (args : List Datum)
      (keywords : List (String × Datum))
  /-- The operation itself. -/
  | fetch (environment : String) (front : Front)
  | call (f : Datum) (args : List Datum) (keywords : List (String × Datum))
  | value (d : Datum)
  /-- Makes another environment under a name. -/
  | create (name : String) (spec : EnvironmentSpec)
  | inspect (d : Datum)
  | setAttribute (d : Datum) (name : String) (value : Datum)
  | contains (environment : String) (name : Datum)
  | types (environment : String)
  /-- Tests values against a type expression. -/
  | test (environment : String) (expression : Datum) (values : List Datum)

/-- A request, and the variable that keeps its result. -/
structure Step where
  request : Request
  target? : Option String

/-- What a step answers. -/
inductive Answer where
  | value (v : Value)
  | truths (bs : List Bool)
  | types (entries : List (String × String × Nat))
  | inspection (i : Inspection)

/-- The environments of a session, by name. -/
abbrev Environments := List (String × Environment)

/-- The environment that steps use unless they name another. -/
def mainEnvironment : String := "main"

/-- Makes written keywords in turn. -/
def Datum.keywords (kw : List (String × Datum)) : Act (Call.Keywords Value) :=
  Act.each (fun (name, d) => do return (name, ← d.value)) kw

/-- Makes an environment. -/
def EnvironmentSpec.build : EnvironmentSpec → Act Environment
  | .registry base extended => Environment.plain base extended
  | .facade none => Environment.withFacade {}
  | .facade (some d) => do
    let v ← d.value
    Environment.withFacade (← Setup.ofValue v)

/-- The callable that an operation of an environment is. -/
def Front.callable (env : Environment) : Front → Act Value
  | .bare op => pure (.function (.operation env.registry op))
  | .facade op => Act.orMishap .attribute (env.operation? op)
  | .contract => Act.orMishap .attribute env.contract?

/-- The membership tester of a type expression. -/
def Environment.tester (env : Environment) (expression : Value) : Act Value :=
  invokeValue (.function (.operation env.registry .isTypeOf)) [expression] []

/-- Tests written values against a type expression; the tester is made once. -/
def Environment.test (env : Environment) (expression : Datum) (values : List Datum) :
    Act (List Bool) := do
  let tester ← env.tester (← expression.value)
  Act.each (fun d => do
    let answer ← invokeValue tester [← d.value] []
    return answer.truth (← Act.heap)) values

namespace Request

/-- Carries a request out on the environments of a session; a new environment joins them. -/
def carryOut (envs : Environments) : Request → Act (Answer × Environments)
  | .operation name front args keywords => do
    let env ← Act.orMishap .noVariable (envs.lookup name)
    let vs ← Act.each Datum.value args
    let kw ← Datum.keywords keywords
    let f ← front.callable env
    return (.value (← invokeValue f vs kw), envs)
  | .fetch name front => do
    let env ← Act.orMishap .noVariable (envs.lookup name)
    return (.value (← front.callable env), envs)
  | .call f args keywords => do
    let f ← f.value
    let vs ← Act.each Datum.value args
    let kw ← Datum.keywords keywords
    return (.value (← invokeValue f vs kw), envs)
  | .value d => do return (.value (← d.value), envs)
  | .create name spec => do
    let env ← spec.build
    return (.value .null, (name, env) :: envs)
  | .inspect d => do
    let v ← d.value
    return (.inspection (v.inspect (← Act.heap)), envs)
  | .setAttribute d name new => do
    let v ← d.value
    let _ ← new.value
    v.setAttribute name
    return (.value .null, envs)
  | .contains environment name => do
    let env ← Act.orMishap .noVariable (envs.lookup environment)
    let v ← name.value
    if v.isHashable then
      let reg ← Act.registry env.registry
      return (.value (.bool (v.text?.any reg.contains)), envs)
    else Act.mishap .type
  | .types environment => do
    let env ← Act.orMishap .noVariable (envs.lookup environment)
    return (.types (← env.types), envs)
  | .test environment expression values => do
    let env ← Act.orMishap .noVariable (envs.lookup environment)
    return (.truths (← env.test expression values), envs)

end Request

/-- Keeps the value of an answer in a variable. -/
def Answer.keep (target? : Option String) : Answer → Act Unit
  | .value v =>
    match target? with
    | some name => do
      let w ← Act.world
      Act.setWorld { w with bindings := (name, v) :: w.bindings }
    | none => pure ()
  | _ => pure ()

/-- Carries a step out and keeps its result. -/
def Step.carryOut (envs : Environments) (s : Step) : Act (Answer × Environments) := do
  let (answer, envs) ← s.request.carryOut envs
  answer.keep s.target?
  return (answer, envs)

namespace Session

/-- The results of steps, each on the world that the one before has left. -/
def run : Environments → World → List Step → List (Result Answer)
  | _, _, [] => []
  | envs, w, s :: steps =>
    let r := s.carryOut envs w
    let next := match r.outcome with
      | .ok (_, envs) => envs
      | .error _ => envs
    ⟨r.outcome.map (·.1), r.world, r.events⟩ :: run next r.world steps

/-- Makes the main environment of a session and carries its steps out; the records of making it are
not part of any step. -/
def start (spec : EnvironmentSpec) (steps : List Step) :
    Except (Stop × World) (List (Result Answer)) :=
  let r := spec.build .empty
  match r.outcome with
  | .ok env => .ok (run [(mainEnvironment, env)] r.world steps)
  | .error stop => .error (stop, r.world)

end Session

end CallContracts
