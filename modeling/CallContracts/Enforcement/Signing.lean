import CallContracts.Enforcement.Stage
import CallContracts.Registry.Membership

/-!
Signing callables and checking calls.

Signing reads a contract with the names of a registry and asks that the callable can take the
first stage. An enforced function checks the values of each call before the callable runs and its
result afterwards; a result of a curried contract is signed with the stages that are left.

Main definitions: `Signature.read`, `Signature.checkCount`, `Enforcer.sign`, `Enforcer.verify`,
`Enforcer.wrap` and `Enforcer.call`.
-/

namespace CallContracts

/-- A callable can take a stage if it has a place for each required type and none without one. -/
def Signature.checkCount (t : Tree) (declared : Nat) : Except SignatureFault Unit :=
  let stage := t.parameters?.getD []
  if stage.length < declared || declared < stage.required then
    .error ⟨.parameterCount declared stage.required stage.length, some t.text⟩
  else .ok ()

/-- Reads a value as a signature and notes that in the log. -/
def Signature.read (known : Option (String → Bool)) (v : Value) : Act Tree := do
  match v.text? with
  | some s =>
    let t ← Act.orSignatureFault (Tree.parse known s)
    Act.log (.parsed s t.size)
    return t
  | none => Act.throw (.signature ⟨.notText v.typeName, none⟩)

/-- A text that reads is noted in the log; one that does not ends with the fault of a signature. -/
theorem Signature.read_text {known : Option (String → Bool)} {text : String} {w : World} :
    read known (.text text) w =
      match Tree.parse known text with
      | .ok t => ⟨.ok t, w, [.record (.parsed text t.size)]⟩
      | .error e => ⟨.error (.fault (.signature e)), w, []⟩ := by
  cases hparse : Tree.parse known text <;>
    simp [read, Value.text?, hparse, Act.orSignatureFault, Act.throw, Act.log, Act.emit, bind,
      Act.bind, pure, Act.pure]

namespace Enforcer

/-! ### Signing -/

/-- Reads a contract with the names of a registry. -/
def readContract (r : RegistryId) (v : Value) : Act Tree := do
  Signature.read (some (← Act.registry r).contains) v

/-- Signs a callable with a contract that is read already. -/
def signWith (t : Tree) (raw : String) (v context : Value) (binds : Bool) : Act Signed := do
  match v with
  | .function f =>
    let s : Signed := .plain f t raw context binds
    Act.orSignatureFault (Signature.checkCount t (Value.function (.signed s)).parameterCount)
    return s
  | v => Act.refuse (.notCallable v.typeName)

/-- Signs a callable. -/
def sign (r : RegistryId) (signature v context : Value) : Act Signed := do
  let t ← readContract r signature
  signWith t (signature.text?.getD t.text) v context true

/-- A signed function whose calls are checked. -/
def wrap (r : RegistryId) : Value → Act Signed
  | .function (.signed s) => return .enforced s r
  | _ => Act.mishap .attribute

/-- Signs a callable and checks its calls. -/
def enforce (r : RegistryId) (signature v context : Value) : Act Signed := do
  return .enforced (← sign r signature v context) r

variable (invoke : Invoke)

/-! ### Checking calls -/

/-- Checks values against the first stage of a contract. -/
def verifyAgainst (r : RegistryId) (t : Tree) (values : List Value) : Act Verdict :=
  Stage.verify (Registry.accepts invoke r) (t.parameters?.getD []) values

/-- Checks the items of a value against the contract of a signed function. -/
def verify (r : RegistryId) (v values : Value) : Act Unit := do
  let h ← Act.heap
  match v with
  | .function (.signed s) =>
    let items ← Act.orMishap .type (values.items? h)
    let _ ← verifyAgainst invoke r s.tree items
    return ()
  | v => Act.throw (.signature ⟨.unsigned (v.describe h), none⟩)

/-- The values of a call in the order of the parameters that they fill. -/
def positionalValues (ps? : Option (List (Parameter Value))) (args : List Value)
    (kw : Call.Keywords Value) : Act (List Value) :=
  if kw.isEmpty then pure args
  else
    match ps? with
    | none => pure args
    | some ps => do
      let slots ← Act.orMishap .type (Call.bindPartial ps args kw)
      return Call.layout .absent ps slots

/-- Checks the values of a call; a rejection is noted in the log. -/
def checkValues (r : RegistryId) (target : Signed) (args : List Value)
    (kw : Call.Keywords Value) : Act Unit := do
  let values ← positionalValues target.parameters? args kw
  match ← Act.attempt (verifyAgainst invoke r target.tree values) with
  | .ok _ => return ()
  | .error f =>
    if f.isRejection then
      let name := (Value.function (.signed target)).describe (← Act.heap)
      Act.log (.rejectedArguments name (f.message?.getD ""))
    Act.throw f

/-- The name of the type of all callables. -/
def callableName : String := "function"

/-- The type that the result of a first call must have. -/
def resultType (remaining : Tree) : String :=
  if 1 < remaining.size then callableName
  else ((remaining.stages.head?.bind List.head?).map Descriptor.typeText).getD ""

/-- Checks the result of a call; the result of a curried contract is enforced in turn. -/
def checkResult (r : RegistryId) (target : Signed) (result : Value) : Act Value := do
  let remaining := target.tree.remaining
  let expected := resultType remaining
  if ← Registry.isMember invoke r expected result then
    if 1 < remaining.size then
      let s ← signWith remaining remaining.text result target.context false
      return .function (.signed (.enforced s r))
    else return result
  else
    let name := (Value.function (.signed target)).describe (← Act.heap)
    Act.log (.rejectedResult name expected)
    Act.throw (.returnType expected result)

/-- A call of an enforced function: values, callable, result. -/
def call (r : RegistryId) (target : Signed) (args : List Value)
    (kw : Call.Keywords Value) : Act Value := do
  checkValues invoke r target args kw
  let result ← invoke (.function (.signed target)) args kw
  checkResult invoke r target result

end Enforcer

end CallContracts
