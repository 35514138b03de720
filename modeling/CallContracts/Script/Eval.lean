import CallContracts.Call.Binding
import CallContracts.Value.Order

/-!
Evaluating written values and function bodies.

Evaluation calls functions through an `Invoke`, so its recursion follows the expression alone.
Main definitions: `Datum.make`, `Expr.eval` and `Closure.run`.
-/

namespace CallContracts

/-- How a callable value is called. -/
abbrev Invoke := Value → List Value → Call.Keywords Value → Act Value

/-- The variables that a body can use, the nearest first. -/
abbrev Scope := List (String × Value)

/-! ### Operators -/

/-- The value of an operator at two values. -/
def Operator.apply (op : Operator) (a b : Value) : Act Value := do
  match op with
  | .add => a.add b
  | .mul => a.mul b
  | .mod => a.mod b
  | .lt => return .bool (← Value.orMishap (a.precedes (← Act.heap) true b))
  | .le => return .bool (← Value.orMishap (a.precedes (← Act.heap) false b))
  | .eq => return .bool (a.eq (← Act.heap) b)
  | .item => Value.orMishap (a.item (← Act.heap) b)

/-! ### Written values and bodies -/

/-- A set or a dictionary has hashable members only. -/
def requireHashable (vs : List Value) : Act Unit :=
  if vs.all Value.isHashable then pure () else Act.mishap .type

variable (invoke : Invoke)

mutual

/-- Makes a value as it is written down. -/
def Datum.make : Datum → Act Value
  | .scalar s => pure (.scalar s)
  | .list items => do Act.newList (← Datum.makeAll items)
  | .tuple items => do return .tuple (← Datum.makeAll items)
  | .set items => do
    let vs ← Datum.makeAll items
    requireHashable vs
    return .set vs
  | .dict entries => do
    let es ← Datum.makeEntries entries
    requireHashable (es.map (·.1))
    Act.newDict es
  | .object label => do return .object (← Act.fresh) label none
  | .descriptor name label arguments optional =>
    match Descriptor.ofParts? name label arguments optional with
    | some d => pure (.descriptor d)
    | none => Act.refuse .labelAndArguments
  | .function form spec => do return .function (.closure (← FunctionSpec.close form [] spec))
  | .method receiver spec => do
    let self ← receiver.make
    return .function (.method self (← FunctionSpec.close .function [] spec))
  | .kind name parameters => do
    let ps ← Expr.defaults [] parameters
    return .function (.kind (← Act.fresh) name ps)
  | .intrinsic b => pure (.function (.intrinsic b))
  | .variable name => do
    Act.orMishap .noVariable ((← Act.world).bindings.lookup name)

/-- Makes written values in turn. -/
def Datum.makeAll : List Datum → Act (List Value)
  | [] => pure []
  | d :: ds => do
    let v ← d.make
    let vs ← Datum.makeAll ds
    return v :: vs

/-- Makes written keys and values in turn. -/
def Datum.makeEntries : List (Datum × Datum) → Act (List (Value × Value))
  | [] => pure []
  | (d, e) :: es => do
    let k ← d.make
    let v ← e.make
    let rest ← Datum.makeEntries es
    return (k, v) :: rest

/-- Makes a function that can use the variables around it; its defaults are evaluated now. -/
def FunctionSpec.close (form : FunctionForm) (scope : Scope) : FunctionSpec → Act Closure
  | ⟨name, parameters, body⟩ => do
    let ps ← Expr.defaults scope parameters
    return ⟨← Act.fresh, form, name, ps, body, scope⟩

/-- Evaluates the defaults of parameters. -/
def Expr.defaults (scope : Scope) : List (Parameter Expr) → Act (List (Parameter Value))
  | [] => pure []
  | ⟨name, kind, none⟩ :: ps => do
    let rest ← Expr.defaults scope ps
    return ⟨name, kind, none⟩ :: rest
  | ⟨name, kind, some e⟩ :: ps => do
    let v ← e.eval scope
    let rest ← Expr.defaults scope ps
    return ⟨name, kind, some v⟩ :: rest

/-- Evaluates a body. -/
def Expr.eval (scope : Scope) : Expr → Act Value
  | .literal d => d.make
  | .variable name => Act.orMishap .unboundName (scope.lookup name)
  | .closure spec => do return .function (.closure (← FunctionSpec.close .function scope spec))
  | .branch condition yes no => do
    let c ← condition.eval scope
    if c.truth (← Act.heap) then yes.eval scope else no.eval scope
  | .raise m => Act.mishap m
  | .attribute e name => do
    let v ← e.eval scope
    Act.orMishap .attribute (v.attribute? name)
  | .list items => do Act.newList (← Expr.evalAll scope items)
  | .trace noted result => do
    let v ← noted.eval scope
    let r ← result.eval scope
    Act.emit (.traced (v.view (← Act.heap)))
    return r
  | .call f arguments => do
    let g ← f.eval scope
    let vs ← Expr.evalAll scope arguments
    invoke g vs []
  | .store container key value => do
    let c ← container.eval scope
    let k ← key.eval scope
    let v ← value.eval scope
    c.store k v
    return v
  | .typeName e => do return .text (← e.eval scope).typeName
  | .not e => do return .bool !((← e.eval scope).truth (← Act.heap))
  | .length e => do
    let v ← e.eval scope
    let n ← Act.orMishap .type (v.length? (← Act.heap))
    return .int n
  | .binary op a b => do
    let x ← a.eval scope
    let y ← b.eval scope
    op.apply x y

/-- Evaluates bodies in turn. -/
def Expr.evalAll (scope : Scope) : List Expr → Act (List Value)
  | [] => pure []
  | e :: es => do
    let v ← e.eval scope
    let vs ← Expr.evalAll scope es
    return v :: vs

end

/-! ### Calls -/

/-- The value that a call gives to one parameter. -/
def Slot.value (default? : Option Value) : Slot Value → Act Value
  | .given v => pure v
  | .omitted => Act.orMishap .type default?
  | .rest vs => pure (.tuple vs)
  | .named kvs => Act.newDict (kvs.map fun kv => (.text kv.1, kv.2))

/-- The values that a call gives to the parameters, in their order. -/
def Call.values (ps : List (Parameter Value)) (args : List Value)
    (kw : Call.Keywords Value) : Act (List Value) := do
  let slots ← Act.orMishap .type (Call.bind ps args kw)
  Act.each (fun (p, s) => Slot.value p.default? s) (ps.zip slots)

/-- Calls a function that a program made. -/
def Closure.run (c : Closure) (args : List Value) (kw : Call.Keywords Value) : Act Value := do
  let vs ← Call.values c.parameters args kw
  c.body.eval invoke ((c.parameters.map (·.name)).zip vs ++ c.scope)

end CallContracts
