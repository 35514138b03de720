import CallContracts.Script.Mishap
import CallContracts.Value.Heap
import CallContracts.Value.Numeric

/-!
Literals and their values.

A literal is a constant, a number with a sign, the sum or the difference of a real number and an
imaginary one, a tuple, a list, a set or a dictionary of literals, or the empty set `set()`. They
are evaluated in the order in which they are written, and a set or a dictionary takes each member as
soon as it is there, so the first part that fails decides.

Main definitions: `Literal`, an expression of such parts, its depth `Literal.depth`, and its value
`Literal.evaluate`.
-/

namespace CallContracts

/-- An expression of the parts that literals have; not every one is a literal. -/
inductive Literal where
  | constant (s : Scalar)
  | name (text : String)
  /-- A call without arguments. -/
  | call (f : Literal)
  | signed (negative : Bool) (operand : Literal)
  /-- A sum, or a difference. -/
  | sum (negative : Bool) (left right : Literal)
  | tuple (items : List Literal)
  | list (items : List Literal)
  | set (items : List Literal)
  | dict (entries : List (Literal × Literal))

namespace Literal

/-! ### Depth -/

mutual

/-- How deeply an expression nests. -/
def depth : Literal → Nat
  | .constant _ | .name _ => 1
  | .call e | .signed _ e => depth e + 1
  | .sum _ a b => max (depth a) (depth b) + 1
  | .tuple items | .list items | .set items => depthAll items + 1
  | .dict entries => depthEntries entries + 1

/-- How deeply the deepest of several expressions nests. -/
def depthAll : List Literal → Nat
  | [] => 0
  | e :: es => max (depth e) (depthAll es)

/-- How deeply the deepest key or value of several entries nests. -/
def depthEntries : List (Literal × Literal) → Nat
  | [] => 0
  | (k, e) :: es => max (max (depth k) (depth e)) (depthEntries es)

end

/-! ### Numbers -/

/-- The number that an expression writes without a sign; truth values are none. -/
def number? : Literal → Option Numeric
  | .constant (.int n) => some (.int n)
  | .constant (.float x) => some (.float x)
  | .constant (.complex re im) => some (.complex re im)
  | _ => none

/-- The number of opposite sign. -/
def negate : Numeric → Numeric
  | .int n => .int (-n)
  | .float x => .float x.neg
  | .complex re im => .complex re.neg im.neg
  | x => x

/-- A number, or the one of opposite sign. -/
def withSign (negative : Bool) (x : Numeric) : Numeric := if negative then negate x else x

/-- The number that an expression writes, perhaps with one sign. -/
def signedNumber? : Literal → Option Numeric
  | .signed negative e => e.number?.map (withSign negative)
  | e => e.number?

/-- The sum or the difference of a real number, perhaps with a sign, and an imaginary one. -/
def addition (negative : Bool) (left right : Literal) : Except Mishap Numeric :=
  match left.signedNumber?, right.number? with
  | some (.complex ..), _ => .error .value
  | some x, some (.complex re im) => x.add (withSign negative (.complex re im))
  | _, _ => .error .value

/-! ### Values -/

/-- An evaluation, which may add to a heap. -/
abbrev Evaluation := StateT Heap (Except Mishap)

/-- A member of a set or a key of a dictionary must be hashable. -/
def requireKey (v : Value) : Evaluation Unit := if v.isHashable then pure () else throw .type

/-- The members of a set with one more, unless it is there already. -/
def addMember (h : Heap) (members : List Value) (v : Value) : List Value :=
  if members.any (v.eq h ·) then members else members ++ [v]

/-- A new cell. -/
def allocate (c : Cell) : Evaluation Address := modifyGet fun h => (h.allocate c).swap

mutual

/-- The value of a literal; an expression that is none has no value that makes sense. -/
def evaluate : Literal → Evaluation Value
  | .constant s => pure (.scalar s)
  | .name _ => throw .value
  | .call e => match e with
    | .name text => if text = "set" then pure (.set []) else throw .value
    | _ => throw .value
  | .signed negative e => match e.number? with
    | some x => pure (.scalar (withSign negative x).toScalar)
    | none => throw .value
  | .sum negative left right => do
    let x ← addition negative left right
    return .scalar x.toScalar
  | .tuple items => do return .tuple (← evaluateAll items)
  | .list items => do return .list (← allocate (.list (← evaluateAll items)))
  | .set items => do return .set (← evaluateMembers [] items)
  | .dict entries => do return .dict (← allocate (.dict (← evaluateEntries [] entries)))

/-- The values of several literals. -/
def evaluateAll : List Literal → Evaluation (List Value)
  | [] => pure []
  | e :: es => do
    let v ← evaluate e
    let vs ← evaluateAll es
    return v :: vs

/-- The members of a set, some of which are there already. -/
def evaluateMembers (members : List Value) : List Literal → Evaluation (List Value)
  | [] => pure members
  | e :: es => do
    let v ← evaluate e
    requireKey v
    evaluateMembers (addMember (← get) members v) es

/-- The entries of a dictionary, some of which are there already. -/
def evaluateEntries (entries : List (Value × Value)) :
    List (Literal × Literal) → Evaluation (List (Value × Value))
  | [] => pure entries
  | (k, e) :: es => do
    let key ← evaluate k
    let v ← evaluate e
    requireKey key
    evaluateEntries ((← get).insert entries key v) es

end

end Literal

end CallContracts
