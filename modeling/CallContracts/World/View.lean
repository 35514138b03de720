import CallContracts.Value.Heap

/-!
Views: what an outsider sees of a value.

A view has no addresses and no functions: a callable shows its type and its name, a signed one its
type and its contract. Main definitions: `View` and `Value.view`.
-/

namespace CallContracts

/-- What an outsider sees of a value. -/
inductive View where
  | scalar (s : Scalar)
  | list (items : List View)
  | tuple (items : List View)
  | set (items : List View)
  | dict (entries : List (View × View))
  | object (label : String)
  | descriptor (d : Descriptor)
  | tree (t : Tree)
  | entry (name chain : String) (arity : Nat)
  | callable (typeName : String) (name? : Option String)
  | signed (typeName signature : String)

namespace Value

/-- The view of a value, nested values to a depth. -/
def viewWithin (h : Heap) : Nat → Value → View
  | 0, _ => .scalar .ellipsis
  | n + 1, v =>
    match v with
    | .scalar s => .scalar s
    | .list a => .list (((h.list? a).getD []).map (viewWithin h n))
    | .tuple items => .tuple (items.map (viewWithin h n))
    | .set items => .set (items.map (viewWithin h n))
    | .dict a =>
      .dict (((h.dict? a).getD []).map fun e => (viewWithin h n e.1, viewWithin h n e.2))
    | .object _ label _ => .object label
    | .descriptor d => .descriptor d
    | .tree t => .tree t
    | .entry e => .entry e.name e.chain e.arity
    | .function (.signed s) => .signed (Function.signed s).typeName s.signature
    | .function f => .callable f.typeName f.name?

/-- The view of a value. -/
def view (h : Heap) (v : Value) : View := viewWithin h nestingLimit v

end Value

end CallContracts
