import CallContracts.Value.Callable

/-!
Lists and dictionaries at their addresses, and what depends on their content.

Main definitions: `Heap`, reading (`list?`, `dict?`) and writing (`allocate`, `update`), and on
values of a heap `Value.truth`, `Value.eq`, `Value.isHashable` and `Value.repr`. Nested values are
followed to `nestingLimit` levels.
-/

namespace CallContracts

/-- What stands at an address. -/
inductive Cell where
  | list (items : List Value)
  | dict (entries : List (Value × Value))

/-- The cells, by address. -/
abbrev Heap := List Cell

/-- The depth to which nested values are followed. -/
def nestingLimit : Nat := 1000

namespace Heap

/-- The items of the list at an address. -/
def list? (h : Heap) (a : Address) : Option (List Value) :=
  match h[a]? with
  | some (.list items) => some items
  | _ => none

/-- The entries of the dictionary at an address. -/
def dict? (h : Heap) (a : Address) : Option (List (Value × Value)) :=
  match h[a]? with
  | some (.dict entries) => some entries
  | _ => none

/-- A new cell, and its address. -/
def allocate (h : Heap) (c : Cell) : Heap × Address := (h ++ [c], h.length)

/-- Changes the cell at an address. -/
def update (h : Heap) (a : Address) (c : Cell) : Heap := h.set a c

end Heap

/-! ### Truth -/

/-- A value is false when it is a false scalar or has no items. -/
def Value.truth (h : Heap) : Value → Bool
  | .scalar s => s.truth
  | .tuple items | .set items => !items.isEmpty
  | .list a => (h.list? a).any (!·.isEmpty)
  | .dict a => (h.dict? a).any (!·.isEmpty)
  | .tree t => !t.stages.isEmpty
  | _ => true

/-! ### Equality -/

/-- Whether two functions are one and the same. -/
def Function.same : Function → Function → Bool
  | .closure c, .closure d => c.serial == d.serial
  | .method _ c, .method _ d => c.serial == d.serial
  | .kind m _ _, .kind n _ _ => m == n
  | .intrinsic a, .intrinsic b => a == b
  | .predicate p, .predicate q => p == q
  | .operation r op, .operation s op' => r == s && op == op'
  | _, _ => false

/-- Equality of values: containers by content, objects and functions by identity. -/
def Value.eqWithin (h : Heap) : Nat → Value → Value → Bool
  | 0, _, _ => false
  | n + 1, a, b =>
    let all (xs ys : List Value) : Bool :=
      xs.length == ys.length && (xs.zip ys).all fun (x, y) => eqWithin h n x y
    match a, b with
    | .scalar s, .scalar t => s.eq t
    | .tuple xs, .tuple ys => all xs ys
    | .set xs, .set ys => xs.length == ys.length && xs.all fun x => ys.any (eqWithin h n x)
    | .list x, .list y => x == y || all ((h.list? x).getD []) ((h.list? y).getD [])
    | .dict x, .dict y =>
      let xs := (h.dict? x).getD []
      let ys := (h.dict? y).getD []
      x == y || xs.length == ys.length && xs.all fun (k, v) =>
        (ys.find? fun e => eqWithin h n k e.1).any fun e => eqWithin h n v e.2
    | .object m _ _, .object k _ _ => m == k
    | .descriptor d, .descriptor e => d == e
    | .tree t, .tree u => t == u
    | .entry e, .entry f =>
      e.name == f.name && e.chain == f.chain && e.arity == f.arity &&
        eqWithin h n e.predicate f.predicate
    | .function f, .function g => f.same g
    | _, _ => false

/-- Equality of values. -/
def Value.eq (h : Heap) (a b : Value) : Bool := eqWithin h nestingLimit a b

/-- Whether a value can be a key: it must hold nothing that may change. -/
def Value.isHashableWithin : Nat → Value → Bool
  | 0, _ => false
  | n + 1, v =>
    match v with
    | .set _ | .list _ | .dict _ => false
    | .tuple items => items.all (isHashableWithin n)
    | _ => true

/-- Whether a value can be a key. -/
def Value.isHashable (v : Value) : Bool := isHashableWithin nestingLimit v

namespace Heap

/-- The value under a key. -/
def lookup (h : Heap) (entries : List (Value × Value)) (k : Value) : Option Value :=
  (entries.find? fun e => e.1.eq h k).map (·.2)

/-- The entries with a value under a key: an old key keeps its place, a new one comes last. -/
def insert (h : Heap) (entries : List (Value × Value)) (k v : Value) : List (Value × Value) :=
  if entries.any fun e => e.1.eq h k then
    entries.map fun e => if e.1.eq h k then (e.1, v) else e
  else entries ++ [(k, v)]

end Heap

/-! ### Texts -/

/-- The text of a descriptor in parts. -/
def Descriptor.repr (d : Descriptor) : String :=
  let label := match d.label? with
    | some s => Text.quoted s
    | none => "None"
  let arguments := match d.arguments? with
    | some [t] => "(" ++ Text.quoted t ++ ",)"
    | some ts => "(" ++ ", ".intercalate (ts.map Text.quoted) ++ ")"
    | none => "None"
  s!"TypeDescriptor(name={Text.quoted d.name}, sub_type={label}, value_type={arguments}, " ++
    s!"optional={(Scalar.bool d.optional).repr})"

/-- Items between parentheses; a single one is followed by a comma. -/
def tupleText : List String → String
  | [s] => "(" ++ s ++ ",)"
  | ss => "(" ++ ", ".intercalate ss ++ ")"

/-- The text of a tree in parts. -/
def Tree.repr (t : Tree) : String :=
  "SignatureTree(stages=" ++
    tupleText (t.stages.map fun s => tupleText (s.map Descriptor.repr)) ++ ")"

/-- The text of a function; a signed one shows what was signed. -/
def Function.repr (f : Function) : String :=
  match f.root with
  | .closure c => match c.form with
    | .function => s!"<function {c.name}>"
    | .object => s!"<callobj {c.name}>"
  | .kind _ name _ => s!"<class '{name}'>"
  | g => s!"<function {g.name?.getD g.typeName}>"

/-- The text of a value inside a message that quotes it. -/
def Value.reprWithin (h : Heap) : Nat → Value → String
  | 0, _ => "..."
  | n + 1, v =>
    match v with
    | .scalar s => s.repr
    | .tuple items => tupleText (items.map (reprWithin h n))
    | .set [] => "set()"
    | .set items => "\x7b" ++ ", ".intercalate (items.map (reprWithin h n)) ++ "\x7d"
    | .list a => "[" ++ ", ".intercalate (((h.list? a).getD []).map (reprWithin h n)) ++ "]"
    | .dict a =>
      let entry (e : Value × Value) : String := reprWithin h n e.1 ++ ": " ++ reprWithin h n e.2
      "\x7b" ++ ", ".intercalate (((h.dict? a).getD []).map entry) ++ "\x7d"
    | .object _ label _ => s!"<{label}>"
    | .descriptor d => d.repr
    | .tree t => t.repr
    | .entry e => s!"<type {e.name}>"
    | .function f => f.repr

/-- The text of a value inside a message that quotes it. -/
def Value.repr (h : Heap) (v : Value) : String := reprWithin h nestingLimit v

/-- The text of a value that stands bare in a message. -/
def Value.bare (h : Heap) : Value → String
  | .scalar s => s.bare
  | .tree t => t.text
  | v => v.repr h

/-- What messages call a value: its name, if it has one, or its text. -/
def Value.describe (h : Heap) (v : Value) : String := v.name?.getD (v.repr h)

end CallContracts
