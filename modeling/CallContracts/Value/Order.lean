import CallContracts.Value.Arithmetic

/-!
Order of values, and what can be counted and looked up in them.

Numbers are compared by their exact values, texts by the numbers of their characters, sequences by
their first difference, sets by inclusion; other values have no order.

Main definitions: `Value.precedes`, `Value.length?`, `Value.items?`, `Value.item`, `Value.store`
and `Value.attribute?`.
-/

namespace CallContracts

/-! ### Order -/

/-- Order on the real line, strict or not. -/
def Magnitude.precedes (strict : Bool) (a b : Magnitude) : Bool :=
  if strict then a.lt b else a.le b

/-- Order of lists by a strict order of their items: at the first difference, or by length. -/
def listPrecedes {α : Type} (lt : α → α → Bool) (strict : Bool) : List α → List α → Bool
  | [], [] => !strict
  | [], _ :: _ => true
  | _ :: _, [] => false
  | a :: as, b :: bs =>
    if lt a b then true else if lt b a then false else listPrecedes lt strict as bs

/-- Whether a number is a decimal. -/
def Numeric.isDecimal : Numeric → Bool
  | .decimal _ => true
  | _ => false

/-- Order of numbers; an undefined decimal has none, nor has a complex number. -/
def Numeric.precedes (strict : Bool) (a b : Numeric) : Except Mishap Bool :=
  match a.magnitude?, b.magnitude? with
  | some x, some y =>
    if (a.isDecimal || b.isDecimal) && (x == .undefined || y == .undefined) then
      .error .invalidDecimal
    else .ok (x.precedes strict y)
  | _, _ => .error .type

namespace Value

/-- Order of values, strict or not; nested values to a depth. -/
def precedesWithin (h : Heap) : Nat → (strict : Bool) → Value → Value → Except Mishap Bool
  | 0, _, _, _ => .error .type
  | n + 1, strict, a, b =>
    let rec sequences : List Value → List Value → Except Mishap Bool
      | [], [] => .ok !strict
      | [], _ :: _ => .ok true
      | _ :: _, [] => .ok false
      | x :: xs, y :: ys =>
        if x.eq h y then sequences xs ys else precedesWithin h n strict x y
    match a, b with
    | .scalar (.text s), .scalar (.text t) =>
      .ok (listPrecedes (fun x y => decide (x < y)) strict s.toList t.toList)
    | .scalar (.bytes s), .scalar (.bytes t) =>
      .ok (listPrecedes (fun x y => decide (x < y)) strict s t)
    | .tuple xs, .tuple ys => sequences xs ys
    | .list x, .list y => sequences ((h.list? x).getD []) ((h.list? y).getD [])
    | .set xs, .set ys =>
      .ok ((xs.all fun x => ys.any (x.eq h)) && (!strict || xs.length < ys.length))
    | a, b =>
      match a.number?, b.number? with
      | some x, some y => x.precedes strict y
      | _, _ => .error .type

/-- Order of values, strict or not. -/
def precedes (h : Heap) (strict : Bool) (a b : Value) : Except Mishap Bool :=
  precedesWithin h nestingLimit strict a b

/-! ### Items -/

/-- The items that a value gives in turn. -/
def items? (h : Heap) : Value → Option (List Value)
  | .scalar (.text s) => some (s.toList.map fun c => .text c.toString)
  | .scalar (.bytes bs) => some (bs.map fun b => .int b.toNat)
  | .tuple items | .set items => some items
  | .list a => h.list? a
  | .dict a => (h.dict? a).map fun es => es.map (·.1)
  | .tree t => some (t.stages.map fun s => .tuple (s.map .descriptor))
  | _ => none

/-- The number of a value's items. -/
def length? (h : Heap) (v : Value) : Option Nat := (v.items? h).map List.length

/-- The item at a place; negative places count from the end. -/
def at? {α : Type} (items : List α) (i : Int) : Option α :=
  let i := if i < 0 then i + items.length else i
  if i < 0 then none else items[i.toNat]?

/-- The item at a place or under a key. -/
def item (h : Heap) (v k : Value) : Except Mishap Value :=
  match v with
  | .dict a =>
    if k.isHashable then
      match h.lookup ((h.dict? a).getD []) k with
      | some v => .ok v
      | none => .error .key
    else .error .type
  | .set _ => .error .type
  | v =>
    match v.items? h, k.whole? with
    | some items, some i =>
      match at? items i with
      | some v => .ok v
      | none => .error .index
    | _, _ => .error .type

/-- Stores a value at a place of a list or under a key of a dictionary. -/
def store (v k new : Value) : Act Unit := do
  let w ← Act.world
  match v with
  | .dict a =>
    if k.isHashable then
      let es := w.heap.insert ((w.heap.dict? a).getD []) k new
      Act.setWorld { w with heap := w.heap.update a (.dict es) }
    else Act.mishap .type
  | .list a =>
    let items := (w.heap.list? a).getD []
    match k.whole? with
    | none => Act.mishap .type
    | some i =>
      let i := if i < 0 then i + items.length else i
      if i < 0 || items.length ≤ i then Act.mishap .index
      else Act.setWorld { w with heap := w.heap.update a (.list (items.set i.toNat new)) }
  | _ => Act.mishap .type

/-! ### Attributes -/

/-- A text, or nothing. -/
def ofText? : Option String → Value
  | some s => .text s
  | none => .null

/-- An attribute of a type reference. -/
def descriptorAttribute? (d : Descriptor) (name : String) : Option Value :=
  if name = "name" then some (.text d.name)
  else if name = "sub_type" then some (ofText? d.label?)
  else if name = "value_type" then
    some (match d.arguments? with
      | some ts => .tuple (ts.map .text)
      | none => .null)
  else if name = "optional" then some (.bool d.optional)
  else if name = "type_string" then some (.text d.typeText)
  else none

/-- An attribute of a function. -/
def functionAttribute? (f : Function) (name : String) : Option Value :=
  match f with
  | .signed s =>
    if name = "signature" then some (.text s.signature)
    else if name = "raw_signature" then some (.text s.raw)
    else if name = "signature_tree" then some (.tree s.tree)
    else if name = "execution_context" then some s.context
    else if name = "original" then some (.function s.callable)
    else named
  | _ => named
where
  /-- The names that a function goes by. -/
  named : Option Value :=
    if name = "__qualname__" then f.name?.map .text
    else if name = "__name__" then f.shortName?.map .text
    else none

/-- An attribute of a value. -/
def attribute? (v : Value) (name : String) : Option Value :=
  match v with
  | .descriptor d => descriptorAttribute? d name
  | .tree t =>
    if name = "stages" then some (.tuple (t.stages.map fun s => .tuple (s.map .descriptor)))
    else if name = "is_curried" then some (.bool t.isCurried)
    else if name = "parameters" then
      t.parameters?.map fun s => .tuple (s.map .descriptor)
    else none
  | .entry e =>
    if name = "name" then some (.text e.name)
    else if name = "predicate" then some e.predicate
    else if name = "type_chain" then some (.text e.chain)
    else if name = "arity" then some (.int e.arity)
    else none
  | .scalar (.colour c) =>
    if name = "name" then some (.text (if c = .red then "RED" else "GREEN"))
    else if name = "value" then some (.int (if c = .red then 1 else 2))
    else none
  | .scalar (.level l) =>
    if name = "name" then some (.text (if l = .low then "LOW" else "HIGH"))
    else if name = "value" then some (.int l.rank)
    else none
  | .function f => functionAttribute? f name
  | _ => none

end Value

end CallContracts
