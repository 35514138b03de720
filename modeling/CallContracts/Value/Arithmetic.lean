import CallContracts.Value.Numeric
import CallContracts.World.Act

/-!
Sums, products and remainders of values.

Numbers are added and multiplied, texts and sequences can be joined and repeated, and the remainder
of a text fills it in.

Main definitions: `Value.add`, `Value.mul` and `Value.mod`.
-/

namespace CallContracts

/-! ### Sequences -/

/-- A list so many times over; a negative number counts as none. -/
def repeatList {α : Type} (n : Int) (items : List α) : List α :=
  (List.replicate n.toNat items).flatten

/-- The characters that have the numbers of bytes. -/
def charsOfBytes (bs : List UInt8) : List Char := bs.map fun b => Char.ofNat b.toNat

/-- What a text format puts in the place of a mark. -/
def shownInText (h : Heap) (mark : Char) (v : Value) : Except Mishap (List Char) :=
  if mark = 's' then .ok (v.bare h).toList
  else if mark = 'r' then .ok (v.repr h).toList
  else .error .value

/-- What a format of bytes puts in the place of a mark. -/
def shownInBytes (mark : Char) (v : Value) : Except Mishap (List Char) :=
  if mark = 's' || mark = 'b' then
    match v with
    | .scalar (.bytes bs) => .ok (charsOfBytes bs)
    | _ => .error .type
  else .error .value

/-- What a format puts in the place of a mark: a number without its fraction, or what its kind
shows. -/
def formatItem (shown : Char → Value → Except Mishap (List Char)) (mark : Char) (v : Value) :
    Except Mishap (List Char) :=
  if mark = 'd' || mark = 'i' then
    match v with
    | .scalar s => match s.number? with
      | some x => do return (toString (← x.toWhole)).toList
      | none => .error .type
    | _ => .error .type
  else shown mark v

/-- A format with its marks filled in, and the items that no mark took. -/
def formatFrom (shown : Char → Value → Except Mishap (List Char)) :
    List Char → List Value → Except Mishap (List Char × List Value)
  | [], items => .ok ([], items)
  | ['%'], _ => .error .value
  | '%' :: '%' :: cs, items => do
    let (text, left) ← formatFrom shown cs items
    return ('%' :: text, left)
  | '%' :: mark :: cs, items =>
    match items with
    | [] => .error .type
    | v :: vs => do
      let item ← formatItem shown mark v
      let (text, left) ← formatFrom shown cs vs
      return (item ++ text, left)
  | c :: cs, items => do
    let (text, left) ← formatFrom shown cs items
    return (c :: text, left)

namespace Value

/-- Values whose items are found by a key; a format may leave one of them unused. -/
def isKeyed : Value → Bool
  | .list _ | .dict _ | .tree _ => true
  | _ => false

/-- The bytes that a value is. -/
def isBytes : Value → Bool
  | .scalar (.bytes _) => true
  | _ => false

/-- The number that a value counts as. -/
def number? : Value → Option Numeric
  | .scalar s => s.number?
  | _ => none

/-- The whole number that a value counts as. -/
def whole? : Value → Option Int
  | .scalar s => s.whole?
  | _ => none

/-- An operation on the numbers that two values count as. -/
def onNumbers (op : Numeric → Numeric → Except Mishap Numeric) (a b : Value) :
    Except Mishap Value :=
  match a.number?, b.number? with
  | some x, some y => (fun z => .scalar z.toScalar) <$> op x y
  | _, _ => .error .type

/-- A result, or the mishap that it failed with. -/
def orMishap {α : Type} : Except Mishap α → Act α
  | .ok a => pure a
  | .error m => Act.mishap m

/-- The sum of two numbers, or two sequences one after the other. -/
def add (a b : Value) : Act Value := do
  match a, b with
  | .scalar (.text s), .scalar (.text t) => return .text (s ++ t)
  | .scalar (.bytes s), .scalar (.bytes t) => return .scalar (.bytes (s ++ t))
  | .tuple xs, .tuple ys => return .tuple (xs ++ ys)
  | .list x, .list y =>
    let h ← Act.heap
    Act.newList ((h.list? x).getD [] ++ (h.list? y).getD [])
  | a, b => orMishap (onNumbers Numeric.add a b)

/-- The greatest number of items that a sequence may have, rounded up. -/
def sizeLimit : Nat := 0x8000000000000000

/-- Values that can be repeated. -/
def isSequence : Value → Bool
  | .scalar (.text _) | .scalar (.bytes _) | .tuple _ | .list _ => true
  | _ => false

/-- A sequence so many times over. -/
def timesOver (n : Int) : Value → Act Value
  | .scalar (.text s) => return .text (String.ofList (repeatList n s.toList))
  | .scalar (.bytes bs) => return .scalar (.bytes (repeatList n bs))
  | .tuple items => return .tuple (repeatList n items)
  | .list a => do
    let h ← Act.heap
    Act.newList (repeatList n ((h.list? a).getD []))
  | _ => Act.mishap .type

/-- The product of two numbers, or a sequence so many times over. -/
def mul (a b : Value) : Act Value :=
  match a.number?, b.number? with
  | some _, some _ => orMishap (onNumbers Numeric.mul a b)
  | some _, none => repeated a b
  | none, some _ => repeated b a
  | none, none => Act.mishap .type
where
  /-- A sequence as many times over as a number says. -/
  repeated (number v : Value) : Act Value :=
    match number.whole? with
    | some n =>
      if !v.isSequence then Act.mishap .type
      else if n < -sizeLimit || sizeLimit ≤ n then Act.mishap .overflow
      else timesOver n v
    | none => Act.mishap .type

/-- A format with its marks filled in; all items must be used, unless they are found by key. -/
def format (shown : Char → Value → Except Mishap (List Char)) (keyed : Bool) (cs : List Char)
    (v : Value) : Except Mishap (List Char) := do
  let items := match v with
    | .tuple items => items
    | v => [v]
  let (text, left) ← formatFrom shown cs items
  if left.isEmpty || keyed then return text else throw .type

/-- The remainder of two numbers, or a format with its marks filled in. -/
def mod (a b : Value) : Act Value := do
  match a with
  | .scalar (.text s) =>
    let text ← orMishap (format (shownInText (← Act.heap)) (b.isKeyed || b.isBytes) s.toList b)
    return .text (String.ofList text)
  | .scalar (.bytes bs) =>
    let text ← orMishap (format shownInBytes b.isKeyed (charsOfBytes bs) b)
    return .scalar (.bytes (text.map fun c => UInt8.ofNat c.toNat))
  | a => orMishap (onNumbers Numeric.mod a b)

end Value

end CallContracts
