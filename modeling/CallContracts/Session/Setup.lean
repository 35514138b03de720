import CallContracts.Document.Content

/-!
Setups: which types an environment starts with.

A setup is read from a mapping, which may also be given as a sequence of pairs, or from a
document. Main definitions: `Setup`, `Setup.ofValue`, `Setup.load` and `Setup.view`.
-/

namespace CallContracts

/-- Which types an environment starts with besides the base types. -/
structure Setup where
  extendedTypes : Bool := true
  /-- Names for type expressions, in the order of their registration. -/
  aliases : List (String × String) := []
  deriving Repr, DecidableEq

namespace Setup

/-- The key of the switch for the extended types. -/
def extendedKey : String := "extended_types"

/-- The key of the aliases. -/
def aliasesKey : String := "aliases"

/-- The key and the value of a pair. -/
def pairOf (h : Heap) (v : Value) : Except Mishap (Value × Value) :=
  match v.items? h with
  | none => .error .type
  | some [k, v] => if k.isHashable then .ok (k, v) else .error .type
  | some _ => .error .value

/-- Pairs gathered into a mapping; a later pair replaces the value of an equal key. -/
def gather (h : Heap) : List (Value × Value) → List Value → Except Mishap (List (Value × Value))
  | es, [] => .ok es
  | es, v :: vs => do
    let (k, x) ← pairOf h v
    gather h (h.insert es k x) vs

/-- The entries of a mapping, or of a sequence of pairs; a false value has none. -/
def entriesOf (h : Heap) (v : Value) : Except Mishap (List (Value × Value)) :=
  if !v.truth h then .ok []
  else
    match v with
    | .dict a => .ok ((h.dict? a).getD [])
    | v =>
      match v.items? h with
      | none => .error .type
      | some vs => gather h [] vs

/-- The switch for the extended types; it is on if nothing is said. -/
def readExtended (h : Heap) (entries : List (Value × Value)) : Except Refusal Bool :=
  match h.lookup entries (.text extendedKey) with
  | none => .ok true
  | some (.scalar (.bool b)) => .ok b
  | some _ => .error .extendedNotBoolean

/-- One alias. -/
def readAlias (h : Heap) (e : Value × Value) : Except Refusal (String × String) :=
  match e.1.text?, e.2.text? with
  | some name, some expression => .ok (name, expression)
  | _, _ => .error (.badAlias (e.1.repr h))

/-- The aliases; a false value has none. -/
def readAliases (h : Heap) (entries : List (Value × Value)) :
    Except Refusal (List (String × String)) :=
  let v := (h.lookup entries (.text aliasesKey)).getD .null
  if !v.truth h then .ok []
  else
    match v with
    | .dict a => ((h.dict? a).getD []).mapM (readAlias h)
    | _ => .error .aliasesNotMapping

/-- A result, or the refusal that stands in its place. -/
def orRefuse {α : Type} : Except Refusal α → Act α
  | .ok a => pure a
  | .error r => Act.refuse r

/-- Reads a setup from a mapping; keys of no meaning are passed over. -/
def ofValue (v : Value) : Act Setup := do
  let h ← Act.heap
  match entriesOf h v with
  | .error m => Act.mishap m
  | .ok entries =>
    let extended ← orRefuse (readExtended h entries)
    let aliases ← orRefuse (readAliases h entries)
    return { extendedTypes := extended, aliases := aliases }

/-- Reads a setup from a document under a name. -/
def load (name : String) (content : Document.Content) : Act Setup := do
  ofValue (← content.mapping name)

/-- The setup that the command line starts with. -/
def shipped : Setup where
  aliases := [("R2Point", "tuple<number;number>"), ("R2Matrix", "tuple<R2Point;R2Point>")]

/-- Setup as a mapping. -/
def view (s : Setup) : View :=
  let text (t : String) : View := .scalar (.text t)
  .dict [(text extendedKey, .scalar (.bool s.extendedTypes)),
    (text aliasesKey, .dict (s.aliases.map fun a => (text a.1, text a.2)))]

end Setup

end CallContracts
