import CallContracts.Host.Standard
import CallContracts.World.Fault
import CallContracts.World.Registry
import CallContracts.World.View

/-!
Computations on a world.

A world holds the registries, the heap, the session variables and a supply of serial numbers, and it
has a host. A computation (`Act`) ends with a result, with a fault, or because calls nest too
deeply; in each case it leaves a world, and it emits events: log records and traced values, which
no computation can read back. `Act.attempt` turns a fault into a result; a computation that nests
too deeply cannot be turned into one.

Main definitions: `World`, `Event`, `Result`, `Act`. Main statements: the laws `pure_bind`,
`bind_pure` and `bind_assoc`.
-/

namespace CallContracts

/-! ### Events -/

/-- A record of the log. -/
inductive Record where
  /-- A signature was read. -/
  | parsed (signature : String) (stages : Nat)
  /-- A type was registered. -/
  | registered (name chain : String)
  /-- A call was rejected for its values. -/
  | rejectedArguments (function reason : String)
  /-- A call was rejected for its result. -/
  | rejectedResult (function expected : String)
  /-- An environment was built. -/
  | ready (types aliases : Nat)
  deriving Repr, DecidableEq

namespace Record

/-- The part of the library that writes a record. -/
def area : Record → String
  | .parsed .. => "sigil.dsl.grammar"
  | .registered .. => "sigil.registry"
  | .rejectedArguments .. | .rejectedResult .. => "sigil.verifier.enforcement"
  | .ready .. => "sigil.runtime"

/-- The wording of a record. -/
def message : Record → String
  | .parsed signature stages =>
    s!"parsed signature {Text.quoted signature} into {stages} stages"
  | .registered name chain => s!"registered type {name} ({chain})"
  | .rejectedArguments function reason => s!"rejected arguments for {function}: {reason}"
  | .rejectedResult function expected =>
    s!"rejected result of {function}: expected {expected}"
  | .ready types aliases => s!"runtime ready with {types} types ({aliases} aliases)"

/-- A record as the log shows it. -/
def line (r : Record) : String := s!"DEBUG {r.area}: {r.message}"

end Record

/-- What a computation shows while it runs. -/
inductive Event where
  | record (r : Record)
  | traced (v : View)

/-! ### Worlds -/

/-- Everything that outlives a call. -/
structure World where
  registries : List Registry
  heap : Heap
  bindings : List (String × Value)
  /-- The serial number of the next object or function. -/
  serial : Nat
  /-- What the language around the program answers; it stays as it is. -/
  host : Host

namespace World

/-- The world without content. -/
def empty : World := ⟨[], [], [], 0, .standard⟩

/-- The registry at a place. -/
def registry (w : World) (r : RegistryId) : Registry := (w.registries[r]?).getD .empty

/-- The world with another registry at a place. -/
def setRegistry (w : World) (r : RegistryId) (reg : Registry) : World :=
  { w with registries := w.registries.set r reg }

end World

/-! ### Computations -/

/-- Why a computation has no result. -/
inductive Stop where
  | fault (f : Fault)
  /-- Calls nest too deeply. -/
  | exhausted

/-- How a computation ends. -/
structure Result (α : Type) where
  outcome : Except Stop α
  world : World
  events : List Event

/-- A computation on a world. -/
def Act (α : Type) := World → Result α

namespace Act

variable {α β γ : Type}

/-- Ends with a result. -/
protected def pure (a : α) : Act α := fun w => ⟨.ok a, w, []⟩

/-- Goes on with a result. -/
protected def bind (x : Act α) (f : α → Act β) : Act β := fun w =>
  let r := x w
  match r.outcome with
  | .error s => ⟨.error s, r.world, r.events⟩
  | .ok a =>
    let r' := f a r.world
    ⟨r'.outcome, r'.world, r.events ++ r'.events⟩

instance : Monad Act where
  pure := Act.pure
  bind := Act.bind

/-- Ends with a fault. -/
def throw (f : Fault) : Act α := fun w => ⟨.error (.fault f), w, []⟩

/-- Ends because calls nest too deeply. -/
def exhausted : Act α := fun w => ⟨.error .exhausted, w, []⟩

/-- Ends with a mishap. -/
def mishap (m : Mishap) : Act α := throw (.mishap m)

/-- Ends with a refusal. -/
def refuse (r : Refusal) : Act α := throw (.refusal r)

/-- Takes a fault as a result. Running out of depth passes every handler: the error of the language
that tells of it, which a handler of all errors would take, is left out. -/
def attempt (x : Act α) : Act (Except Fault α) := fun w =>
  let r := x w
  match r.outcome with
  | .ok a => ⟨.ok (.ok a), r.world, r.events⟩
  | .error (.fault f) => ⟨.ok (.error f), r.world, r.events⟩
  | .error .exhausted => ⟨.error .exhausted, r.world, r.events⟩

/-- A result, or a mishap if there is none. -/
def orMishap (m : Mishap) : Option α → Act α
  | some a => pure a
  | none => mishap m

/-- A result, or the fault of a signature. -/
def orSignatureFault : Except SignatureFault α → Act α
  | .ok a => pure a
  | .error f => throw (.signature f)

/-- Shows an event. -/
def emit (e : Event) : Act Unit := fun w => ⟨.ok (), w, [e]⟩

/-- Writes a record. -/
def log (r : Record) : Act Unit := emit (.record r)

/-- The world as it is. -/
def world : Act World := fun w => ⟨.ok w, w, []⟩

/-- Changes the world. -/
def setWorld (w : World) : Act Unit := fun _ => ⟨.ok (), w, []⟩

/-- What the host answers. -/
def host : Act Host := do return (← world).host

/-- The lists and dictionaries as they are. -/
def heap : Act Heap := do return (← world).heap

/-- The registry at a place as it is. -/
def registry (r : RegistryId) : Act Registry := do return (← world).registry r

/-- A new cell. -/
def allocate (c : Cell) : Act Address := do
  let w ← world
  let (h, a) := w.heap.allocate c
  setWorld { w with heap := h }
  return a

/-- A new list. -/
def newList (items : List Value) : Act Value := do return .list (← allocate (.list items))

/-- A new dictionary; of two equal keys the first keeps its place and the second its value. -/
def newDict (entries : List (Value × Value)) : Act Value := do
  let h ← heap
  let entries := entries.foldl (fun es e => h.insert es e.1 e.2) []
  return .dict (← allocate (.dict entries))

/-- The next serial number. -/
def fresh : Act Nat := do
  let w ← world
  setWorld { w with serial := w.serial + 1 }
  return w.serial

/-- Applies a computation to each item in turn. -/
def each (f : α → Act β) : List α → Act (List β)
  | [] => pure []
  | a :: as => do
    let b ← f a
    let bs ← each f as
    return b :: bs

/-- Whether a computation holds of all items; it stops at the first that it does not hold of. -/
def all (f : α → Act Bool) : List α → Act Bool
  | [] => pure true
  | a :: as => do if ← f a then all f as else return false

/-- Whether a computation holds of some item; it stops at the first that it holds of. -/
def any (f : α → Act Bool) : List α → Act Bool
  | [] => pure false
  | a :: as => do if ← f a then return true else any f as

/-! ### Laws -/

theorem pure_bind (a : α) (f : α → Act β) : (pure a >>= f) = f a := by
  funext w
  simp [bind, pure, Act.bind, Act.pure]

theorem bind_pure (x : Act α) : (x >>= pure) = x := by
  funext w
  simp only [bind, pure, Act.bind, Act.pure]
  cases hx : (x w).outcome <;> simp [← hx]

theorem bind_assoc (x : Act α) (f : α → Act β) (g : β → Act γ) :
    (x >>= f >>= g) = x >>= fun a => f a >>= g := by
  funext w
  simp only [bind, Act.bind]
  cases hx : (x w).outcome with
  | error s => rfl
  | ok a =>
    cases hf : (f a (x w).world).outcome with
    | error s => simp [hf]
    | ok b => simp [hf, List.append_assoc]

end Act

end CallContracts
