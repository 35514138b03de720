import CallContracts.Script.Expr
import CallContracts.Signature.Descriptor

/-!
Values, functions and registry entries.

Lists and dictionaries live at an address, because a function may change them; all other values
carry their content. A *signed* function is a callable with its contract; an *enforced* one checks
every call against it.

Main definitions: `Value`, `Function`, `Signed`, `Entry`.
-/

namespace CallContracts

/-- The place of a list or a dictionary. -/
abbrev Address := Nat

/-- The place of a registry. -/
abbrev RegistryId := Nat

/-- The operations that a registry and its enforcer offer. -/
inductive Operation where
  | extend
  | subtype
  | alias
  | isTypeOf
  | typeChain
  | lookup
  | matches
  | sign
  | verify
  | enforce
  | wrap
  deriving Repr, DecidableEq

/-- The predicates of the types that come with the library. -/
inductive NativePredicate where
  | anything
  | isNone
  | isBoolean
  | isNumber
  | isString
  | isSymbol
  | isObject
  | isFunction
  | isArray
  | isInt
  | isBounded
  | isBoundedInt
  | isTuple
  | isBoundedString
  | isFormattedString
  | isTaggedUnion
  deriving Repr, DecidableEq

mutual

/-- A value of the language. -/
inductive Value where
  | scalar (s : Scalar)
  | tuple (items : List Value)
  | set (items : List Value)
  | list (a : Address)
  | dict (a : Address)
  /-- A plain object, perhaps an instance of a class. -/
  | object (serial : Nat) (label : String) (kind? : Option Nat)
  | descriptor (d : Descriptor)
  | tree (t : Tree)
  | entry (e : Entry)
  | function (f : Function)

/-- A named type of a registry: its predicate, its ancestry and the number of arguments that the
predicate is given. -/
structure Entry where
  name : String
  predicate : Value
  chain : String
  arity : Nat

/-- A function made by a program: its parameters with their defaults, and the variables that its
body may use besides them. -/
structure Closure where
  serial : Nat
  form : FunctionForm
  name : String
  parameters : List (Parameter Value)
  body : Expr
  scope : List (String × Value)

/-- A callable with a contract. -/
inductive Signed where
  /-- A callable that runs unchecked. If it binds a context, that context arrives as the first
  argument. -/
  | plain (callable : Function) (tree : Tree) (raw : String) (context : Value) (binds : Bool)
  /-- A signed function whose calls are checked against the types of a registry. -/
  | enforced (target : Signed) (registry : RegistryId)

/-- Everything that can be called. -/
inductive Function where
  | closure (c : Closure)
  /-- A function whose first parameter is given. -/
  | method (receiver : Value) (c : Closure)
  /-- A class: calling it makes an object. -/
  | kind (serial : Nat) (name : String) (parameters : List (Parameter Value))
  | intrinsic (b : Intrinsic)
  | predicate (p : NativePredicate)
  /-- Asks whether a value is of the type that an expression describes. -/
  | tester (registry : RegistryId) (entry : Entry) (descriptor : Descriptor)
  /-- Registers refinements of a type. -/
  | binder (registry : RegistryId) (parent : String)
  | operation (registry : RegistryId) (op : Operation)
  /-- Makes decorators that enforce a contract. -/
  | contract (enforce : Signed)
  /-- Enforces one contract on the function that it is given. -/
  | decorator (enforce : Signed) (signature context : Value)
  | signed (s : Signed)

end

namespace Value

/-- The value that stands for nothing. -/
abbrev null : Value := .scalar .null

/-- A truth value. -/
abbrev bool (b : Bool) : Value := .scalar (.bool b)

/-- A whole number. -/
abbrev int (n : Int) : Value := .scalar (.int n)

/-- A text. -/
abbrev text (s : String) : Value := .scalar (.text s)

/-- The marker of a parameter that a call leaves out. -/
abbrev absent : Value := .scalar .absent

instance : Inhabited Value := ⟨null⟩

/-- The text that a value is. -/
def text? : Value → Option String
  | .scalar (.text s) => some s
  | _ => none

theorem eq_text_of_text? {v : Value} {s : String} (h : v.text? = some s) : v = text s := by
  unfold text? at h
  split at h
  · rw [Option.some.inj h]
  · simp at h

/-- The marker of a parameter that a call leaves out. -/
def isAbsent : Value → Bool
  | .scalar .absent => true
  | _ => false

/-- The value that stands for nothing. -/
def isNull : Value → Bool
  | .scalar .null => true
  | _ => false

/-- Whether a value is a truth value. -/
def isBool : Value → Bool
  | .scalar (.bool _) => true
  | _ => false

/-- Whether a value can be called. -/
def isCallable : Value → Bool
  | .function _ => true
  | _ => false

end Value

mutual

/-- The callable at the bottom of a function: what was signed, however often. -/
def Function.root : Function → Function
  | .signed s => s.root
  | f => f

/-- The callable at the bottom of a signed function. -/
def Signed.root : Signed → Function
  | .plain callable .. => callable.root
  | .enforced target _ => target.root

end

namespace Signed

/-- The callable that was signed. -/
def callable : Signed → Function
  | .plain callable .. => callable
  | .enforced target _ => target.callable

/-- The contract. -/
def tree : Signed → Tree
  | .plain _ tree .. => tree
  | .enforced target _ => target.tree

/-- The contract as it was written. -/
def raw : Signed → String
  | .plain _ _ raw .. => raw
  | .enforced target _ => target.raw

/-- The object that the callable was signed with. -/
def context : Signed → Value
  | .plain _ _ _ context _ => context
  | .enforced target _ => target.context

/-- The contract in its normal form. -/
def signature (s : Signed) : String := s.tree.text

/-- Whether calls are checked. -/
def isEnforced : Signed → Bool
  | .plain .. => false
  | .enforced .. => true

/-- The context arrives as an argument only if there is one. -/
def receives (context : Value) (binds : Bool) : Bool := binds && !context.isNull

end Signed

end CallContracts
