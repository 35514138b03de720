import CallContracts.CommandLine.Arguments
import CallContracts.Document.Json
import CallContracts.Session.Query

/-!
Carrying out commands.

A command runs on an environment with a facade. What it shows goes to the output with exit code 0,
or 2 for a value that fails its test. A fault of a signature, an unknown type, a refused value or a
missing document is shown as an error with exit code 1; any other fault escapes.

Main definitions: `Outcome`, `Command.run`, `Command.execute`, `isShown` and `run`.
-/

namespace CallContracts.CommandLine

/-- An exit code with what is shown. -/
structure Outcome where
  exitCode : Nat
  output : String
  errors : String
  deriving Repr, DecidableEq

/-- A line of output, with an exit code. -/
def shown (exitCode : Nat) (line : String) : Outcome := ⟨exitCode, line ++ "\n", ""⟩

/-! ### Outlines -/

/-- The outline of a type reference. -/
def outlineType (d : Descriptor) : Document.Json :=
  .object ([("type", .text d.name), ("optional", .bool d.optional)] ++
    (match d.label? with
      | some label => [("subType", .text label)]
      | none => []) ++
    match d.arguments? with
      | some types => [("valueType", .list (types.map .text))]
      | none => [])

/-- The outline of a signature: its normal form and its stages. -/
def outline (t : Tree) : Document.Json :=
  .object [("signature", .text t.text),
    ("tree", .list (t.stages.map fun s => .list (s.map outlineType)))]

/-! ### Commands -/

/-- Calls an operation of a facade. -/
def callFacade (env : Environment) (op : Operation) (args : List Value) : Act Value := do
  invokeValue (← Act.orMishap .attribute (env.operation? op)) args []

/-- How a text ends a command that has no value as a literal. It is refused if it is no expression
or makes no sense as a literal; other mishaps of the evaluation are not caught. -/
def stopFor (literal : String) : LiteralFault → Stop
  | .malformed | .mishap .value => .fault (.refusal (.notLiteral literal))
  | .mishap m => .fault (.mishap m)
  | .nesting => .exhausted

/-- Evaluates a literal. -/
def evaluateLiteral (literal : String) : Act Value := fun w =>
  match w.host.evaluate literal w.heap with
  | .ok (v, h) => ⟨.ok v, { w with heap := h }, []⟩
  | .error f => ⟨.error (stopFor literal f), w, []⟩

/-- Tests a literal against a type expression. -/
def testLiteral (env : Environment) (expression literal : String) : Act Outcome := do
  let v ← evaluateLiteral literal
  let tester ← callFacade env .isTypeOf [.text expression]
  let answer ← invokeValue tester [v] []
  if answer.truth (← Act.heap) then return shown 0 "true" else return shown 2 "false"

/-- Carries a command out on an environment. -/
def Command.run (env : Environment) : Command → Act Outcome
  | .parse signature => do
    let t ← env.readSignature (.text signature)
    return shown 0 (outline t).render
  | .chain name => do
    let ancestry ← callFacade env .typeChain [.text name]
    return shown 0 (ancestry.bare (← Act.heap))
  | .check expression literal => testLiteral env expression literal
  | .types => do
    let rows ← env.types
    return ⟨0, String.join (rows.map fun (name, ancestry, _) => s!"{name}\t{ancestry}\n"), ""⟩

/-! ### Errors -/

/-- Faults that are shown as errors. -/
def isShown : Fault → Bool
  | .signature _ | .unknownType _ | .duplicateType _ => true
  | .refusal r => r.category != .type
  | _ => false

/-- The exit code of an error. -/
def failed : Nat := 1

/-- What is shown of an error. -/
def errorOutcome (message : String) : Outcome := ⟨failed, "", s!"[sigil] error: {message}\n"⟩

/-- Carries an invocation out; a fault that is no error of the user's escapes. -/
def Command.execute (setup : Act Setup) (c : Command) : Act Outcome := do
  let outcome ← Act.attempt do
    let env ← Environment.withFacade (← setup)
    c.run env
  match outcome with
  | .ok o => return o
  | .error f =>
    if isShown f then return errorOutcome (f.message?.getD "") else Act.throw f

/-- The name of a document without empty steps and steps that stay in place. -/
def documentName (file : String) : String :=
  let steps := (file.splitOn "/").filter fun s => s != "" && s != "."
  let root :=
    if "//".isPrefixOf file && !"///".isPrefixOf file then "//"
    else if "/".isPrefixOf file then "/"
    else ""
  let name := root ++ "/".intercalate steps
  if name = "" then "." else name

/-- The setup of an invocation: that of the document that it names, or the shipped one. -/
def Invocation.setup (find : String → Document.Content) (i : Invocation) : Act Setup :=
  match i.config with
  | some file => Setup.load (documentName file) (find (documentName file))
  | none => pure .shipped

/-- The whole command line: an exit code alone for misuse and help. -/
def run (find : String → Document.Content) (arguments : List String) : Act (Nat ⊕ Outcome) :=
  match Invocation.read arguments with
  | .error exitCode => pure (.inl exitCode)
  | .ok i => do return .inr (← i.command.execute (i.setup find))

end CallContracts.CommandLine
