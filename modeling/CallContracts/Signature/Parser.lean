import CallContracts.Signature.Descriptor
import CallContracts.Signature.Fault
import CallContracts.Signature.Split
import CallContracts.Text.Blank

/-!
Reading type expressions and signatures.

    signature   := stage ("=>" stage)+
    stage       := "()" | token ("," token)*
    token       := "[" expression "]" | expression
    expression  := name ("<" expression (";" expression)* ">" | ":" label)?

Blanks around delimiters do not count. The arguments of a type are kept as texts: they are read
when a value is tested against them.

Main definitions: `Descriptor.parse` for one type expression, `Tree.parse` for a signature, whose
names may be checked against a set of known ones. Main statement: `Tree.parse_known`, a signature
read with known names has only such names.
-/

namespace CallContracts

namespace Signature

/-- Splits a text, with the fault that belongs to an imbalance. -/
def pieces (delimiter : String) (text : List Char) : Except SignatureFault (List (List Char)) :=
  match split delimiter.toList text with
  | .ok parts => .ok parts
  | .error (.strayClose position) =>
    .error ⟨.strayClose position, some (String.ofList text)⟩
  | .error .unclosed => .error ⟨.unclosed, some (String.ofList text)⟩

/-- The pieces of a text between top-level delimiters, as texts. -/
def splitText (delimiter text : String) : Except SignatureFault (List String) :=
  (·.map String.ofList) <$> pieces delimiter text.toList

/-- The trimmed arguments between the brackets of a type. -/
def splitArguments (text : List Char) : Except SignatureFault (List String) :=
  (·.map fun part => String.ofList (Text.trim part)) <$> pieces ";" text

end Signature

open Signature

/-! ### Type expressions -/

namespace Descriptor

/-- The expression inside the brackets of an optional token. -/
def unbracket? : List Char → Option (List Char)
  | '[' :: cs => if cs.getLast? = some ']' then some (Text.trim cs.dropLast) else none
  | _ => none

/-- A name ends where its arguments or its label begin. -/
def isNameChar (c : Char) : Bool := c != '<' && c != ':'

/-- Reads a trimmed expression that is not blank; `token` is the text that a fault names. -/
def parseExpression (token : String) (optional : Bool) (text : List Char) :
    Except SignatureFault Descriptor :=
  let name := String.ofList (Text.trim (text.takeWhile isNameChar))
  match text.dropWhile isNameChar with
  | [] => .ok ⟨String.ofList text, .plain, optional⟩
  | c :: rest =>
    if c = '<' then
      if rest.getLast? = some '>' then do
        let types ← splitArguments rest.dropLast
        return ⟨name, .arguments types, optional⟩
      else .error ⟨.openArguments, some token⟩
    else .ok ⟨name, .label (String.ofList (Text.trim rest)), optional⟩

/-- Reads one type expression, optional or not. Whether its name is known does not matter here. -/
def parse (token : String) : Except SignatureFault Descriptor :=
  let text := Text.trim token.toList
  if text = unitName.toList then .ok unit
  else
    let (optional, body) :=
      match unbracket? text with
      | some inner => (true, inner)
      | none => (false, text)
    if body = [] then .error ⟨.emptyType, some token⟩ else parseExpression token optional body

end Descriptor

/-! ### Stages and signatures -/

namespace Tree

/-- Reads one stage of a signature. -/
def parseStage (signature : String) (raw : List Char) : Except SignatureFault Stage := do
  let text := Text.trim raw
  if text = [] then .error ⟨.emptyStage, some signature⟩
  else
    let tokens := (← pieces "," text).map Text.trim
    if [] ∈ tokens then .error ⟨.emptyEntry, some signature⟩
    else if unitName.toList ∈ tokens ∧ 1 < tokens.length then
      .error ⟨.crowdedUnit, some signature⟩
    else tokens.mapM fun token => Descriptor.parse (String.ofList token)

/-- The names that are not known, in order and without repetition. -/
def unknownNames (known : String → Bool) (ds : List Descriptor) : List String :=
  ds.foldl (fun names d =>
    if known d.name || names.contains d.name then names else names ++ [d.name]) []

/-- Refuses labels on types that take none, then names that are not known. -/
def checkNames (known : String → Bool) (signature : String) (t : Tree) :
    Except SignatureFault Unit :=
  let ds := t.stages.flatten
  match ds.find? fun d => d.label?.isSome && d.name != labelledName with
  | some d => .error ⟨.unexpectedLabel d.name, some signature⟩
  | none =>
    if ds.all fun d => known d.name then .ok ()
    else .error ⟨.unknownTypes (unknownNames known ds), some signature⟩

/-- Reads a signature without asking whether its names are known. -/
def parseForm (signature : String) : Except SignatureFault Tree := do
  let raws ← pieces "=>" signature.toList
  if raws.length < 2 then .error ⟨.singleStage, some signature⟩
  else
    let stages ← raws.mapM (parseStage signature)
    match stages.getLast? with
    | some [_] => return ⟨stages⟩
    | _ => .error ⟨.severalReturns, some signature⟩

/-- Reads a signature; with `known` given, all its names must be known. -/
def parse (known : Option (String → Bool)) (signature : String) :
    Except SignatureFault Tree := do
  let t ← parseForm signature
  match known with
  | none => return t
  | some known =>
    checkNames known signature t
    return t

theorem parse_known {known : String → Bool} {signature : String} {t : Tree}
    (h : parse (some known) signature = .ok t) :
    ∀ s ∈ t.stages, ∀ d ∈ s, known d.name = true := by
  unfold parse at h
  cases hf : parseForm signature with
  | error e => simp [hf, bind, Except.bind] at h
  | ok u =>
    simp only [hf, bind, Except.bind, checkNames] at h
    split at h
    · simp at h
    · next hc =>
      split at hc
      · simp at hc
      · split at hc
        · next hall =>
          have hu : u = t := by simpa [pure, Except.pure] using h
          subst hu
          intro s hs d hd
          exact (List.all_eq_true.1 hall) d (List.mem_flatten.2 ⟨s, hs, hd⟩)
        · simp at hc

end Tree

end CallContracts
