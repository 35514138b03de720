import CallContracts.Call.Parameter

/-!
Filling parameters with the values of a call.

`slots?` lays the positions and keywords of a call out over a parameter list, leaving parameters
open. A call is bound by `bind`, which asks that no parameter without a default stays open. A call
that is looked at before it is made is bound by `bindPartial`, which lets parameters stay open but
refuses a keyword that names an open parameter by position alone. `layout` turns such a filling back
into a list of positions, with a filler for each open parameter in front of a filled one.

Main definitions: `Slot`, `bindPartial`, `bind`, `layout`. Main statement: `length_slots?`, each
parameter gets exactly one slot.
-/

namespace CallContracts

/-- What a call gives to one parameter. -/
inductive Slot (α : Type) where
  | given (v : α)
  | omitted
  /-- The values of a variadic parameter. -/
  | rest (vs : List α)
  /-- The keywords that no other parameter takes. -/
  | named (kvs : List (String × α))
  deriving Repr, DecidableEq

namespace Slot

/-- A slot that the call leaves open. -/
def isOmitted {α : Type} : Slot α → Bool
  | .omitted => true
  | _ => false

end Slot

namespace Call

variable {δ α : Type}

/-- The keyword arguments of a call, in written order. -/
abbrev Keywords (α : Type) := List (String × α)

/-- Whether a keyword is given. -/
def hasKeyword (name : String) (kw : Keywords α) : Bool := kw.any (·.1 == name)

/-- The keywords without one name. -/
def withoutKeyword (name : String) (kw : Keywords α) : Keywords α := kw.filter (·.1 != name)

/-- Puts a slot in front of a filling. -/
def consSlot (s : Slot α) :
    Option (List (Slot α) × Keywords α) → Option (List (Slot α) × Keywords α) :=
  Option.map fun r => (s :: r.1, r.2)

/-- One slot for each parameter, and the keywords that none of them takes by name. -/
def fill : List (Parameter δ) → List α → Keywords α → Option (List (Slot α) × Keywords α)
  | [], [], kw => some ([], kw)
  | [], _ :: _, _ => none
  | p :: ps, args, kw =>
    match p.kind, args with
    | .positionalOnly, a :: rest => consSlot (.given a) (fill ps rest kw)
    | .positionalOnly, [] => consSlot .omitted (fill ps [] kw)
    | .positional, a :: rest =>
      if hasKeyword p.name kw then none else consSlot (.given a) (fill ps rest kw)
    | .positional, [] =>
      match kw.lookup p.name with
      | some v => consSlot (.given v) (fill ps [] (withoutKeyword p.name kw))
      | none => consSlot .omitted (fill ps [] kw)
    | .variadic, vs => consSlot (.rest vs) (fill ps [] kw)
    | .keywordOnly, [] =>
      match kw.lookup p.name with
      | some v => consSlot (.given v) (fill ps [] (withoutKeyword p.name kw))
      | none => consSlot .omitted (fill ps [] kw)
    | .keywords, [] => consSlot (.named []) (fill ps [] kw)
    | .keywordOnly, _ :: _ => none
    | .keywords, _ :: _ => none

/-- Gives the left-over keywords to the parameter that collects them. -/
def collect (left : Keywords α) : List (Slot α) → List (Slot α) :=
  List.map fun
    | .named _ => .named left
    | s => s

/-- Whether a parameter collects the left-over keywords. -/
def collects (ps : List (Parameter δ)) : Bool := ps.any (·.kind == .keywords)

/-- One slot for each parameter, some of them open; fails if a value has no place or a parameter
has two values. -/
def slots? (ps : List (Parameter δ)) (args : List α) (kw : Keywords α) :
    Option (List (Slot α)) :=
  match fill ps args kw with
  | none => none
  | some (slots, left) =>
    if left.isEmpty then some slots
    else if collects ps then some (collect left slots) else none

/-- Whether a keyword names a parameter that only a position can fill and that stays open. -/
def namesOpen (ps : List (Parameter δ)) (slots : List (Slot α)) (kw : Keywords α) : Bool :=
  (ps.zip slots).any fun (p, s) =>
    p.kind == .positionalOnly && s.isOmitted && hasKeyword p.name kw

/-- One slot for each parameter, some of them open, none of these named in vain. -/
def bindPartial (ps : List (Parameter δ)) (args : List α) (kw : Keywords α) :
    Option (List (Slot α)) :=
  match slots? ps args kw with
  | none => none
  | some slots => if namesOpen ps slots kw then none else some slots

/-- One slot for each parameter, open ones only where there is a default. -/
def bind (ps : List (Parameter δ)) (args : List α) (kw : Keywords α) : Option (List (Slot α)) :=
  match slots? ps args kw with
  | none => none
  | some slots =>
    if (ps.zip slots).all fun (p, s) => !s.isOmitted || p.default?.isSome then some slots
    else none

/-! ### Layout -/

/-- The values in the order of the parameters, `pending` open ones being owed a filler. -/
def layoutFrom (filler : α) (pending : Nat) : List (Parameter δ) → List (Slot α) → List α
  | p :: ps, s :: ss =>
    if p.isPositional then
      match s with
      | .given v => List.replicate pending filler ++ v :: layoutFrom filler 0 ps ss
      | _ => layoutFrom filler (pending + 1) ps ss
    else
      match s with
      | .rest vs => vs
      | _ => []
  | _, _ => []

/-- The positional values of a filling, in the order of the parameters; an open parameter in front
of a filled one becomes a filler. -/
def layout (filler : α) (ps : List (Parameter δ)) (slots : List (Slot α)) : List α :=
  layoutFrom filler 0 ps slots

/-! ### One slot for each parameter -/

theorem length_fill {ps : List (Parameter δ)} {args : List α} {kw left : Keywords α}
    {slots : List (Slot α)} (h : fill ps args kw = some (slots, left)) :
    slots.length = ps.length := by
  induction ps generalizing args kw slots left with
  | nil =>
    cases args with
    | nil =>
      simp only [fill, Option.some.injEq, Prod.mk.injEq] at h
      simp [← h.1]
    | cons a rest => simp [fill] at h
  | cons p ps ih =>
    have step : ∀ {s : Slot α} {r : Option (List (Slot α) × Keywords α)},
        (∀ {ss l}, r = some (ss, l) → ss.length = ps.length) → consSlot s r = some (slots, left) →
          slots.length = (p :: ps).length := by
      intro s r hr hs
      obtain ⟨⟨ss, l⟩, hss, he⟩ := Option.map_eq_some_iff.1 hs
      simp only [Prod.mk.injEq] at he
      obtain ⟨he, -⟩ := he
      subst he
      simp [hr hss]
    unfold fill at h
    split at h
    · exact step ih h
    · exact step ih h
    · split at h
      · simp at h
      · exact step ih h
    · split at h <;> exact step ih h
    · exact step ih h
    · split at h <;> exact step ih h
    · exact step ih h
    · simp at h
    · simp at h

theorem length_slots? {ps : List (Parameter δ)} {args : List α} {kw : Keywords α}
    {slots : List (Slot α)} (h : slots? ps args kw = some slots) :
    slots.length = ps.length := by
  unfold slots? at h
  split at h
  · simp at h
  · next ss left hf =>
    have hl := length_fill hf
    split at h
    · simpa [← Option.some.inj h] using hl
    · split at h
      · simpa [← Option.some.inj h, collect] using hl
      · simp at h

end Call

end CallContracts
