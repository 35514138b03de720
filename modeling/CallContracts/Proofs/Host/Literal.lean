import CallContracts.Host.Standard
import Mathlib.Data.List.Infix

/-!
What becomes of literals.

* `Literal.isKey`: a literal whose value can be a member of a set or a key of a dictionary;
* `Literal.mishap?`: why an expression has no value, by its first part, in the order of evaluation,
  that has none;
* `Literal.Ends`: an evaluation fails in one way from every heap, or returns from every heap and
  only adds to it, and `Literal.Ends.bind`: evaluations one after the other;
* `Literal.evaluate_ends`: **an expression has a value just if no part of it is at odds with this**,
  by induction on it;
* `LiteralText.evaluate_eq_mishap_iff`: the same of a text.
-/

namespace CallContracts

namespace Literal

/-! ### Expressions without a value -/

/-- Whether the value of an expression can be hashed, looked at to some depth. -/
def isKeyWithin : ℕ → Literal → Bool
  | 0, _ => false
  | _ + 1, .constant _ | _ + 1, .signed .. | _ + 1, .sum .. => true
  | n + 1, .tuple items => items.all (isKeyWithin n)
  | _ + 1, _ => false

/-- Whether the value of an expression can be hashed. -/
def isKey (e : Literal) : Bool := e.isKeyWithin nestingLimit

/-- What is wrong with an expression as a member or a key, if its value cannot be hashed. -/
def keyMishap? (e : Literal) : Option Mishap := if e.isKey then none else some .type

mutual

/-- Why an expression has no value, if it has none. -/
def mishap? : Literal → Option Mishap
  | .constant _ => none
  | .name _ => some .value
  | .call e => match e with
    | .name text => if text = "set" then none else some .value
    | _ => some .value
  | .signed _ e => if e.number?.isSome then none else some .value
  | .sum negative left right => match addition negative left right with
    | .ok _ => none
    | .error m => some m
  | .tuple items | .list items => mishapOfAll? items
  | .set items => mishapOfMembers? items
  | .dict entries => mishapOfEntries? entries

/-- Why the first of several expressions that has no value has none. -/
def mishapOfAll? : List Literal → Option Mishap
  | [] => none
  | e :: es => e.mishap?.or (mishapOfAll? es)

/-- The same of the members of a set: each is hashed before the next one is looked at. -/
def mishapOfMembers? : List Literal → Option Mishap
  | [] => none
  | e :: es => e.mishap?.or (e.keyMishap?.or (mishapOfMembers? es))

/-- The same of the entries of a dictionary: a key is hashed once its value is there. -/
def mishapOfEntries? : List (Literal × Literal) → Option Mishap
  | [] => none
  | (k, e) :: es => k.mishap?.or (e.mishap?.or (k.keyMishap?.or (mishapOfEntries? es)))

end

/-! ### Evaluations one after the other -/

/-- An evaluation fails in one way from every heap, or it returns from every heap and only adds to
it. -/
structure Ends {α : Type} (x : Evaluation α) (P : α → Prop) (m? : Option Mishap) : Prop where
  fails : ∀ m, m? = some m → ∀ h, x.run h = .error m
  returns : m? = none → ∀ h, ∃ a h', x.run h = .ok (a, h') ∧ h <+: h' ∧ P a

section ends

variable {α β : Type} {x : Evaluation α} {f : α → Evaluation β} {P : α → Prop} {Q : β → Prop}
  {m? n? : Option Mishap}

lemma ends_pure {a : α} (h : P a) : Ends (pure a) P none :=
  ⟨by simp, fun _ heap => ⟨a, heap, rfl, List.prefix_refl _, h⟩⟩

lemma ends_throw (m : Mishap) : Ends (throw m : Evaluation α) P (some m) :=
  ⟨fun _ h _ => Option.some.inj h ▸ rfl, by simp⟩

lemma ends_get : Ends get (fun _ => True) none :=
  ⟨by simp, fun _ heap => ⟨heap, heap, rfl, List.prefix_refl _, trivial⟩⟩

lemma ends_allocate (c : Cell) : Ends (allocate c) (fun _ => True) none :=
  ⟨by simp, fun _ heap => ⟨_, _, rfl, List.prefix_append _ _, trivial⟩⟩

/-- **A step that fails decides**; behind one that returns the next one does. -/
lemma Ends.bind (hx : Ends x P m?) (hf : ∀ a, P a → Ends (f a) Q n?) :
    Ends (x >>= f) Q (m?.or n?) := by
  cases m? with
  | some m =>
    refine ⟨fun m' hm h => ?_, by simp⟩
    rw [StateT.run_bind, hx.fails m rfl h, ← Option.some.inj hm]
    rfl
  | none =>
    refine ⟨fun m hm h => ?_, fun hnone h => ?_⟩
    · obtain ⟨a, h', hrun, -, ha⟩ := hx.returns rfl h
      rw [StateT.run_bind, hrun]
      exact (hf a ha).fails m hm h'
    · obtain ⟨a, h', hrun, hgrows, ha⟩ := hx.returns rfl h
      obtain ⟨b, h'', hrun', hgrows', hb⟩ := (hf a ha).returns hnone h'
      exact ⟨b, h'', by rw [StateT.run_bind, hrun]; exact hrun', hgrows.trans hgrows', hb⟩

/-- A last step that always returns. -/
lemma Ends.bind_returning (hx : Ends x P m?) (hf : ∀ a, P a → Ends (f a) Q none) :
    Ends (x >>= f) Q m? := by
  simpa using hx.bind hf

end ends

/-! ### The law -/

/-- A value can be hashed just if the expression that it is the value of can, to whatever depth. -/
def HashesAs (e : Literal) (v : Value) : Prop :=
  ∀ n, v.isHashableWithin n = e.isKeyWithin n

lemma ends_requireKey {e : Literal} {v : Value} (h : e.HashesAs v) :
    Ends (requireKey v) (fun _ => True) e.keyMishap? := by
  rw [requireKey, Value.isHashable, h, keyMishap?, isKey]
  split
  · exact ends_pure trivial
  · exact ends_throw _

mutual

/-- **How an evaluation ends**: with the mishap of the first part that has no value, from whatever
heap; or with a value, which can be hashed just if the expression says so, and the heap is only
added to. -/
theorem evaluate_ends : (e : Literal) → Ends e.evaluate e.HashesAs e.mishap?
  | .constant s => ends_pure (by rintro (_ | n) <;> rfl)
  | .name _ => ends_throw _
  | .call e => by
    rw [evaluate.eq_def, mishap?.eq_def]
    cases e with
    | name text =>
      dsimp only
      split
      · exact ends_pure (by rintro (_ | n) <;> rfl)
      · exact ends_throw _
    | _ => exact ends_throw _
  | .signed negative e => by
    rw [evaluate, mishap?]
    cases e.number? with
    | none => exact ends_throw _
    | some x => exact ends_pure (by rintro (_ | n) <;> rfl)
  | .sum negative left right => by
    rw [evaluate, mishap?]
    cases addition negative left right with
    | error m => exact ends_throw _
    | ok x => exact ends_pure (by rintro (_ | n) <;> rfl)
  | .tuple items => by
    rw [evaluate, mishap?]
    refine (evaluateAll_ends items).bind_returning fun vs hvs => ends_pure ?_
    rintro (_ | n)
    · rfl
    · exact hvs n
  | .list items => by
    rw [evaluate, mishap?]
    refine (evaluateAll_ends items).bind_returning fun vs _ =>
      (ends_allocate _).bind_returning fun a _ => ends_pure ?_
    rintro (_ | n) <;> rfl
  | .set items => by
    rw [evaluate, mishap?]
    refine (evaluateMembers_ends [] items).bind_returning fun vs _ => ends_pure ?_
    rintro (_ | n) <;> rfl
  | .dict entries => by
    rw [evaluate, mishap?]
    refine (evaluateEntries_ends [] entries).bind_returning fun es _ =>
      (ends_allocate _).bind_returning fun a _ => ends_pure ?_
    rintro (_ | n) <;> rfl

/-- Several expressions one after the other. -/
theorem evaluateAll_ends : (es : List Literal) → Ends (evaluateAll es)
    (fun vs => ∀ n, vs.all (Value.isHashableWithin n) = es.all (isKeyWithin n)) (mishapOfAll? es)
  | [] => ends_pure fun _ => rfl
  | e :: es => by
    rw [evaluateAll, mishapOfAll?]
    refine (evaluate_ends e).bind fun v hv =>
      (evaluateAll_ends es).bind_returning fun vs hvs => ends_pure fun n => ?_
    rw [List.all_cons, List.all_cons, hv, hvs]

/-- The members of a set. -/
theorem evaluateMembers_ends (members : List Value) : (es : List Literal) →
    Ends (evaluateMembers members es) (fun _ => True) (mishapOfMembers? es)
  | [] => ends_pure trivial
  | e :: es => by
    rw [evaluateMembers, mishapOfMembers?]
    refine (evaluate_ends e).bind fun v hv => (ends_requireKey hv).bind fun _ _ => ?_
    exact ends_get.bind fun h _ => evaluateMembers_ends _ es

/-- The entries of a dictionary. -/
theorem evaluateEntries_ends (entries : List (Value × Value)) :
    (es : List (Literal × Literal)) →
      Ends (evaluateEntries entries es) (fun _ => True) (mishapOfEntries? es)
  | [] => ends_pure trivial
  | (k, e) :: es => by
    rw [evaluateEntries, mishapOfEntries?]
    refine (evaluate_ends k).bind fun key hkey => (evaluate_ends e).bind fun v _ =>
      (ends_requireKey hkey).bind fun _ _ => ?_
    exact ends_get.bind fun h _ => evaluateEntries_ends _ es

end

end Literal

/-! ### Texts -/

namespace LiteralText

variable {text : String} {h : Heap} {m : Mishap}

/-- **Which mishap the evaluation of a text ends in**: that of the expression that it reads as. -/
theorem evaluate_eq_mishap_iff : evaluate text h = .error (.mishap m) ↔
    ∃ e, read? text = some e ∧ e.depth ≤ Literal.greatestDepth ∧ e.mishap? = some m := by
  rw [evaluate]
  cases read? text with
  | none => simp
  | some e =>
    by_cases hdepth : Literal.greatestDepth < e.depth
    · simp [hdepth, not_le.2 hdepth]
    · have hends := Literal.evaluate_ends e
      cases hm : e.mishap? with
      | some m' =>
        rw [hm] at hends
        simp [hdepth, hends.fails m' rfl h, Except.mapError, hm, not_lt.1 hdepth]
      | none =>
        rw [hm] at hends
        obtain ⟨v, h', hrun, -⟩ := hends.returns rfl h
        simp [hdepth, hrun, Except.mapError, hm]

end LiteralText

end CallContracts
