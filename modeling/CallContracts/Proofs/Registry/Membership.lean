import CallContracts.Enforcement.Apply
import CallContracts.Proofs.Registry.Base
import CallContracts.Proofs.Signature.Canonical
import CallContracts.Proofs.Signature.Slicing

/-!
When a type expression resolves, and what the membership test makes of it.

* `Registry.resolve_text`: a type expression resolves to the entry of the name that it reads as;
* `Registry.isMember_fault_iff`: the membership test fails only on the expression itself, never on
  account of a predicate;
* `Registry.isMember_typeText_faults_iff`: the written form of a type whose name is known fails only
  if that name stands in brackets;
* `Registry.returns_accepts_iff`: a check accepts a value if the membership test holds of it;
* `Registry.isMember_callable`: with the base types, being a function is being callable;
* `Registry.Tests`: what a program sees of the membership test, and `Registry.tests_iff`, for a
  registered type that is whether its predicate holds;
* `Registry.truth_test`: so it is for a predicate that tests the parts of a value.
-/

namespace CallContracts.Registry

variable {invoke : Invoke} {r : RegistryId} {w : World} {text name : String} {d : Descriptor}
  {e : Entry} {v : Value} {f : Fault}

/-! ### Resolving -/

/-- A type expression resolves to the entry of the name that it reads as. -/
lemma resolve_text :
    resolve r (.text text) w =
      ⟨match Descriptor.parse text with
        | .error e => .error (.fault (.signature e))
        | .ok d => match (w.registry r).find? d.name with
          | none => .error (.fault (.unknownType (.text d.name)))
          | some e => .ok (e, d), w, []⟩ := by
  cases hparse : Descriptor.parse text with
  | error e =>
    simp [resolve, readType, hparse, Act.orSignatureFault, Act.throw, Bind.bind, Act.bind]
  | ok d =>
    cases hentry : (w.registry r).find? d.name with
    | none =>
      simp [resolve, readType, hparse, Act.orSignatureFault, entry, Act.registry, Act.world,
        hentry, Act.throw, Bind.bind, Act.bind, pure, Act.pure]
    | some e =>
      simp [resolve, readType, hparse, Act.orSignatureFault, entry, Act.registry, Act.world,
        hentry, Bind.bind, Act.bind, pure, Act.pure]

/-- A text is looked up as a name. -/
lemma lookup_text :
    lookup r (.text name) w =
      ⟨match (w.registry r).find? name with
        | none => .error (.fault (.unknownType (.text name)))
        | some e => .ok e, w, []⟩ := by
  cases he : (w.registry r).find? name <;>
    simp [lookup, Value.text?, entry, Act.registry, Act.world, he, Act.throw, Bind.bind, Act.bind,
      pure, Act.pure]

/-- An expression that reads as a registered type resolves to it. -/
lemma resolve_of_parse (hparse : Descriptor.parse text = .ok d)
    (he : (w.registry r).find? d.name = some e) :
    resolve r (.text text) w = ⟨.ok (e, d), w, []⟩ := by
  rw [resolve_text]
  simp only [hparse, he]

/-- An expression that resolves reads as a registered type. -/
lemma parse_of_resolve (h : (resolve r (.text text) w).outcome = .ok (e, d)) :
    Descriptor.parse text = .ok d ∧ (w.registry r).find? d.name = some e := by
  rw [resolve_text] at h
  cases hparse : Descriptor.parse text with
  | error f => simp [hparse] at h
  | ok d' =>
    cases hentry : (w.registry r).find? d'.name with
    | none => simp [hparse, hentry] at h
    | some e' =>
      simp only [hparse, hentry, Except.ok.injEq, Prod.mk.injEq] at h
      obtain ⟨rfl, rfl⟩ := h
      exact ⟨rfl, hentry⟩

/-- A type expression does not resolve if it does not read or if its name is not registered. -/
lemma resolve_faults_iff :
    (∃ f, (resolve r (.text text) w).outcome = .error (.fault f)) ↔
      ∀ d, Descriptor.parse text = .ok d → (w.registry r).contains d.name = false := by
  rw [resolve_text]
  cases Descriptor.parse text with
  | error e => simp
  | ok d => cases hentry : (w.registry r).find? d.name <;> simp [contains, hentry]

/-! ### Membership -/

/-- Faults of a predicate are caught. -/
lemma holds_ne_fault : (holds invoke r e d v w).outcome ≠ .error (.fault f) := by
  rw [holds]
  rcases hask : e.ask invoke r v (.descriptor d) w with ⟨(_ | -) | answer, w', es⟩
  · rw [Act.bind_of_ok (Act.attempt_of_fault hask)]
    simp [pure, Act.pure]
  · rw [Act.bind_of_error (Act.attempt_of_exhausted hask)]
    simp
  · rw [Act.bind_of_ok (Act.attempt_of_ok hask)]
    simp [Act.heap, Act.world, Bind.bind, Act.bind, pure, Act.pure]

/-- **The membership test fails only on the expression itself.** -/
lemma isMember_fault_iff :
    (isMember invoke r text v w).outcome = .error (.fault f) ↔
      (resolve r (.text text) w).outcome = .error (.fault f) := by
  rw [isMember]
  rcases hresolve : resolve r (.text text) w with ⟨stop | ⟨e, d⟩, w', es⟩
  · simp [Act.bind_of_error hresolve]
  · simp [Act.bind_of_ok hresolve, holds_ne_fault]

/-- **The type of a descriptor that was read is not found only if its name stands in brackets**, for
then it is read without them. -/
lemma isMember_typeText_faults_iff (hd : d.Sound) (hname : (w.registry r).contains d.name = true) :
    (∃ f, (isMember invoke r d.typeText v w).outcome = .error (.fault f)) ↔
      d.LooksBracketed ∧ ∀ d', Descriptor.parse d.typeText = .ok d' →
        (w.registry r).contains d'.name = false := by
  simp only [isMember_fault_iff]
  rw [resolve_faults_iff]
  refine ⟨fun hunknown => ⟨?_, hunknown⟩, And.right⟩
  by_contra hlook
  have hbare := hunknown d.bare (Descriptor.parse_typeText hd hlook)
  rw [show d.bare.name = d.name from rfl, hname] at hbare
  simp at hbare

/-- A type expression that reads as a registered type is asked of that type. -/
lemma isMember_of_parse (hparse : Descriptor.parse text = .ok d)
    (he : (w.registry r).find? d.name = some e) :
    isMember invoke r text v w = holds invoke r e d v w := by
  rw [isMember, Act.bind_of_pure (resolve_of_parse hparse he)]

/-- A predicate holds if its answer counts as true. -/
lemma returns_holds_iff {w' : World} : (holds invoke r e d v).Returns w true w' ↔
    ∃ answer, (e.ask invoke r v (.descriptor d)).Returns w answer w' ∧
      answer.truth w'.heap = true := by
  rw [holds, Act.returns_bind_iff]
  constructor
  · rintro ⟨answer | answer, w₁, hask, hrest⟩
    · exact absurd (Act.returns_pure_iff.1 hrest).1 (by simp)
    · obtain ⟨htruth, rfl⟩ := Act.returns_pure_iff.1 hrest
      exact ⟨answer, Act.returns_attempt_iff.1 hask, htruth⟩
  · rintro ⟨answer, hask, htruth⟩
    exact ⟨.ok answer, w', Act.returns_attempt_iff.2 hask, Act.returns_pure_iff.2 ⟨htruth, rfl⟩⟩

/-- What is answered decides whether a predicate holds. -/
lemma returns_holds_of_ask {answer : Value} {w' : World}
    (h : (e.ask invoke r v (.descriptor d)).Returns w answer w') :
    (holds invoke r e d v).Returns w (answer.truth w'.heap) w' :=
  Act.returns_bind_iff.2 ⟨.ok answer, w', Act.returns_attempt_iff.2 h,
    Act.returns_pure_iff.2 ⟨rfl, rfl⟩⟩

/-- A predicate that faults does not hold. -/
lemma returns_holds_of_fault {w' : World} {es : List Event}
    (h : e.ask invoke r v (.descriptor d) w = ⟨.error (.fault f), w', es⟩) :
    (holds invoke r e d v).Returns w false w' :=
  Act.returns_bind_iff.2 ⟨.error f, w', Act.returns_of_eq (Act.attempt_of_fault h),
    Act.returns_pure_iff.2 ⟨rfl, rfl⟩⟩

/-! ### Checking a value against a descriptor -/

/-- Whatever has the name of a registered type is asked of that type. -/
lemma matches_of_name {descriptor : Value}
    (hname : descriptor.attribute? "name" = some (.text name))
    (he : (w.registry r).find? name = some e) :
    «matches» invoke r descriptor v w = e.ask invoke r v descriptor w := by
  have hread : Act.orMishap .attribute (descriptor.attribute? "name") w =
      ⟨.ok (.text name), w, []⟩ := by
    rw [hname]
    rfl
  have hlookup : lookup r (.text name) w = ⟨.ok e, w, []⟩ := by rw [lookup_text, he]
  rw [«matches», Act.bind_of_pure hread, Act.bind_of_pure hlookup]

/-- A descriptor of a registered type is asked of that type. -/
lemma matches_of_find? (he : (w.registry r).find? d.name = some e) :
    «matches» invoke r (.descriptor d) v w = e.ask invoke r v (.descriptor d) w :=
  matches_of_name rfl he

/-- A descriptor of a type that is not registered faults. -/
lemma matches_of_unknown (he : (w.registry r).find? d.name = none) :
    «matches» invoke r (.descriptor d) v w =
      ⟨.error (.fault (.unknownType (.text d.name))), w, []⟩ := by
  have hname : Act.orMishap .attribute ((Value.descriptor d).attribute? "name") w =
      ⟨.ok (.text d.name), w, []⟩ := rfl
  have hlookup : lookup r (.text d.name) w =
      ⟨.error (.fault (.unknownType (.text d.name))), w, []⟩ := by rw [lookup_text, he]
  rw [«matches», Act.bind_of_pure hname, Act.bind_of_error hlookup]

/-- **A check accepts what the membership test holds of**: they differ in faults alone. -/
lemma returns_accepts_iff (he : (w.registry r).find? d.name = some e) {w' : World} :
    (accepts invoke r d v).Returns w true w' ↔ (holds invoke r e d v).Returns w true w' := by
  have hask : ∀ answer, («matches» invoke r (.descriptor d) v).Returns w answer w' ↔
      (e.ask invoke r v (.descriptor d)).Returns w answer w' := by
    intro answer
    rw [Act.Returns, Act.Returns, matches_of_find? he]
  rw [returns_holds_iff, accepts, Act.returns_bind_iff]
  constructor
  · rintro ⟨answer | answer, w₁, hattempt, hrest⟩
    · simp only at hrest
      split at hrest
      · exact absurd (Act.returns_pure_iff.1 hrest).1 (by simp)
      · exact absurd hrest Act.not_returns_throw
    · obtain ⟨htruth, rfl⟩ := Act.returns_pure_iff.1 hrest
      exact ⟨answer, (hask answer).1 (Act.returns_attempt_iff.1 hattempt), htruth⟩
  · rintro ⟨answer, hanswer, htruth⟩
    exact ⟨.ok answer, w', Act.returns_attempt_iff.2 ((hask answer).2 hanswer),
      Act.returns_pure_iff.2 ⟨htruth, rfl⟩⟩

/-- A check whose predicate answers with a truth value. -/
lemma accepts_of_matches {b : Bool}
    (h : «matches» invoke r (.descriptor d) v w = ⟨.ok (.bool b), w, []⟩) :
    accepts invoke r d v w = ⟨.ok b, w, []⟩ := by
  rw [accepts, Act.bind_of_pure (Act.attempt_of_ok h)]
  rfl

/-- Faults pass on, but for the rejection of a value as foreign to the parent type. -/
lemma accepts_of_fault (hf : f.isTypeMismatch = false)
    (h : «matches» invoke r (.descriptor d) v w = ⟨.error (.fault f), w, []⟩) :
    accepts invoke r d v w = ⟨.error (.fault f), w, []⟩ := by
  rw [accepts, Act.bind_of_pure (Act.attempt_of_fault h)]
  simp only [hf, Bool.false_eq_true, if_false]
  rfl

/-! ### Base types -/

/-- A predicate of the library answers about a value, its descriptor and the membership test,
however many of them it takes. -/
lemma invoke_predicate (p : NativePredicate) (n : Nat) (descriptor : Value) :
    CallContracts.invoke (n + 1) (predicate p)
        ([v, descriptor, membershipTest r].take (predicate p).predicateArity) [] =
      p.answer (CallContracts.invoke n) v descriptor (membershipTest r) := by
  have hvalues : Call.values p.parameters
      ([v, descriptor, membershipTest r].take (predicate p).predicateArity) [] =
        pure ([v, descriptor, membershipTest r].take (predicate p).predicateArity) := by
    cases p <;> rfl
  rw [predicate, invoke_succ, Value.apply, Function.apply, ← predicate, hvalues, Act.pure_bind]
  cases p <;> rfl

/-- The predicate of a base type is one of the library. -/
lemma ask_base (t : String × NativePredicate × String) (n : Nat) (descriptor : Value) :
    (baseEntry t).ask (CallContracts.invoke (n + 1)) r v descriptor =
      t.2.1.answer (CallContracts.invoke n) v descriptor (membershipTest r) :=
  invoke_predicate t.2.1 n descriptor

/-- A base type whose predicate answers without more ado. -/
lemma holds_base {t : String × NativePredicate × String} {n : Nat} {b : Bool}
    (h : t.2.1.answer (CallContracts.invoke n) v (.descriptor d) (membershipTest r) w =
      ⟨.ok (.bool b), w, []⟩) :
    holds (CallContracts.invoke (n + 1)) r (baseEntry t) d v w = ⟨.ok b, w, []⟩ := by
  have hask : (baseEntry t).ask (CallContracts.invoke (n + 1)) r v (.descriptor d) w =
      ⟨.ok (.bool b), w, []⟩ := by rw [ask_base, h]
  rw [holds, Act.bind_of_pure (Act.attempt_of_ok hask)]
  rfl

/-- A check against a base type whose predicate answers without more ado. -/
lemma accepts_base {t : String × NativePredicate × String} (ht : t ∈ baseTypes)
    (hbase : HasBase (w.registry r)) (hname : d.name = t.1) {n : Nat} {b : Bool}
    (h : t.2.1.answer (CallContracts.invoke n) v (.descriptor d) (membershipTest r) w =
      ⟨.ok (.bool b), w, []⟩) :
    accepts (CallContracts.invoke (n + 1)) r d v w = ⟨.ok b, w, []⟩ := by
  refine accepts_of_matches ?_
  rw [matches_of_find? (hname ▸ hbase t ht), ask_base, h]

/-- Without arguments the type of functions has all callables. -/
lemma answer_isFunction (membership : Value) (hd : d.arguments? = none) :
    NativePredicate.isFunction.answer invoke v (.descriptor d) membership w =
      ⟨.ok (.bool v.isCallable), w, []⟩ := by
  cases hv : v.isCallable with
  | false => simp [NativePredicate.answer, hv, pure, Act.pure]
  | true =>
    have hdescriptor : NativePredicate.descriptorOf (.descriptor d) w = ⟨.ok d, w, []⟩ := rfl
    simp only [NativePredicate.answer, hv, Bool.not_true, Bool.false_eq_true, if_false]
    rw [Act.bind_of_pure hdescriptor]
    simp [hd, pure, Act.pure]

/-- The names of the base types stand for themselves, but for the empty list of parameters. -/
lemma plainName_base {t : String × NativePredicate × String} (ht : t ∈ baseTypes)
    (hunit : t.1 ≠ unitName) : t.1 ≠ "" ∧ Descriptor.PlainName t.1 := by
  have htrimmed : ∀ t ∈ baseTypes, t.1 ≠ "" ∧ Trimmed t.1 := by decide
  have hchars : ∀ t ∈ baseTypes, ∀ c ∈ t.1.toList, c ∉ ['<', '>', '[', ']', ':', ','] := by
    simp [baseTypes]
  exact ⟨(htrimmed t ht).1, (htrimmed t ht).2, hchars t ht, hunit⟩

/-- A base type without label or arguments is canonical, optional or not. -/
lemma canonical_of_base (hdetail : d.detail = .plain) (hunit : d.name ≠ unitName)
    (hbase : ∃ t ∈ baseTypes, d.name = t.1) : d.Canonical := by
  obtain ⟨t, ht, hname⟩ := hbase
  obtain ⟨hne, hplain⟩ := plainName_base ht (hname ▸ hunit)
  rw [← hname] at hne hplain
  exact ⟨hne, hplain.trimmed, hplain.chars, hunit, hdetail ▸ trivial⟩

/-- The name of a base type whose predicate answers without more ado. -/
lemma isMember_base {t : String × NativePredicate × String} (ht : t ∈ baseTypes)
    (hunit : t.1 ≠ unitName) (hbase : HasBase (w.registry r)) {n : Nat} {b : Bool}
    (h : t.2.1.answer (CallContracts.invoke n) v (.descriptor (.ofName t.1)) (membershipTest r) w =
      ⟨.ok (.bool b), w, []⟩) :
    isMember (CallContracts.invoke (n + 1)) r t.1 v w = ⟨.ok b, w, []⟩ := by
  obtain ⟨hne, hplain⟩ := plainName_base ht hunit
  rw [isMember_of_parse (hplain.parse_eq hne) (hbase t ht)]
  exact holds_base h

/-- **With the base types, being a function is being callable.** -/
lemma isMember_callable (hbase : HasBase (w.registry r)) (n : Nat) (v : Value) :
    isMember (CallContracts.invoke (n + 1)) r Enforcer.callableName v w =
      ⟨.ok v.isCallable, w, []⟩ :=
  isMember_base (t := ("function", .isFunction, "* -> function")) (by decide) (by decide) hbase
    (answer_isFunction _ rfl)

/-- Every value is of the type of all values. -/
lemma isMember_top (hbase : HasBase (w.registry r)) (n : Nat) (v : Value) :
    isMember (CallContracts.invoke (n + 1)) r topName v w = ⟨.ok true, w, []⟩ :=
  isMember_base (t := ("*", .anything, "*")) (by decide) (by decide) hbase rfl

/-- Being a boolean is being a truth value. -/
lemma isMember_boolean (hbase : HasBase (w.registry r)) (n : Nat) (v : Value) :
    isMember (CallContracts.invoke (n + 1)) r "boolean" v w = ⟨.ok v.isBool, w, []⟩ :=
  isMember_base (t := ("boolean", .isBoolean, "* -> boolean")) (by decide) (by decide) hbase rfl

/-- Being undefined is being the null value. -/
lemma isMember_undefined (hbase : HasBase (w.registry r)) (n : Nat) (v : Value) :
    isMember (CallContracts.invoke (n + 1)) r "undefined" v w = ⟨.ok v.isNull, w, []⟩ :=
  isMember_base (t := ("undefined", .isNone, "* -> undefined")) (by decide) (by decide) hbase rfl

/-- Being a string is being a text. -/
lemma isMember_string (hbase : HasBase (w.registry r)) (n : Nat) (v : Value) :
    isMember (CallContracts.invoke (n + 1)) r "string" v w = ⟨.ok v.text?.isSome, w, []⟩ :=
  isMember_base (t := ("string", .isString, "* -> string")) (by decide) (by decide) hbase rfl

/-! ### Asking a registry -/

/-- What a program sees: the membership test of a registry, called with a type expression, gives a
tester, and the tester, called with a value, answers at some depth. Where calls nest too deeply
there is no answer: running out of depth passes every handler. Left out is the error that the
language tells of it with, which the tester takes for the answer that the value is not of the
type. -/
def Tests (r : RegistryId) (text : String) (v : Value) (w : World) (b : Bool) (w' : World) : Prop :=
  ∃ (n : Nat) (tester : Value) (w₁ : World),
    (CallContracts.invoke n (membershipTest r) [.text text] []).Returns w tester w₁ ∧
      (CallContracts.invoke n tester [v] []).Returns w₁ (.bool b) w'

/-- A call of a predicate returns. -/
def Answers (predicate : Value) (args : List Value) (w : World) (u : Value) (w' : World) : Prop :=
  ∃ n, (CallContracts.invoke n predicate args []).Returns w u w'

section tests

variable {r : RegistryId} {w w' : World} {text : String} {v tester u : Value} {b : Bool}
  {d : Descriptor} {e : Entry} {n : Nat}

/-- A call of an operation with the values of its parameters. -/
lemma returns_operation_iff {op : Operation} {args values : List Value}
    (hvalues : Call.values op.parameters args [] w = ⟨.ok values, w, []⟩) :
    (CallContracts.invoke (n + 1) (.function (.operation r op)) args []).Returns w u w' ↔
      (op.run (CallContracts.invoke n) r values).Returns w u w' := by
  rw [invoke_succ, Value.apply, Function.apply, Act.returns_bind_of_pure hvalues]

/-- A registered type can be refined: what `subtype` returns is the function that registers its
refinements. -/
lemma returns_subtype_iff {parent : String} {binder : Value} :
    (CallContracts.invoke (n + 1) (.function (.operation r .subtype)) [.text parent] []).Returns w
        binder w' ↔
      (w.registry r).contains parent = true ∧ .function (.binder r parent) = binder ∧ w = w' := by
  have hvalues : Call.values Operation.subtype.parameters [.text parent] [] w =
      ⟨.ok [.text parent], w, []⟩ := rfl
  rw [returns_operation_iff hvalues]
  show (lookup r (.text parent) >>= fun e => pure (Value.function (.binder r e.name))).Returns w
    binder w' ↔ _
  rw [Act.returns_bind_iff, Registry.contains]
  cases he : (w.registry r).find? parent with
  | none => simp [Act.Returns, lookup_text, he]
  | some e => simp [Act.Returns, lookup_text, he, find?_name he, pure, Act.pure, and_comm]

/-- The membership test looks its expression up. -/
lemma invoke_membershipTest :
    CallContracts.invoke (n + 1) (membershipTest r) [.text text] [] =
      resolve r (.text text) >>= fun q => pure (.function (.tester r q.1 q.2)) := by
  have hvalues : Call.values Operation.isTypeOf.parameters [.text text] [] = pure [.text text] :=
    rfl
  rw [membershipTest, invoke_succ, Value.apply, Function.apply, hvalues, Act.pure_bind]
  rfl

/-- A tester answers whether the predicate of its entry holds. -/
lemma invoke_tester :
    CallContracts.invoke (n + 1) (.function (.tester r e d)) [v] [] =
      holds (CallContracts.invoke n) r e d v >>= fun b => pure (.bool b) := by
  have hvalues : Call.values ((Function.tester r e d).parameters?.getD []) [v] [] = pure [v] := rfl
  rw [invoke_succ, Value.apply, Function.apply, hvalues, Act.pure_bind]
  rfl

/-- Testing a part of a value asks whether the part is a member. -/
lemma test_succ :
    NativePredicate.test (CallContracts.invoke (n + 1)) (membershipTest r) text v =
      isMember (CallContracts.invoke n) r text v >>= fun b => pure (.bool b) := by
  rw [NativePredicate.test, invoke_membershipTest, isMember, Act.bind_assoc, Act.bind_assoc]
  simp only [Act.pure_bind, invoke_tester]

/-- The truth of a truth value. -/
lemma truth_bool (x : Act Bool) : NativePredicate.truth (x >>= fun b => pure (.bool b)) = x := by
  have htruth : (fun b : Bool => pure (Value.bool b) >>= fun u =>
      Act.heap >>= fun h => (pure (u.truth h) : Act Bool)) = pure := by
    funext b
    rfl
  rw [NativePredicate.truth, Act.bind_assoc, htruth, Act.bind_pure]

/-- The truth of what a tester answers. -/
lemma truth_tester :
    NativePredicate.truth (CallContracts.invoke (n + 1) (.function (.tester r e d)) [v] []) =
      holds (CallContracts.invoke n) r e d v := by
  rw [invoke_tester, truth_bool]

/-- The truth of what the test of a part answers. -/
lemma truth_test :
    NativePredicate.truth
        (NativePredicate.test (CallContracts.invoke (n + 1)) (membershipTest r) text v) =
      isMember (CallContracts.invoke n) r text v := by
  rw [test_succ, truth_bool]

lemma returns_membershipTest_iff :
    (CallContracts.invoke (n + 1) (membershipTest r) [.text text] []).Returns w tester w' ↔
      ∃ e d, (resolve r (.text text)).Returns w (e, d) w' ∧
        .function (.tester r e d) = tester := by
  rw [invoke_membershipTest, Act.returns_bind_iff]
  simp [Act.returns_pure_iff]

lemma returns_tester_iff :
    (CallContracts.invoke (n + 1) (.function (.tester r e d)) [v] []).Returns w (.bool b) w' ↔
      (holds (CallContracts.invoke n) r e d v).Returns w b w' := by
  rw [invoke_tester, Act.returns_bind_iff]
  simp [Act.returns_pure_iff]

/-- What a program sees is the membership test. -/
lemma tests_iff_isMember :
    Tests r text v w b w' ↔
      ∃ n, (isMember (CallContracts.invoke n) r text v).Returns w b w' := by
  constructor
  · rintro ⟨n, tester, w₁, htester, hanswer⟩
    rcases n with _ | n
    · exact absurd htester Act.not_returns_exhausted
    obtain ⟨e, d, hresolve, rfl⟩ := returns_membershipTest_iff.1 htester
    exact ⟨n, Act.returns_bind_iff.2 ⟨(e, d), w₁, hresolve, returns_tester_iff.1 hanswer⟩⟩
  · rintro ⟨n, h⟩
    obtain ⟨⟨e, d⟩, w₁, hresolve, hholds⟩ := Act.returns_bind_iff.1 h
    exact ⟨n + 1, _, w₁, returns_membershipTest_iff.2 ⟨e, d, hresolve, rfl⟩,
      returns_tester_iff.2 hholds⟩

/-- A value is a member if the expression reads as a registered type whose predicate holds. -/
lemma returns_isMember_iff :
    (isMember (CallContracts.invoke n) r text v).Returns w b w' ↔
      ∃ d e, Descriptor.parse text = .ok d ∧ (w.registry r).find? d.name = some e ∧
        (holds (CallContracts.invoke n) r e d v).Returns w b w' := by
  constructor
  · intro h
    obtain ⟨⟨e, d⟩, w₁, hresolve, hholds⟩ := Act.returns_bind_iff.1 h
    obtain ⟨hparse, he⟩ := parse_of_resolve hresolve.1
    rw [Act.Returns, resolve_of_parse hparse he] at hresolve
    obtain ⟨-, rfl⟩ := hresolve
    exact ⟨d, e, hparse, he, hholds⟩
  · rintro ⟨d, e, hparse, he, hholds⟩
    exact hholds.of_eq (isMember_of_parse hparse he)

/-- For a registered type, what a program sees is whether the predicate holds. -/
lemma tests_iff (hparse : Descriptor.parse text = .ok d)
    (he : (w.registry r).find? d.name = some e) :
    Tests r text v w b w' ↔ ∃ n, (holds (CallContracts.invoke n) r e d v).Returns w b w' := by
  simp only [tests_iff_isMember, Act.Returns, isMember_of_parse hparse he]

/-- What a program sees of a base type whose predicate answers without more ado. -/
lemma tests_base_of_answer {t : String × NativePredicate × String} (ht : t ∈ baseTypes)
    (hunit : t.1 ≠ unitName) (hbase : HasBase (w.registry r))
    (h : t.2.1.answer (CallContracts.invoke 0) v (.descriptor (.ofName t.1)) (membershipTest r) w =
      ⟨.ok (.bool b), w, []⟩) : Tests r t.1 v w b w :=
  tests_iff_isMember.2 ⟨1, Act.returns_of_eq (isMember_base ht hunit hbase h)⟩

end tests

end CallContracts.Registry
