import CallContracts.Proofs.Enforcement.Returning
import CallContracts.Proofs.Registry.Refining
import CallContracts.Proofs.World.Yielding

/-!
The values of a refinement are of its parent's type.

Nothing asks a value for the parent's type but the contract of the predicate, which was enforced
when the refinement was registered.

* `Registry.returns_enforcedOn_iff`: what the enforced predicate makes of one value;
* `Registry.refined_of_parent`: **a value is of a refinement** exactly if it is of the parent's type
  and the predicate answers that this is true, and, by induction on a chain of refinements, a value
  of the last is of all above it.
-/

namespace CallContracts

namespace Registry

/-! ### One refinement -/

section step

variable {r : RegistryId} {w w' : World} {parent : Entry} {d required : Descriptor}
  {v answer : Value} {f : Function} {n : Nat} {chain name raw : String}

/-- The values that a predicate is given besides the first are what the contract of a refinement
asks for. -/
lemma proceed_refinementRest (hbase : HasBase (w.registry r)) (arity : Nat) :
    Stage.proceed (accepts (invoke (n + 1)) r) 1 required refinementRest .accept
      ([.descriptor d, membershipTest r].take arity) w = ⟨.ok .accept, w, []⟩ := by
  have hobject : accepts (invoke (n + 1)) r ⟨"object", .plain, true⟩ (.descriptor d) w =
      ⟨.ok true, w, []⟩ :=
    accepts_base (t := ("object", .isObject, "* -> object")) (by decide) hbase rfl rfl
  have hfunction : accepts (invoke (n + 1)) r ⟨"function", .plain, true⟩ (membershipTest r) w =
      ⟨.ok true, w, []⟩ :=
    accepts_base (t := ("function", .isFunction, "* -> function")) (by decide) hbase rfl
      (answer_isFunction _ rfl)
  match arity with
  | 0 => rfl
  | 1 =>
    rw [refinementRest, List.take_succ_cons, List.take_zero,
      Stage.proceed_of_accepts rfl hobject]
    rfl
  | arity + 2 =>
    rw [refinementRest, List.take_succ_cons, List.take_succ_cons,
      Stage.proceed_of_accepts rfl hobject,
      Stage.proceed_of_accepts rfl hfunction]
    simp [Stage.proceed, pure, Act.pure]

/-- The arguments of the predicate of a refinement pass their check if the value is accepted as one
of the required type; the marker of a parameter left out is taken for the null value. -/
lemma returns_verifyAgainst_contractOn_iff (hbase : HasBase (w.registry r))
    (hrequired : required.optional = false) (arity : Nat) :
    (∃ verdict, (Enforcer.verifyAgainst (invoke (n + 1)) r (contractOn required)
        (v :: [.descriptor d, membershipTest r].take arity)).Returns w verdict w') ↔
      (accepts (invoke (n + 1)) r required (Stage.presented v)).Returns w true w' := by
  have hproceed : ∀ {w₁ : World},
      (accepts (invoke (n + 1)) r required (Stage.presented v)).Returns w true w₁ →
        Stage.proceed (accepts (invoke (n + 1)) r) 1 required refinementRest .accept
          ([.descriptor d, membershipTest r].take arity) w₁ = ⟨.ok .accept, w₁, []⟩ := by
    intro w₁ h
    have hkeeps : w.Extends w₁ := h.2 ▸ accepts_extends (n + 1) _ _ _ w
    exact proceed_refinementRest (hbase.extends hkeeps) arity
  constructor
  · rintro ⟨verdict, h⟩
    obtain ⟨w₁, hfirst, hrest⟩ := (Stage.returns_verifyFrom_cons_iff hrequired).1 h
    obtain ⟨-, rfl⟩ := (Act.returns_pure_iff (a := Verdict.accept)).1
      (hrest.of_eq (hproceed hfirst).symm)
    exact hfirst
  · intro h
    exact ⟨.accept, (Stage.returns_verifyFrom_cons_iff hrequired).2
      ⟨w', h, Act.returns_of_eq (hproceed h)⟩⟩

/-- The one truth value that counts as true. -/
lemma eq_true_of_isBool {h : Heap} (hbool : v.isBool = true) (htruth : v.truth h = true) :
    v = .bool true := by
  simp only [Value.isBool] at hbool
  split at hbool
  · next b => rw [show b = true from htruth]
  · simp at hbool

/-- **A call of the predicate of a refinement returns** what the predicate returns, if the value is
accepted as one of the required type and what is returned is a truth value. -/
lemma returns_enforcedOn_iff (hbase : HasBase (w.registry r))
    (hrequired : required.optional = false) (harity : 1 ≤ (Value.function f).predicateArity) :
    (invoke (n + 2) (enforcedOn r required raw f) ([v, .descriptor d, membershipTest r].take
        (Value.function f).predicateArity) []).Returns w answer w' ↔
      ∃ w₁, (accepts (invoke (n + 1)) r required (Stage.presented v)).Returns w true w₁ ∧
        (invoke n (.function f) ([v, .descriptor d, membershipTest r].take
          (Value.function f).predicateArity) []).Returns w₁ answer w' ∧ answer.isBool = true := by
  obtain ⟨arity, hsucc⟩ : ∃ arity, (Value.function f).predicateArity = arity + 1 :=
    ⟨_, (Nat.sub_add_cancel harity).symm⟩
  have hmember : ∀ {w₁ w₂ : World},
      (accepts (invoke (n + 1)) r required (Stage.presented v)).Returns w true w₁ →
        (invoke n (.function f) (v :: [.descriptor d, membershipTest r].take arity) []).Returns w₁
          answer w₂ →
        isMember (invoke (n + 1)) r "boolean" answer w₂ = ⟨.ok answer.isBool, w₂, []⟩ := by
    intro w₁ w₂ haccepts hcall
    have hkeeps : w.Extends w₁ := haccepts.2 ▸ accepts_extends (n + 1) _ _ _ w
    have hkeeps' : w₁.Extends w₂ := hcall.2 ▸ invoke_extends n _ _ _ w₁
    exact isMember_boolean (hbase.extends (hkeeps.trans hkeeps')) n answer
  rw [hsucc, List.take_succ_cons]
  constructor
  · intro h
    obtain ⟨w₁, w₂, verdict, hverify, hcall, hresult⟩ := (Enforcer.returns_call_iff rfl).1 h
    have haccepts := (returns_verifyAgainst_contractOn_iff hbase hrequired _).1 ⟨_, hverify⟩
    obtain ⟨hbool, rfl⟩ := (Act.returns_pure_iff (a := answer.isBool)).1
      (hresult.of_eq (hmember haccepts hcall).symm)
    exact ⟨w₁, haccepts, hcall, hbool⟩
  · rintro ⟨w₁, haccepts, hcall, hbool⟩
    obtain ⟨verdict, hverify⟩ :=
      (returns_verifyAgainst_contractOn_iff hbase hrequired arity).2 haccepts
    have hresult := hmember haccepts hcall
    rw [hbool] at hresult
    exact (Enforcer.returns_call_iff rfl).2
      ⟨w₁, w', verdict, hverify, hcall, Act.returns_of_eq hresult⟩

/-- A value that is accepted at once as one of the required type is handed on to the predicate. -/
lemma invoke_enforcedOn_of_accepts (hbase : HasBase (w.registry r))
    (hrequired : required.optional = false) (harity : 1 ≤ (Value.function f).predicateArity)
    (haccepts : accepts (invoke (n + 1)) r required (Stage.presented v) w = ⟨.ok true, w, []⟩) :
    invoke (n + 2) (enforcedOn r required raw f) ([v, .descriptor d, membershipTest r].take
        (Value.function f).predicateArity) [] w =
      (invoke n (.function f) ([v, .descriptor d, membershipTest r].take
          (Value.function f).predicateArity) [] >>=
        Enforcer.checkResult (invoke (n + 1)) r (.plain f (contractOn required) raw .null true))
          w := by
  obtain ⟨arity, hsucc⟩ : ∃ arity, (Value.function f).predicateArity = arity + 1 :=
    ⟨_, (Nat.sub_add_cancel harity).symm⟩
  rw [hsucc, List.take_succ_cons]
  have hverify : Enforcer.verifyAgainst (invoke (n + 1)) r (contractOn required)
      (v :: [.descriptor d, membershipTest r].take arity) w = ⟨.ok .accept, w, []⟩ := by
    show Stage.verifyFrom _ _ _ (required :: refinementRest) w = _
    rw [Stage.verifyFrom_required hrequired, Act.bind_of_pure haccepts]
    exact proceed_refinementRest hbase arity
  have hvalues : Enforcer.checkValues (invoke (n + 1)) r (.plain f (contractOn required) raw .null
      true) (v :: [.descriptor d, membershipTest r].take arity) [] w = ⟨.ok (), w, []⟩ :=
    (Act.bind_of_pure rfl).trans (Act.bind_of_pure (Act.attempt_of_ok hverify))
  rw [enforcedOn, Enforcer.invoke_enforced (n + 1) rfl, Enforcer.call, Act.bind_of_pure hvalues,
    Enforcer.invoke_plain n rfl]

/-- **A value is of a refinement** if it is accepted as one of the parent's type and the predicate
answers that this is true. -/
lemma returns_holds_enforcedOn_iff (hbase : HasBase (w.registry r))
    (hrequired : required.optional = false) (harity : 1 ≤ (Value.function f).predicateArity) :
    (holds (invoke (n + 2)) r (newEntry chain name (enforcedOn r required raw f)) d v).Returns w
        true w' ↔
      ∃ w₁, (accepts (invoke (n + 1)) r required (Stage.presented v)).Returns w true w₁ ∧
        (invoke n (.function f) ([v, .descriptor d, membershipTest r].take
          (Value.function f).predicateArity) []).Returns w₁ (.bool true) w' := by
  rw [returns_holds_iff, Entry.ask, Entry.arguments, newEntry, enforcedOn, predicateArity_enforced,
    ← enforcedOn]
  simp only [returns_enforcedOn_iff hbase hrequired harity]
  constructor
  · rintro ⟨answer, ⟨w₁, haccepts, hcall, hbool⟩, htruth⟩
    obtain rfl : answer = .bool true := eq_true_of_isBool hbool htruth
    exact ⟨w₁, haccepts, hcall⟩
  · rintro ⟨w₁, haccepts, hcall⟩
    exact ⟨.bool true, ⟨w₁, haccepts, hcall, rfl⟩, rfl⟩

/-- **What a refinement asks of a value**, at whatever depths: that it is of the parent's type, and
then that the predicate answers that this is true. -/
lemma yields_holds_enforcedOn_iff (hbase : HasBase (w.registry r))
    (hrequired : required.optional = false)
    (hparent : (w.registry r).find? required.name = some parent)
    (harity : 1 ≤ (Value.function f).predicateArity) :
    Act.Yields (fun n => holds (invoke n) r (newEntry chain name (enforcedOn r required raw f))
        d v) w true w' ↔
      ∃ w₁, Act.Yields (fun n => holds (invoke n) r parent required (Stage.presented v)) w true w₁ ∧
        Answers (.function f) ([v, .descriptor d, membershipTest r].take
          (Value.function f).predicateArity) w₁ (.bool true) w' := by
  rw [← Act.yields_shift_iff (rising_holds r _ d v) 2]
  simp only [Act.Yields, returns_holds_enforcedOn_iff hbase hrequired harity,
    returns_accepts_iff hparent]
  constructor
  · rintro ⟨n, w₁, hholds, hanswer⟩
    exact ⟨w₁, ⟨n + 1, hholds⟩, n, hanswer⟩
  · rintro ⟨w₁, ⟨n, hholds⟩, m, hanswer⟩
    refine ⟨max n m, w₁, ?_, ?_⟩
    · exact (rising_holds _ _ _ _).returns (by omega) hholds
    · exact (rising_invoke _ _ _).returns (le_max_right n m) hanswer

end step

/-! ### The law -/

/-- A type was registered as a refinement of another, whose name stands for itself. -/
def Refines (r : RegistryId) (w : World) (name parent : String) : Prop :=
  Descriptor.PlainName parent ∧ ∃ predicate, Refined r parent name predicate w

section law

variable {r : RegistryId} {w : World} {parent name text : String} {predicate v : Value}
  {d : Descriptor}

/-- A value is of a refinement if it is of the parent's type and the predicate answers that this
is true. -/
lemma tests_refined_iff (hbase : HasBase (w.registry r)) (hparent : Descriptor.PlainName parent)
    (hrefined : Refined r parent name predicate w) (hparse : Descriptor.parse text = .ok d)
    (hname : d.name = name) (hv : v.isAbsent = false) (w' : World) :
    Tests r text v w true w' ↔ ∃ w₁, Tests r parent v w true w₁ ∧
      Answers predicate ([v, .descriptor d, membershipTest r].take predicate.predicateArity) w₁
        (.bool true) w' := by
  obtain ⟨f, chain, rfl, harity, hne, hcontains, he⟩ := hrefined.exists_entry hparent
  obtain ⟨parentEntry, hparentEntry⟩ := Option.isSome_iff_exists.1 hcontains
  rw [tests_iff hparse (hname.symm ▸ he)]
  simp only [tests_iff (hparent.parse_eq hne) hparentEntry]
  have hrequired : (Descriptor.ofName parent).optional = false := rfl
  refine (yields_holds_enforcedOn_iff hbase hrequired hparentEntry harity).trans ?_
  rw [Stage.presented_of_not_absent hv]
  rfl

/-- **Refinements are of their parents' types.** A value is of a refinement, with whatever
arguments, if it is of the parent's type and the predicate, called with as many of the value, the
descriptor and the membership test as it takes, answers exactly that this is true; the call of the
predicate comes after that of the parent's. So along a chain of refinements of any length the values
of a type are of all types above it. -/
theorem refined_of_parent (hbase : HasBase (w.registry r)) (hparent : Descriptor.PlainName parent)
    (hrefined : Refined r parent name predicate w) (hparse : Descriptor.parse text = .ok d)
    (hname : d.name = name) (hv : v.isAbsent = false) :
    (∀ w', Tests r text v w true w' ↔ ∃ w₁, Tests r parent v w true w₁ ∧
      Answers predicate ([v, .descriptor d, membershipTest r].take predicate.predicateArity) w₁
        (.bool true) w') ∧
    ∀ ancestor, Relation.TransGen (Refines r w) name ancestor →
      (∃ w', Tests r text v w true w') → ∃ w', Tests r ancestor v w true w' := by
  refine ⟨tests_refined_iff hbase hparent hrefined hparse hname hv, fun ancestor hchain htext => ?_⟩
  suffices h : Descriptor.parse ancestor = .ok (.ofName ancestor) ∧
      ∃ w', Tests r ancestor v w true w' from h.2
  -- one refinement after the other, from the type up
  induction hchain with
  | single hstep =>
    obtain ⟨hplain, p, hp⟩ := hstep
    obtain ⟨-, -, -, -, hne, -⟩ := hp.exists_entry hplain
    obtain ⟨w', h⟩ := htext
    obtain ⟨w₁, h₁, -⟩ := (tests_refined_iff hbase hplain hp hparse hname hv w').1 h
    exact ⟨hplain.parse_eq hne, w₁, h₁⟩
  | tail _ hstep ih =>
    obtain ⟨hbelow, w', h⟩ := ih
    obtain ⟨hplain, p, hp⟩ := hstep
    obtain ⟨-, -, -, -, hne, -⟩ := hp.exists_entry hplain
    obtain ⟨w₁, h₁, -⟩ := (tests_refined_iff hbase hplain hp hbelow rfl hv w').1 h
    exact ⟨hplain.parse_eq hne, w₁, h₁⟩

/-- Whole numbers, registered as a refinement of the numbers: 5 is one with an argument or without,
and it is a number. -/
theorem refined_of_parent_whole :
    ∃ w, HasBase (w.registry 0) ∧ Refined 0 "number" "whole" (Registry.predicate .isInt) w ∧
      Answers (Registry.predicate .isInt) [.int 5] w (.bool true) w ∧
        Tests 0 "whole<a>" (.int 5) w true w ∧ ∃ w', Tests 0 "number" (.int 5) w true w' := by
  have hnumber : Descriptor.PlainName "number" := ⟨by decide, by simp, by decide⟩
  obtain ⟨reg, hreg⟩ : ∃ reg, (world.registry 0).insert? (newEntry
      ((world.registry 0).typeChain "number") "whole"
        (refinementPredicate 0 "number" (.predicate .isInt))) = some reg := by
    rw [← Option.isSome_iff_exists, insert?_isSome]
    rfl
  let w := world.setRegistry 0 reg
  have hrefined : Refined 0 "number" "whole" (Registry.predicate .isInt) w :=
    refined_setRegistry hnumber (by decide) hasBase_base rfl rfl rfl hreg
  have hbase : HasBase (w.registry 0) :=
    HasBase.extends (w := world) hasBase_base (World.IsMove.register hreg)
  have hanswers : Answers (Registry.predicate .isInt) [.int 5] w (.bool true) w := ⟨1, rfl, rfl⟩
  have htests : Tests 0 "number" (.int 5) w true w :=
    tests_base_of_answer (t := ("number", .isNumber, "* -> number")) (by decide) (by decide) hbase
      rfl
  have hparse : Descriptor.parse "whole<a>" = .ok ⟨"whole", .arguments ["a"], false⟩ := rfl
  obtain ⟨hrefines, hchain⟩ := refined_of_parent (v := .int 5) hbase hnumber hrefined hparse rfl rfl
  have hwhole : Tests 0 "whole<a>" (.int 5) w true w := (hrefines w).2 ⟨w, htests, hanswers⟩
  exact ⟨w, hbase, hrefined, hanswers, hwhole,
    hchain "number" (.single ⟨hnumber, _, hrefined⟩) ⟨w, hwhole⟩⟩

end law

end Registry

end CallContracts
