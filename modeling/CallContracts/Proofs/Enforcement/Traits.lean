import CallContracts.Proofs.Enforcement.Moves
import CallContracts.Proofs.Enforcement.Pass
import CallContracts.Proofs.Registry.Membership
import CallContracts.Proofs.World.Traits

/-!
Traits of tests and of checks.

Asking a registry, checking a call and answering for a type of the library come down to asking
predicates. One lemma for each of them says that it has a trait if the predicates that it asks have
it.

* `Registry.Asked`: the predicate of a type has a trait, whatever value it is asked about, and
  `Registry.Tested`: so has the predicate of the type that an expression reads as;
* `Registry.trait_isMember` and `Registry.trait_accepts`: tests and checks of one value;
* `Enforcer.trait_enforced`: **a call of an enforced function**, with the types of its contract;
* `NativePredicate.parts` and `NativePredicate.trait_answer`: **a predicate of the library**, with
  the expressions that it asks the membership test about.
-/

namespace CallContracts

open Act

section traits

variable {P : ∀ ⦃α : Type⦄, Act α → World → Prop} [Trait P] {r : RegistryId} {w : World} {n : ℕ}
  {d : Descriptor} {v : Value} {text : String}

/-! ### Asking a registry -/

namespace Registry

/-- The predicate of a type has a trait at a depth, whatever value it is asked about. -/
def Asked (P : ∀ ⦃α : Type⦄, Act α → World → Prop) (r : RegistryId) (w : World) (n : ℕ)
    (d : Descriptor) : Prop :=
  ∀ e, (w.registry r).find? d.name = some e → ∀ v, P (e.ask (invoke n) r v (.descriptor d)) w

/-- So has the predicate of the type that an expression reads as, if it reads at all. -/
def Tested (P : ∀ ⦃α : Type⦄, Act α → World → Prop) (r : RegistryId) (w : World) (n : ℕ)
    (text : String) : Prop :=
  ∀ d, Descriptor.parse text = .ok d → Asked P r w n d

lemma trait_resolve : P (resolve r (.text text)) w := by
  cases hparse : Descriptor.parse text with
  | error f =>
    refine Trait.of_ends (.error (.signature f)) [] ?_ rfl
    rw [resolve_text, hparse]
    rfl
  | ok d =>
    cases he : (w.registry r).find? d.name with
    | none =>
      refine Trait.of_ends (.error (.unknownType (.text d.name))) [] ?_ rfl
      simp only [resolve_text, hparse, he]
      rfl
    | some e => exact Trait.of_ends (.ok (e, d)) [] (resolve_of_parse hparse he) rfl

lemma trait_holds {e : Entry} (h : P (e.ask (invoke n) r v (.descriptor d)) w) :
    P (holds (invoke n) r e d v) w := by
  refine trait_bind (trait_attempt h) fun answer _ => ?_
  rcases answer with f | answer
  · exact trait_pure false
  · exact trait_bind trait_heap fun _ _ => trait_pure _

lemma trait_isMember (h : Tested P r w n text) : P (isMember (invoke n) r text v) w := by
  refine trait_bind trait_resolve fun q hresolve => ?_
  obtain ⟨hparse, he⟩ := parse_of_resolve hresolve
  exact trait_holds (h q.2 hparse q.1 he v)

lemma trait_matches (h : Asked P r w n d) : P («matches» (invoke n) r (.descriptor d) v) w := by
  rcases he : (w.registry r).find? d.name with _ | e
  · exact Trait.of_ends (.error _) [] (matches_of_unknown he) rfl
  · exact Trait.of_eq (matches_of_find? he).symm (h e he v)

lemma trait_accepts (h : Asked P r w n d) : P (accepts (invoke n) r d v) w := by
  refine trait_bind (trait_attempt (trait_matches h)) fun answer _ => ?_
  rcases answer with f | answer
  · simp only
    split_ifs
    · exact trait_pure false
    · exact trait_throw f
  · exact trait_bind trait_heap fun _ _ => trait_pure _

end Registry

/-! ### Checking calls -/

namespace Stage

variable {accepts : Descriptor → Value → Act Bool}

lemma trait_step (h : ∀ v, P (accepts d v) w) (consumed : ℕ) (values : List Value) :
    P (step accepts consumed d values) w := by
  by_cases hmarker : values.head?.any Value.isAbsent = true ∧ d.optional = true
  · rw [step_of_marker hmarker.1 hmarker.2]
    exact trait_pure _
  · rw [step_of_asked (by simpa using hmarker)]
    refine trait_bind (h _) fun b _ => ?_
    split_ifs
    · exact trait_pure _
    · exact trait_pure _
    · exact trait_throw _

/-- By induction on the descriptors that are left. -/
lemma trait_verifyFrom {s : Stage} (h : ∀ d ∈ s, ∀ v, P (accepts d v) w) (consumed : ℕ)
    (values : List Value) : P (verifyFrom accepts consumed values s) w := by
  induction s generalizing consumed values with
  | nil => exact trait_throw _
  | cons d s ih =>
    rw [List.forall_mem_cons] at h
    have hproceed : ∀ consumed verdict values,
        P (proceed accepts consumed d s verdict values) w := by
      intro consumed verdict values
      rw [proceed]
      split_ifs
      · exact trait_throw _
      · exact trait_pure verdict
      · exact ih h.2 consumed values
    rw [verifyFrom_cons]
    refine trait_bind (trait_step h.1 consumed values) fun verdict _ => ?_
    split_ifs
    · exact hproceed _ _ _
    · exact hproceed _ _ _

end Stage

namespace Enforcer

open Registry

variable {target : Signed} {args : List Value} {kw : Call.Keywords Value}

lemma inspects_positionalValues {ps? : Option (List (Parameter Value))} :
    Inspects (positionalValues ps? args kw) := by
  simp only [positionalValues]
  split_ifs
  · exact inspects_pure args
  · cases ps? with
    | none => exact inspects_pure args
    | some ps => exact inspects_bind (Act.inspects_orMishap _ _) fun _ => inspects_pure _

lemma inspects_signWith {t : Tree} {raw : String} {context : Value} {binds : Bool} :
    Inspects (signWith t raw v context binds) := by
  cases v with
  | function f =>
    refine inspects_bind ?_ fun _ => inspects_pure _
    cases Signature.checkCount t
        (Value.function (.signed (.plain f t raw context binds))).parameterCount with
    | error e => exact inspects_throw _
    | ok _ => exact inspects_pure ()
  | _ => exact inspects_refuse _

/-- The check of a call's values asks for the types of the first stage. -/
lemma trait_checkValues (h : ∀ d ∈ target.tree.parameters?.getD [], Asked P r w n d) :
    P (checkValues (invoke n) r target args kw) w := by
  refine trait_bind inspects_positionalValues.trait fun values _ =>
    trait_bind (trait_attempt (Stage.trait_verifyFrom (fun d hd _ => trait_accepts (h d hd)) 0
      values)) fun verdict _ => ?_
  rcases verdict with f | verdict
  · simp only
    split_ifs
    · exact trait_bind trait_heap fun _ _ => trait_bind (trait_log _) fun _ _ => trait_throw f
    · exact trait_throw f
  · exact trait_pure ()

/-- The check of its result asks for one type. -/
lemma trait_checkResult (h : Tested P r w n (resultType target.tree.remaining)) (result : Value) :
    P (checkResult (invoke n) r target result) w := by
  refine trait_bind (trait_isMember h) fun member _ => ?_
  split_ifs
  · exact trait_bind inspects_signWith.trait fun _ _ => trait_pure _
  · exact trait_pure result
  · exact trait_bind trait_heap fun _ _ => trait_bind (trait_log _) fun _ _ => trait_throw _

/-- **A call of an enforced function** asks for the types of its contract and calls what is behind
it. -/
lemma trait_enforced (hvalues : ∀ d ∈ target.tree.parameters?.getD [], Asked P r w n d)
    (hresult : Tested P r w n (resultType target.tree.remaining))
    (hcall : P (invoke n (.function (.signed target)) args []) w) :
    P (invoke (n + 1) (.function (.signed (.enforced target r))) args []) w := by
  rw [invoke_enforced n rfl, call]
  exact trait_bind (trait_checkValues hvalues) fun _ _ => trait_bind hcall fun answer _ =>
    trait_checkResult hresult answer

end Enforcer

/-! ### Predicates of the library -/

namespace NativePredicate

open Registry

/-- The expressions that a predicate of the library may ask the membership test about. -/
def parts (p : NativePredicate) (d : Descriptor) : List String :=
  match p with
  | .isArray | .isTuple | .isTaggedUnion => d.arguments?.getD []
  | .isBoundedInt => [boundedExpression (d.arguments?.getD [])]
  | _ => []

lemma trait_truth {x : Act Value} (h : P x w) : P (truth x) w :=
  trait_bind h fun _ _ => trait_bind trait_heap fun _ _ => trait_pure _

lemma trait_test (h : Tested P r w n text) :
    P (test (invoke (n + 1)) (membershipTest r) text v) w := by
  rw [test_succ]
  exact trait_bind (trait_isMember h) fun _ _ => trait_pure _

/-- The tester of the items is asked for once. -/
lemma trait_isArrayOf {items : List Value} (h : ∀ t ∈ d.arguments?.getD [], Tested P r w n t) :
    P (isArrayOf (invoke (n + 1)) items d (membershipTest r)) w := by
  simp only [isArrayOf]
  split_ifs with htop
  · exact trait_pure true
  · have helement : Tested P r w n (((d.arguments?.getD []).head?).getD "*") := by
      cases htypes : d.arguments?.getD [] with
      | nil => simp [htypes] at htop
      | cons t ts => exact h t (by simp [htypes])
    rw [invoke_membershipTest, Act.bind_assoc]
    refine trait_bind trait_resolve fun q hresolve => ?_
    obtain ⟨hparse, he⟩ := parse_of_resolve hresolve
    simp only [Act.pure_bind, truth_tester]
    exact trait_all fun x _ => trait_holds (helement q.2 hparse q.1 he x)

lemma trait_isTupleOf (h : ∀ t ∈ d.arguments?.getD [], Tested P r w n t) :
    P (isTupleOf (invoke (n + 1)) v d (membershipTest r)) w := by
  refine trait_bind (inspects_sizeOf v).trait fun size _ => ?_
  split_ifs
  · exact trait_pure false
  · refine trait_bind trait_heap fun _ _ => trait_bind (inspects_orMishap _ _).trait fun _ _ => ?_
    exact trait_all fun q hq => trait_truth (trait_test (h q.1 (List.of_mem_zip hq).1))

/-- **A predicate of the library** asks for the tests of its parts. -/
lemma trait_answer (p : NativePredicate) (h : ∀ t ∈ p.parts d, Tested P r w n t) :
    P (p.answer (invoke (n + 1)) v (.descriptor d) (membershipTest r)) w := by
  cases p with
  | isArray =>
    refine trait_bind trait_heap fun heap _ => ?_
    split
    · exact trait_pure _
    · rw [descriptorOf, Act.pure_bind]
      exact trait_bind (trait_isArrayOf h) fun _ _ => trait_pure _
  | isBoundedInt =>
    rw [answer, descriptorOf, Act.pure_bind]
    refine trait_bind (inspects_typeArguments d 2).trait fun types htypes => ?_
    obtain rfl : d.arguments?.getD [] = types := by
      rw [typeArguments] at htypes
      split_ifs at htypes
      · simp [Act.refuse, Act.throw] at htypes
      · exact Except.ok.inj htypes
    exact trait_test (h _ (List.mem_singleton_self _))
  | isTuple =>
    rw [answer, descriptorOf, Act.pure_bind]
    exact trait_bind (trait_isTupleOf h) fun _ _ => trait_pure _
  | isTaggedUnion =>
    rw [answer, descriptorOf, Act.pure_bind]
    exact trait_bind (trait_any fun t ht => trait_truth (trait_test (h t ht))) fun _ _ =>
      trait_pure _
  | _ => exact (inspects_answer rfl _ _ _).trait

end NativePredicate

end traits

end CallContracts
