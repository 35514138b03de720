import CallContracts.Proofs.Registry.Order
import CallContracts.Proofs.Registry.Union
import CallContracts.Proofs.World.Reaching

/-!
Membership in a registry that grows.

Names inside a type expression are looked up each time that a value is tested, so a type that is
registered later may change what a test goes through.

* `Registry.Conventional`: a registry of types from the library, other names for type expressions,
  and types whose predicates do not look at the registry;
* `Registry.Grown`: a registry has grown, and no predicate has side effects, before and after;
* `Registry.Grown.kept`: what a predicate answers true it does not answer otherwise in the grown
  registry, by induction on the depth to which calls nest;
* `Registry.tests_registered`: **registering types never revokes membership**, and
  `Registry.conventional_of_run`: it leaves a conventional registry behind again, if the predicates
  do not look at the registry;
* `Registry.not_forall_tests_registered`: in general a registration can revoke membership.
-/

namespace CallContracts.Registry

open Act NativePredicate Signature.Grammar

variable {r : RegistryId} {w w' w₁ : World} {n : ℕ} {p u v : Value} {e : Entry} {d : Descriptor}
  {text : String} {f : Function} {b : Bool}

/-! ### Conventional registries -/

/-- A predicate does not look at a registry: its answers are the same in worlds that differ in this
registry alone. -/
def Independent (r : RegistryId) (p : Value) : Prop :=
  ∀ n v d w w', Registration.Beside r w w' →
    (invoke n p ([v, .descriptor d, membershipTest r].take p.predicateArity) [] w').outcome =
      (invoke n p ([v, .descriptor d, membershipTest r].take p.predicateArity) [] w).outcome

/-- A predicate of the library, or one that does not look at the registry. -/
def Tame (r : RegistryId) (p : Value) : Prop := (∃ q, p = predicate q) ∨ Independent r p

/-- The predicates of a conventional registry: tame ones, as they are or enforced against a type
that a value must be of, and those of other names for type expressions. -/
inductive Customary (r : RegistryId) (reg : Registry) : Value → Prop
  | plain {p : Value} : Tame r p → Customary r reg p
  | refinement {required : Descriptor} {raw : String} {f : Function} :
    required.optional = false → 1 ≤ (Value.function f).predicateArity → Tame r (.function f) →
      Customary r reg (enforcedOn r required raw f)
  | synonym {e : Entry} {d : Descriptor} :
    reg.find? d.name = some e → Customary r reg (.function (.tester r e d))

/-- A registry of types from the library, other names for type expressions, and types whose
predicates do not look at the registry. -/
def Conventional (r : RegistryId) (reg : Registry) : Prop :=
  ∀ e ∈ reg.entries, e.arity = e.predicate.predicateArity ∧ Customary r reg e.predicate

/-! ### Growth -/

/-- A conventional registry has grown, nothing else in the world has changed, and no predicate has
side effects, before and after. -/
structure Grown (r : RegistryId) (w w' : World) : Prop where
  base : HasBase (w.registry r)
  conventional : Conventional r (w.registry r)
  beside : Registration.Beside r w w'
  «extends» : w.Extends w'
  quiet : SideEffectFree r w
  quiet' : SideEffectFree r w'

/-- At some depth, what the predicate of a registered type answers in one world, if it counts as
true, is within reach in another. -/
def Kept (r : RegistryId) (w w' : World) (n : ℕ) : Prop :=
  ∀ d e v u, (w.registry r).find? d.name = some e →
    (e.ask (invoke n) r v (.descriptor d)).Returns w u w → u.truth w.heap = true →
      (e.ask (invoke n) r v (.descriptor d)).Reaches w' u

/-- A predicate whose answer is a truth value. -/
lemma reaches_bool {x : Act Bool} (hx : ∀ {w₁}, x.Returns w true w₁ → x.Reaches w' true)
    (h : (x >>= fun b => pure (.bool b)).Returns w u w₁) (htruth : u.truth w.heap = true) :
    (x >>= fun b => pure (.bool b)).Reaches w' u := by
  obtain ⟨b, w₂, hb, hpure⟩ := returns_bind_iff.1 h
  obtain ⟨rfl, rfl⟩ := returns_pure_iff.1 hpure
  obtain rfl : b = true := htruth
  exact (hx hb).bind fun _ _ => reaches_pure _

namespace Grown

variable (hg : Grown r w w')

include hg

/-- What looks at the heap and the host alone returns the same in the grown registry. -/
lemma reaches_of_inspects {α : Type} {x : Act α} {a : α} (hx : Inspects x)
    (h : x.Returns w a w₁) : x.Reaches w' a :=
  hx.reaches hg.beside.heap hg.beside.host h

/-! ### Tests -/

lemma reaches_holds (ih : Kept r w w' n) (he : (w.registry r).find? d.name = some e)
    (h : (holds (invoke n) r e d v).Returns w true w) :
    (holds (invoke n) r e d v).Reaches w' true := by
  obtain ⟨u, hask, htruth⟩ := returns_holds_iff.1 h
  refine (ih d e v u he hask htruth).attempt.bind_quiet
    (hg.quiet' d e (hg.extends.find? he) n v).attempt (.inl ?_)
  show Except.ok (u.truth w'.heap) = Except.ok true
  rw [hg.beside.heap, htruth]

lemma reaches_isMember (ih : Kept r w w' n)
    (h : (isMember (invoke n) r text v).Returns w true w) :
    (isMember (invoke n) r text v).Reaches w' true := by
  obtain ⟨d, e, hparse, he, hholds⟩ := returns_isMember_iff.1 h
  rw [Reaches, isMember_of_parse hparse (hg.extends.find? he)]
  exact hg.reaches_holds ih he hholds

/-- A test that ends in one world does not fault in the other. -/
lemma ends_isMember (h : (isMember (invoke n) r text v).Returns w b w) :
    ∃ b, (isMember (invoke n) r text v).Reaches w' b := by
  obtain ⟨d, e, hparse, he, -⟩ := returns_isMember_iff.1 h
  simp only [Reaches, isMember_of_parse hparse (hg.extends.find? he)]
  rcases hholds : (holds (invoke n) r e d v w').outcome with (fault | -) | b
  · exact absurd hholds holds_ne_fault
  · exact ⟨false, .inr rfl⟩
  · exact ⟨b, .inl rfl⟩

lemma reaches_accepts (ih : Kept r w w' n) (h : (accepts (invoke n) r d v).Returns w true w) :
    (accepts (invoke n) r d v).Reaches w' true := by
  rcases he : (w.registry r).find? d.name with _ | e
  · obtain ⟨answer, w₁, hattempt, hrest⟩ := returns_bind_iff.1 h
    have hunknown : attempt («matches» (invoke n) r (.descriptor d) v) w =
        ⟨.ok (.error (.unknownType (.text d.name))), w, []⟩ :=
      attempt_of_fault (matches_of_unknown he)
    obtain ⟨rfl, -⟩ : .error (.unknownType (.text d.name)) = answer ∧ w = w₁ := by
      simpa [Returns, hunknown] using hattempt
    exact absurd hrest not_returns_throw
  · obtain ⟨u, hask, htruth⟩ := returns_holds_iff.1 ((returns_accepts_iff he).1 h)
    have hmatches : («matches» (invoke n) r (.descriptor d) v).Reaches w' u := by
      rw [Reaches, matches_of_find? (hg.extends.find? he)]
      exact ih d e v u he hask htruth
    refine hmatches.attempt.bind_quiet ((hg.quiet'.at n).matches d v).attempt (.inl ?_)
    show Except.ok (u.truth w'.heap) = Except.ok true
    rw [hg.beside.heap, htruth]

/-! ### Predicates of the library -/

/-- The truth of the test of a part is within reach. -/
lemma reaches_truth_test (ih : ∀ k < n, Kept r w w' k)
    (h : (truth (test (invoke n) (membershipTest r) text v)).Returns w true w) :
    (truth (test (invoke n) (membershipTest r) text v)).Reaches w' true := by
  rcases n with _ | n
  · obtain ⟨_, _, htest, -⟩ := returns_bind_iff.1 h
    obtain ⟨_, _, hmembership, -⟩ := returns_bind_iff.1 htest
    exact absurd hmembership not_returns_exhausted
  · rw [truth_test] at h ⊢
    exact hg.reaches_isMember (ih n n.lt_succ_self) h

lemma ends_truth_test (h : (truth (test (invoke n) (membershipTest r) text v)).Returns w b w) :
    ∃ b, (truth (test (invoke n) (membershipTest r) text v)).Reaches w' b := by
  rcases n with _ | n
  · exact ⟨false, .inr rfl⟩
  · simp only [truth_test] at h ⊢
    exact hg.ends_isMember h

/-- The test of a part is within reach. -/
lemma reaches_test (ih : ∀ k < n, Kept r w w' k)
    (h : (test (invoke n) (membershipTest r) text v).Returns w u w)
    (htruth : u.truth w.heap = true) :
    (test (invoke n) (membershipTest r) text v).Reaches w' u := by
  rcases n with _ | n
  · obtain ⟨_, _, hmembership, -⟩ := returns_bind_iff.1 h
    exact absurd hmembership not_returns_exhausted
  · rw [test_succ] at h ⊢
    refine reaches_bool (fun hmember => ?_) h htruth
    obtain rfl := ((hg.quiet.at n).isMember text v).world_eq hmember
    exact hg.reaches_isMember (ih n n.lt_succ_self) hmember

lemma reaches_isArrayOf (ih : ∀ k < n, Kept r w w' k) {items : List Value}
    (h : (isArrayOf (invoke n) items d (membershipTest r)).Returns w true w₁) :
    (isArrayOf (invoke n) items d (membershipTest r)).Reaches w' true := by
  rcases n with _ | n
  · simp only [isArrayOf] at h ⊢
    split_ifs at h ⊢
    · exact reaches_pure true
    · obtain ⟨_, _, hmembership, -⟩ := returns_bind_iff.1 h
      exact absurd hmembership not_returns_exhausted
  rw [isArrayOf_succ] at h ⊢
  split_ifs at h ⊢
  · exact reaches_pure true
  · obtain ⟨⟨e, d'⟩, w₂, hresolve, hitems⟩ := returns_bind_iff.1 h
    obtain ⟨hparse, he⟩ := parse_of_resolve hresolve.1
    obtain rfl := quiet_resolve.world_eq hresolve
    have hquiet := fun x => quiet_holds (hg.quiet d' e he n x)
    have hquiet' := fun x => quiet_holds (hg.quiet' d' e (hg.extends.find? he) n x)
    have hfound : (resolve r (.text (elementOf d))).Reaches w' (e, d') :=
      .inl (by rw [resolve_of_parse hparse (hg.extends.find? he)])
    exact hfound.bind_quiet quiet_resolve
      (reaches_all hquiet hquiet' (fun _ => hg.reaches_holds (ih n n.lt_succ_self) he) hitems)

/-- The tests of parts leave the world as it is. -/
lemma quiet_parts (t : String) (v : Value) :
    (truth (test (invoke n) (membershipTest r) t v)).Quiet w ∧
      (truth (test (invoke n) (membershipTest r) t v)).Quiet w' :=
  ⟨quiet_truth (quiet_test (fun m _ => hg.quiet.at m) t v),
    quiet_truth (quiet_test (fun m _ => hg.quiet'.at m) t v)⟩

lemma reaches_isTupleOf (ih : ∀ k < n, Kept r w w' k)
    (h : (isTupleOf (invoke n) v d (membershipTest r)).Returns w true w₁) :
    (isTupleOf (invoke n) v d (membershipTest r)).Reaches w' true := by
  obtain ⟨size, w₂, hsize, hrest⟩ := returns_bind_iff.1 h
  obtain rfl := (inspects_sizeOf v).quiet.world_eq hsize
  refine (hg.reaches_of_inspects (inspects_sizeOf v) hsize).bind_quiet (inspects_sizeOf v).quiet ?_
  split_ifs at hrest ⊢
  · exact absurd (returns_pure_iff.1 hrest).1 Bool.false_ne_true
  · obtain ⟨seen, w₃, hlook, hread⟩ := returns_bind_iff.1 hrest
    obtain rfl := quiet_heap.world_eq hlook
    obtain ⟨items, w₄, hitems, hall⟩ := returns_bind_iff.1 hread
    obtain rfl := (inspects_orMishap _ _).quiet.world_eq hitems
    exact (hg.reaches_of_inspects inspects_heap hlook).bind_quiet quiet_heap
      ((hg.reaches_of_inspects (inspects_orMishap _ _) hitems).bind_quiet
        (inspects_orMishap _ _).quiet
        (reaches_all (fun _ => (hg.quiet_parts _ _).1) (fun _ => (hg.quiet_parts _ _).2)
          (fun _ => hg.reaches_truth_test ih) hall))

/-- **What a predicate of the library answers true is within reach**, if it is so for the types that
it tests parts for. -/
lemma reaches_answer (ih : ∀ k < n, Kept r w w' k) {q : NativePredicate}
    (h : (q.answer (invoke n) v (.descriptor d) (membershipTest r)).Returns w u w)
    (htruth : u.truth w.heap = true) :
    (q.answer (invoke n) v (.descriptor d) (membershipTest r)).Reaches w' u := by
  cases q with
  | isArray =>
    have hheap : heap w = ⟨.ok w.heap, w, []⟩ := rfl
    have hheap' : heap.Reaches w' w.heap := .inl (congrArg Except.ok hg.beside.heap)
    rw [answer, returns_bind_of_pure hheap] at h
    refine hheap'.bind_quiet quiet_heap ?_
    split at h
    · obtain ⟨rfl, -⟩ := returns_pure_iff.1 h
      exact absurd htruth Bool.false_ne_true
    · rw [descriptorOf, Act.pure_bind] at h ⊢
      exact reaches_bool (hg.reaches_isArrayOf ih) h htruth
  | isBoundedInt =>
    rw [answer, descriptorOf, Act.pure_bind] at h ⊢
    obtain ⟨types, w₁, htypes, htest⟩ := returns_bind_iff.1 h
    obtain rfl := (inspects_typeArguments d 2).quiet.world_eq htypes
    exact (hg.reaches_of_inspects (inspects_typeArguments d 2) htypes).bind_quiet
      (inspects_typeArguments d 2).quiet (hg.reaches_test ih htest htruth)
  | isTuple =>
    rw [answer, descriptorOf, Act.pure_bind] at h ⊢
    exact reaches_bool (hg.reaches_isTupleOf ih) h htruth
  | isTaggedUnion =>
    rw [answer, descriptorOf, Act.pure_bind] at h ⊢
    exact reaches_bool (reaches_any (fun _ => (hg.quiet_parts _ _).1)
      (fun _ => (hg.quiet_parts _ _).2) (fun _ => hg.reaches_truth_test ih)
      fun _ => hg.ends_truth_test) h htruth
  | _ => exact hg.reaches_of_inspects (inspects_answer rfl _ _ _) h

/-! ### Registered predicates -/

/-- What a tame predicate answers is within reach. -/
lemma reaches_tame (ih : ∀ k < n, Kept r w w' k) (hp : Tame r p)
    (h : (invoke n p ([v, .descriptor d, membershipTest r].take p.predicateArity) []).Returns w u w)
    (htruth : u.truth w.heap = true) :
    (invoke n p ([v, .descriptor d, membershipTest r].take p.predicateArity) []).Reaches w' u := by
  rcases hp with ⟨q, rfl⟩ | hp
  · rcases n with _ | n
    · exact absurd h not_returns_exhausted
    · rw [invoke_predicate] at h ⊢
      exact hg.reaches_answer (fun k hk => ih k (Nat.lt_succ_of_lt hk)) h htruth
  · exact .inl ((hp n v d w w' hg.beside).trans h.1)

/-- The values that the predicate of a refinement is given pass their check in the grown
registry. -/
lemma reaches_checkValues {required : Descriptor} {raw : String} {arity : ℕ}
    (hrequired : required.optional = false)
    (haccepts : (accepts (invoke (n + 1)) r required (Stage.presented v)).Reaches w' true) :
    (Enforcer.checkValues (invoke (n + 1)) r (.plain f (contractOn required) raw .null true)
      (v :: [.descriptor d, membershipTest r].take arity) []).Reaches w' () := by
  have hbase := hg.base.extends hg.extends
  have hverify : (Enforcer.verifyAgainst (invoke (n + 1)) r (contractOn required)
      (v :: [.descriptor d, membershipTest r].take arity)).Reaches w' .accept := by
    show (Stage.verifyFrom _ _ _ (required :: refinementRest)).Reaches w' .accept
    rw [Stage.verifyFrom_required hrequired]
    refine haccepts.bind_quiet ((hg.quiet'.at _).accepts _ _) (.inl ?_)
    rw [if_pos rfl, proceed_refinementRest hbase]
  exact hverify.attempt.bind fun _ _ => reaches_pure ()

/-- What the predicate of a refinement answers is within reach, if the value is accepted as one of
the required type and what the predicate itself answers is a truth value within reach. -/
lemma reaches_enforcedOn {required : Descriptor} {raw : String}
    (hrequired : required.optional = false) (harity : 1 ≤ (Value.function f).predicateArity)
    (haccepts : (accepts (invoke (n + 1)) r required (Stage.presented v)).Reaches w' true)
    (hcall : (invoke n (.function f) ([v, .descriptor d, membershipTest r].take
      (Value.function f).predicateArity) []).Reaches w' u) (hbool : u.isBool = true) :
    (invoke (n + 2) (enforcedOn r required raw f) ([v, .descriptor d, membershipTest r].take
      (Value.function f).predicateArity) []).Reaches w' u := by
  obtain ⟨arity, hsucc⟩ : ∃ arity, (Value.function f).predicateArity = arity + 1 :=
    ⟨_, (Nat.sub_add_cancel harity).symm⟩
  rw [hsucc, List.take_succ_cons] at hcall ⊢
  rw [enforcedOn, Enforcer.invoke_enforced (n + 1) rfl, Enforcer.call]
  refine (hg.reaches_checkValues hrequired haccepts).bind_quiet
    (Enforcer.quiet_checkValues (hg.quiet'.at _)) ?_
  rw [Enforcer.invoke_plain n rfl]
  refine hcall.bind fun w₁ hreturns => ?_
  have hkeeps : w'.Extends w₁ := hreturns.2 ▸ invoke_extends n _ _ _ w'
  have hmember := isMember_boolean (hg.base.extends (hg.extends.trans hkeeps)) n u
  rw [hbool] at hmember
  exact Returns.reaches ((Enforcer.returns_checkResult_iff rfl).2 ⟨rfl, returns_of_eq hmember⟩)

/-- **What a predicate answers true stays true in a grown registry.** -/
theorem kept (n : ℕ) : Kept r w w' n := by
  -- by induction on the depth: the types of the parts of a value are asked at lower ones
  induction n using Nat.strong_induction_on with
  | _ n ih =>
    intro d e v u he hask htruth
    obtain ⟨harity, hcustomary⟩ := hg.conventional e (List.mem_of_find?_eq_some he)
    rw [Entry.ask, Entry.arguments, harity] at hask ⊢
    generalize e.predicate = p at hask hcustomary ⊢
    cases hcustomary with
    | plain hp => exact hg.reaches_tame ih hp hask htruth
    | synonym he' =>
      rcases n with _ | n
      · exact absurd hask not_returns_exhausted
      · rw [show (Value.function (.tester r _ _)).predicateArity = 1 from rfl, List.take_succ_cons,
          List.take_zero, invoke_tester] at hask ⊢
        refine reaches_bool (fun hholds => ?_) hask htruth
        obtain rfl := (quiet_holds (hg.quiet _ _ he' n v)).world_eq hholds
        exact hg.reaches_holds (ih n n.lt_succ_self) he' hholds
    | refinement hrequired hone hf =>
      obtain ⟨m, rfl⟩ := Enforcer.exists_of_returns_enforced hask
      rw [enforcedOn, predicateArity_enforced, ← enforcedOn] at hask ⊢
      obtain ⟨w₁, haccepts, hcall, hbool⟩ := (returns_enforcedOn_iff hg.base hrequired hone).1 hask
      obtain rfl := ((hg.quiet.at _).accepts _ _).world_eq haccepts
      exact hg.reaches_enforcedOn hrequired hone
        (hg.reaches_accepts (ih (m + 1) (by omega)) haccepts)
        (hg.reaches_tame (fun k hk => ih k (by omega)) hf hcall htruth) hbool

/-- A test that answered true does not answer otherwise. -/
lemma tests_of_tests (h : Tests r text v w true w₁) {b : Bool} {w₂ : World}
    (hends : Tests r text v w' b w₂) : b = true ∧ w₂ = w' := by
  obtain ⟨n, hn⟩ := tests_iff_isMember.1 h
  obtain ⟨m, hm⟩ := tests_iff_isMember.1 hends
  obtain rfl := ((hg.quiet.at n).isMember text v).world_eq hn
  have hrising := rising_isMember r text v
  have hreach := hg.reaches_isMember (hg.kept (max n m)) (hrising.returns (le_max_left n m) hn)
  exact ⟨hreach.eq_of_returns (hrising.returns (le_max_right n m) hm), hg.quiet'.world_eq hends⟩

end Grown

/-! ### Conventional registrations -/

section registrations

variable {reg reg' : Registry} {o : Registration} {os : List Registration} {us : List Value} {k : ℕ}

lemma Customary.mono (h : Customary r reg p)
    (hreg : ∀ name e, reg.find? name = some e → reg'.find? name = some e) :
    Customary r reg' p := by
  cases h with
  | plain hp => exact .plain hp
  | refinement hrequired hone hf => exact .refinement hrequired hone hf
  | synonym he => exact .synonym (hreg _ _ he)

/-- A registration that a conventional registry allows: the predicate is tame, and the contract of a
refinement asks for one type that a value must be of. -/
def Allowed (r : RegistryId) : Registration → Prop
  | .base _ p => Tame r p
  | .synonym _ _ => True
  | .refinement parent _ p =>
    Tame r p ∧ 1 ≤ p.predicateArity ∧ ∃ required : Descriptor, required.optional = false ∧
      Tree.parse none (refinementContract parent) = .ok (contractOn required)

/-- What an allowed registration adds is conventional. -/
lemma customary_of_added (ho : Allowed r o) (he : o.added? r reg.find? = some e) :
    e.arity = e.predicate.predicateArity ∧ Customary r reg e.predicate := by
  cases o with
  | base name p =>
    obtain rfl := Option.some.inj he
    exact ⟨rfl, .plain ho⟩
  | synonym name expression =>
    simp only [Registration.added?] at he
    split at he
    · simp at he
    · obtain ⟨e', he', rfl⟩ := Option.map_eq_some_iff.1 he
      exact ⟨rfl, .synonym he'⟩
  | refinement parent name p =>
    obtain ⟨htame, hone, required, hrequired, hparse⟩ := ho
    simp only [Registration.added?, hparse] at he
    split at he
    · next hp htree =>
      obtain rfl := Except.ok.inj htree
      obtain ⟨e', -, rfl⟩ := Option.map_eq_some_iff.1 he
      exact ⟨rfl, .refinement hrequired hone htame⟩
    · simp at he

/-- **Allowed registrations leave a conventional registry behind.** -/
lemma conventional_of_run (hconventional : Conventional r (w.registry r))
    (hr : r < w.registries.length) (hos : ∀ o ∈ os, Allowed r o)
    (h : (Act.each (Registration.carryOut k r) os).Returns w us w') :
    Conventional r (w'.registry r) :=
  Registration.forall_entries_of_run (fun _ _ _ hreg he => ⟨he.1, he.2.mono hreg⟩)
    (fun o ho _ _ he => customary_of_added (hos o ho) he) hr hconventional h

/-- Registrations of harmless predicates add harmless entries. -/
lemma harmless_of_added (ho : ∃ p, o.predicate? = some p ∧ Harmless r p)
    (he : o.added? r reg.find? = some e) : HarmlessEntry r e := by
  obtain ⟨p, hp, hharmless⟩ := ho
  cases o with
  | base name q =>
    obtain rfl : q = p := Option.some.inj hp
    obtain rfl := Option.some.inj he
    exact .plain _ _ hharmless
  | synonym name expression => simp [Registration.predicate?] at hp
  | refinement parent name q =>
    obtain rfl : q = p := Option.some.inj hp
    simp only [Registration.added?] at he
    split at he
    · obtain ⟨e', -, rfl⟩ := Option.map_eq_some_iff.1 he
      exact .enforced _ _ _ _ hharmless
    · simp at he

lemma harmless_of_run (hharmless : ∀ e ∈ (w.registry r).entries, HarmlessEntry r e)
    (hr : r < w.registries.length) (hos : ∀ o ∈ os, ∃ p, o.predicate? = some p ∧ Harmless r p)
    (h : (Act.each (Registration.carryOut k r) os).Returns w us w') :
    ∀ e ∈ (w'.registry r).entries, HarmlessEntry r e :=
  Registration.forall_entries_of_run (P := fun _ e => HarmlessEntry r e) (fun _ _ _ _ => id)
    (fun o ho _ _ he => harmless_of_added (hos o ho) he) hr hharmless h

/-- The library is conventional. -/
lemma conventional_of_stock (h : ∀ e ∈ reg.entries, Stock r e) : Conventional r reg := by
  intro e he
  cases h e he with
  | native name chain q => exact ⟨rfl, .plain (.inl ⟨q, rfl⟩)⟩
  | refinement chain name parent q =>
    have hrequired : (Descriptor.ofName parent).optional = false := rfl
    refine ⟨rfl, .refinement hrequired ?_ (.inl ⟨q, rfl⟩)⟩
    cases q <;> decide

end registrations

/-! ### The law -/

/-- **Registering types never revokes membership.** In a conventional registry that holds the base
types, whatever types are registered, if no predicate has side effects, before and after: a value
that was of a type before is of this type afterwards, provided that the test ends. -/
theorem tests_registered (hbase : HasBase (w.registry r))
    (hconventional : Conventional r (w.registry r)) (hquiet : SideEffectFree r w)
    {os : List Registration} {k : ℕ} {us : List Value}
    (hrun : (Act.each (Registration.carryOut k r) os).Returns w us w')
    (hquiet' : SideEffectFree r w') :
    ∀ text v w₁, Tests r text v w true w₁ → (∃ b w₂, Tests r text v w' b w₂) →
      Tests r text v w' true w' := by
  have hr : r < w.registries.length := hbase.lt_length
  obtain ⟨hextends, hbeside, -⟩ := Registration.holds_of_run hrun hr
  intro text v w₁ h ⟨b, w₂, hends⟩
  obtain ⟨rfl, rfl⟩ := Grown.tests_of_tests
    ⟨hbase, hconventional, hbeside, hextends, hquiet, hquiet'⟩ h hends
  exact hends

/-! ### Runs on the library -/

/-- The world after registrations in the first registry. -/
def registered (os : List Registration) (w : World) : World :=
  (Act.each (Registration.carryOut 2 0) os w).world

/-- Whether these registrations succeed. -/
def succeeds (os : List Registration) (w : World) : Bool :=
  (Act.each (Registration.carryOut 2 0) os w).outcome.toOption.isSome

lemma returns_of_succeeds {os : List Registration} (h : succeeds os w = true) :
    ∃ us, (Act.each (Registration.carryOut 2 0) os).Returns w us (registered os w) := by
  obtain ⟨us, hus⟩ := Option.isSome_iff_exists.1 h
  exact ⟨us, returns_of_toOption hus⟩

/-- What a test in the first registry answers, at a depth that does for short expressions. -/
def tested (text : String) (v : Value) (w : World) : Option Bool :=
  (isMember (invoke 8) 0 text v w).outcome.toOption

lemma exists_tests (h : tested text v w = some b) : ∃ w', Tests 0 text v w b w' :=
  ⟨_, tests_iff_isMember.2 ⟨8, returns_of_toOption h⟩⟩

/-- A predicate of a program: it accepts everything. -/
def accepting : Value :=
  .function (.closure ⟨0, .function, "yes", [.plain "v"], .literal (.scalar (.bool true)), []⟩)

lemma independent_accepting : Independent r accepting := by
  intro n v d w w' _
  cases n <;> rfl

lemma harmless_accepting : Harmless r accepting := by
  refine .inr fun n v d w => ?_
  cases n with
  | zero => exact quiet_exhausted
  | succ n => exact quiet_of_eq (.ok (.bool true)) [] rfl rfl

/-- Arrays of a type that a program registers on top of the library, before it registers another
one. -/
theorem tests_registered_array :
    let w := registered [.base "amount" accepting] libraryWorld
    let w' := registered [.base "foo" accepting] w
    HasBase (w.registry 0) ∧ Conventional 0 (w.registry 0) ∧ SideEffectFree 0 w ∧
      SideEffectFree 0 w' ∧ Tests 0 "array<amount>" (.tuple [.int 1]) w true w ∧
        Tests 0 "array<amount>" (.tuple [.int 1]) w' true w' := by
  intro w w'
  obtain ⟨hsucceeds, hsucceeds', htest, htest'⟩ :
      succeeds [.base "amount" accepting] libraryWorld = true ∧
        succeeds [.base "foo" accepting] w = true ∧
          tested "array<amount>" (.tuple [.int 1]) w = some true ∧
            tested "array<amount>" (.tuple [.int 1]) w' = some true := by decide +kernel
  have hbase₀ := installed_libraryWorld.library.base
  obtain ⟨us, hrun⟩ := returns_of_succeeds hsucceeds
  obtain ⟨us', hrun'⟩ := returns_of_succeeds hsucceeds'
  have hallowed : Allowed 0 (.base "amount" accepting) := Or.inr independent_accepting
  have hbase : HasBase (w.registry 0) :=
    hbase₀.extends (Registration.holds_of_run hrun hbase₀.lt_length).1
  have hconventional : Conventional 0 (w.registry 0) :=
    conventional_of_run (conventional_of_stock installed_libraryWorld.stock) hbase₀.lt_length
      (List.forall_mem_singleton.2 hallowed) hrun
  have hos : ∀ name : String, ∀ o ∈ [Registration.base name accepting],
      ∃ p, o.predicate? = some p ∧ Harmless 0 p := fun _ =>
    List.forall_mem_singleton.2 ⟨_, rfl, harmless_accepting⟩
  have hharmless := harmless_of_run (fun e he => (installed_libraryWorld.stock e he).harmless)
    hbase₀.lt_length (hos _) hrun
  have hquiet : SideEffectFree 0 w := sideEffectFree_of_harmless hharmless
  have hquiet' : SideEffectFree 0 w' :=
    sideEffectFree_of_harmless (harmless_of_run hharmless hbase.lt_length (hos _) hrun')
  obtain ⟨w₁, hbefore⟩ := exists_tests htest
  obtain rfl := hquiet.world_eq hbefore
  exact ⟨hbase, hconventional, hquiet, hquiet', hbefore, tests_registered hbase hconventional hquiet
    hrun' hquiet' _ _ _ hbefore ⟨_, exists_tests htest'⟩⟩

/-- The registries of a world do not depend on its heap. -/
lemma registry_withHeap (w : World) (h : Heap) (r : RegistryId) :
    ({ w with heap := h } : World).registry r = w.registry r := rfl

/-- A predicate with a side effect: it stores a text at the first place of the value, and answers
false. -/
def marking : Value :=
  .function (.closure ⟨0, .function, "mark", [.plain "x"],
    .not (.store (.variable "x") (.literal (.scalar (.int 0))) (.literal (.scalar (.text "a")))),
    []⟩)

/-- In general a registration can revoke membership, in two ways. An unknown name makes the test of
a part fail; registered, the name stands for a predicate that changes the value before another part
is tested. And without side effects, a refinement whose contract reads an optional type in front of
the value may offer the value to that type only when the type is known. -/
theorem not_forall_tests_registered :
    (¬ ∀ (r : RegistryId) (w w' : World) (os : List Registration) (k : ℕ) (us : List Value)
      (text : String) (v : Value), HasLibrary r (w.registry r) → Conventional r (w.registry r) →
        SideEffectFree r w → (Act.each (Registration.carryOut k r) os).Returns w us w' →
          Tests r text v w true w → (∃ b w₂, Tests r text v w' b w₂) →
            ∃ w₂, Tests r text v w' true w₂) ∧
    ¬ ∀ (r : RegistryId) (w₀ w w' : World) (os₀ os : List Registration) (k : ℕ)
      (us₀ us : List Value) (text : String) (v : Value), HasLibrary r (w₀.registry r) →
        Conventional r (w₀.registry r) → (∀ o ∈ os₀, ∃ p, o.predicate? = some p ∧ Tame r p) →
          (Act.each (Registration.carryOut k r) os₀).Returns w₀ us₀ w → SideEffectFree r w →
            (Act.each (Registration.carryOut k r) os).Returns w us w' → SideEffectFree r w' →
              Tests r text v w true w → (∃ b w₂, Tests r text v w' b w₂) →
                Tests r text v w' true w' := by
  have hlibrary := installed_libraryWorld.library
  have hconventional := conventional_of_stock installed_libraryWorld.stock
  constructor
  · let w : World := { libraryWorld with heap := [.list [.int 1]] }
    let w' := registered [.base "foo" marking] w
    let text := "taggedUnion<taggedUnion<foo>;array<number>>"
    obtain ⟨hsucceeds, htest, htest'⟩ : succeeds [.base "foo" marking] w = true ∧
      tested text (.list 0) w = some true ∧ tested text (.list 0) w' = some false := by
        decide +kernel
    have hregistry : w.registry 0 = libraryWorld.registry 0 := registry_withHeap _ _ 0
    have hquiet : SideEffectFree 0 w :=
      sideEffectFree_of_stock (hregistry ▸ installed_libraryWorld.stock)
    obtain ⟨us, hrun⟩ := returns_of_succeeds hsucceeds
    obtain ⟨w₁, hbefore⟩ := exists_tests htest
    obtain ⟨w₂, hafter⟩ := exists_tests htest'
    obtain rfl := hquiet.world_eq hbefore
    intro hall
    obtain ⟨w₃, h⟩ := hall 0 w w' _ 2 us text (.list 0) (hregistry ▸ hlibrary)
      (hregistry ▸ hconventional) hquiet hrun hbefore ⟨_, _, hafter⟩
    exact absurd (h.unique hafter).1 (by decide)
  · let parent := "[taggedUnion<taggedUnion<foo>>], function"
    let os₀ : List Registration :=
      [.base parent accepting, .refinement parent "callback" (predicate .isFunction)]
    let w := registered os₀ libraryWorld
    let w' := registered [.base "foo" accepting] w
    obtain ⟨hsucceeds₀, hsucceeds, htest, htest'⟩ : succeeds os₀ libraryWorld = true ∧
      succeeds [.base "foo" accepting] w = true ∧ tested "callback" accepting w = some true ∧
        tested "callback" accepting w' = some false := by decide +kernel
    have hr := hlibrary.base.lt_length
    have hos₀ : ∀ o ∈ os₀, ∃ p, o.predicate? = some p ∧ Tame 0 p ∧ Harmless 0 p :=
      List.forall_mem_cons.2 ⟨⟨_, rfl, .inr independent_accepting, harmless_accepting⟩,
        List.forall_mem_singleton.2 ⟨_, rfl, .inl ⟨_, rfl⟩, .inl ⟨_, rfl⟩⟩⟩
    obtain ⟨us₀, hrun₀⟩ := returns_of_succeeds hsucceeds₀
    obtain ⟨us, hrun⟩ := returns_of_succeeds hsucceeds
    have hharmless := harmless_of_run (fun e he => (installed_libraryWorld.stock e he).harmless) hr
      (fun o ho => (hos₀ o ho).imp fun _ hp => ⟨hp.1, hp.2.2⟩) hrun₀
    have hquiet : SideEffectFree 0 w := sideEffectFree_of_harmless hharmless
    have hquiet' : SideEffectFree 0 w' := sideEffectFree_of_harmless (harmless_of_run hharmless
      ((Registration.holds_of_run hrun₀ hr).2.1.length ▸ hr)
      (List.forall_mem_singleton.2 ⟨_, rfl, harmless_accepting⟩) hrun)
    obtain ⟨w₁, hbefore⟩ := exists_tests htest
    obtain ⟨w₂, hafter⟩ := exists_tests htest'
    obtain rfl := hquiet.world_eq hbefore
    intro hall
    have h := hall 0 libraryWorld w w' os₀ _ 2 us₀ us "callback" accepting hlibrary hconventional
      (fun o ho => (hos₀ o ho).imp fun _ hp => ⟨hp.1, hp.2.1⟩) hrun₀ hquiet hrun hquiet' hbefore
      ⟨_, _, hafter⟩
    exact absurd (h.unique hafter).1 (by decide)

end CallContracts.Registry
