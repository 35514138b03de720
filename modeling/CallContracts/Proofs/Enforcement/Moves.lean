import CallContracts.Enforcement.Apply
import CallContracts.Proofs.Script.Moves

/-!
What a call does to a world, and what it keeps of a relation between two ways to call.

* reading, resolving and signing leave a world as it is (`Registry.steady_resolve`,
  `Enforcer.steady_enforce`), registering adds to it (`Registry.basic_register`);
* `NativePredicate.inspects_answer`: the predicates of scalars look at the heap alone;
* one lemma for each operation that makes calls says that it keeps a congruence of computations, up
  to `Value.congr_apply`;
* `congr_invoke`: by induction on the depth, so does every call; hence `moves_invoke`, a call moves
  a world along every relation that holds across registrations and changes of the heap, and
  `agree_invoke`, it cannot tell in which order types were registered;
* `invoke_extends`: so no call ever takes an entry from a registry or changes one.
-/

namespace CallContracts

open World Act

variable {R : World → World → Prop} [IsMove R]

section calls

variable {S : ∀ ⦃α : Type⦄, Act α → Act α → Prop} [Congruence S] {i j : Invoke}

/-! ### Predicates of the library -/

namespace NativePredicate

lemma inspects_descriptorOf (v : Value) : Inspects (descriptorOf v) := by
  simp only [descriptorOf]
  split
  · exact inspects_pure _
  · exact inspects_mishap _

lemma inspects_typeArguments (d : Descriptor) (minimum : Nat) :
    Inspects (typeArguments d minimum) := by
  simp only [typeArguments]
  split
  · exact inspects_refuse _
  · exact inspects_pure _

lemma inspects_bound (d : Descriptor) (raw : String) : Inspects (bound d raw) := by
  rw [bound]
  split
  · exact inspects_pure _
  · exact inspects_throw _

lemma inspects_isWhole (v : Value) : Inspects (isWhole v) := by
  rw [isWhole]
  split
  · exact inspects_pure _
  · exact inspects_pure _
  · split
    · exact inspects_mishap _
    · exact inspects_pure _
  · exact inspects_mishap _

lemma inspects_isBetween (v : Value) (d : Descriptor) : Inspects (isBetween v d) := by
  refine inspects_bind (inspects_typeArguments _ _) fun types =>
    inspects_bind inspects_heap fun h => inspects_bind (inspects_bound _ _) fun lower =>
      inspects_bind (Value.inspects_orMishap _) fun b => ?_
  split
  · exact inspects_bind (inspects_bound _ _) fun _ => Value.inspects_orMishap _
  · exact inspects_pure _

lemma inspects_sizeOf (v : Value) : Inspects (sizeOf v) :=
  inspects_bind inspects_heap fun _ => Act.inspects_orMishap _ _

lemma inspects_isOfLength (v : Value) (d : Descriptor) : Inspects (isOfLength v d) := by
  refine inspects_bind (inspects_typeArguments _ _) fun types =>
    inspects_bind (inspects_bound _ _) fun lower => inspects_bind (inspects_sizeOf _) fun n => ?_
  split
  · exact inspects_bind (inspects_bound _ _) fun _ => inspects_pure _
  · exact inspects_pure _

lemma inspects_isOfPattern (v : Value) (d : Descriptor) : Inspects (isOfPattern v d) := by
  refine inspects_bind (inspects_typeArguments _ _) fun types => inspects_bind inspects_host
    fun host => inspects_bind (Value.inspects_orMishap _) fun occurs => ?_
  split
  · exact inspects_pure _
  · exact inspects_mishap _

/-- The predicates that ask the membership test: those of composite types. -/
def asks : NativePredicate → Bool
  | .isArray | .isBoundedInt | .isTuple | .isTaggedUnion => true
  | _ => false

/-- All others look at the heap and the host alone. -/
lemma inspects_answer {p : NativePredicate} (hp : p.asks = false)
    (v descriptor membership : Value) : Inspects (p.answer i v descriptor membership) := by
  cases p with
  | isFunction =>
    simp only [answer]
    split
    · exact inspects_pure _
    · refine inspects_bind (inspects_descriptorOf _) fun d => ?_
      split
      · exact inspects_pure _
      · exact inspects_pure _
  | isInt => exact inspects_bind (inspects_isWhole _) fun _ => inspects_pure _
  | isBounded =>
    exact inspects_bind (inspects_descriptorOf _) fun _ =>
      inspects_bind (inspects_isBetween _ _) fun _ => inspects_pure _
  | isBoundedString =>
    exact inspects_bind (inspects_descriptorOf _) fun _ =>
      inspects_bind (inspects_isOfLength _ _) fun _ => inspects_pure _
  | isFormattedString =>
    exact inspects_bind (inspects_descriptorOf _) fun _ =>
      inspects_bind (inspects_isOfPattern _ _) fun _ => inspects_pure _
  | isArray | isBoundedInt | isTuple | isTaggedUnion => simp [asks] at hp
  | _ => exact inspects_pure _

lemma congr_truth {x y : Act Value} (hxy : S x y) : S (truth x) (truth y) :=
  congr_bind hxy fun _ => congr_bind steady_heap.congr fun _ => (steady_pure _).congr

lemma congr_test (h : Invoke.Related S i j) (membership : Value) (expression : String)
    (v : Value) : S (test i membership expression v) (test j membership expression v) :=
  congr_bind (h _ _ _) fun _ => h _ _ _

lemma congr_isArrayOf (h : Invoke.Related S i j) (items : List Value) (d : Descriptor)
    (membership : Value) : S (isArrayOf i items d membership) (isArrayOf j items d membership) := by
  simp only [isArrayOf]
  split
  · exact (steady_pure _).congr
  · exact congr_bind (h _ _ _) fun _ => congr_all (fun _ => congr_truth (h _ _ _)) _

lemma congr_isTupleOf (h : Invoke.Related S i j) (v : Value) (d : Descriptor)
    (membership : Value) : S (isTupleOf i v d membership) (isTupleOf j v d membership) := by
  refine congr_bind (inspects_sizeOf _).steady.congr fun n => ?_
  split
  · exact (steady_pure _).congr
  · exact congr_bind steady_heap.congr fun _ => congr_bind (Act.steady_orMishap _ _).congr fun _ =>
      congr_all (fun _ => congr_truth (congr_test h _ _ _)) _

lemma congr_answer (h : Invoke.Related S i j) (p : NativePredicate)
    (v descriptor membership : Value) :
    S (p.answer i v descriptor membership) (p.answer j v descriptor membership) := by
  cases p with
  | isArray =>
    refine congr_bind steady_heap.congr fun _ => ?_
    split
    · exact (steady_pure _).congr
    · exact congr_bind (inspects_descriptorOf _).steady.congr fun _ =>
        congr_bind (congr_isArrayOf h _ _ _) fun _ => (steady_pure _).congr
  | isBoundedInt =>
    exact congr_bind (inspects_descriptorOf _).steady.congr fun _ =>
      congr_bind (inspects_typeArguments _ _).steady.congr fun _ => congr_test h _ _ _
  | isTuple =>
    exact congr_bind (inspects_descriptorOf _).steady.congr fun _ =>
      congr_bind (congr_isTupleOf h _ _ _) fun _ => (steady_pure _).congr
  | isTaggedUnion =>
    exact congr_bind (inspects_descriptorOf _).steady.congr fun _ =>
      congr_bind (congr_any (fun _ => congr_truth (congr_test h _ _ _)) _) fun _ =>
        (steady_pure _).congr
  | _ => exact (inspects_answer rfl _ _ _).steady.congr

end NativePredicate

/-! ### Membership -/

namespace Registry

lemma steady_entry (r : RegistryId) (name : String) : Steady (entry r name) := by
  refine steady_registry_bind (fun reg reg' h => ?_) fun reg => ?_
  · rw [h name]
  · split
    · exact steady_pure _
    · exact steady_throw _

lemma steady_lookup (r : RegistryId) (v : Value) : Steady (lookup r v) := by
  rw [lookup]
  split
  · exact steady_entry _ _
  · split
    · exact steady_throw _
    · exact steady_mishap _

lemma steady_chain (r : RegistryId) (v : Value) : Steady (chain r v) := by
  rw [chain]
  split
  · refine steady_registry_bind (fun reg reg' h => ?_) fun _ => steady_pure _
    rw [typeChain_congr h]
  · split
    · exact steady_pure _
    · exact steady_mishap _

lemma steady_readType (v : Value) : Steady (readType v) := by
  simp only [readType]
  split
  · exact steady_orSignatureFault _
  · split
    · exact steady_throw _
    · exact steady_throw _
  · exact steady_mishap _

lemma steady_resolve (r : RegistryId) (v : Value) : Steady (resolve r v) :=
  steady_bind (steady_readType v) fun _ => steady_bind (steady_entry r _) fun _ => steady_pure _

lemma congr_holds (h : Invoke.Related S i j) (r : RegistryId) (e : Entry) (d : Descriptor)
    (v : Value) : S (holds i r e d v) (holds j r e d v) := by
  refine congr_bind (congr_attempt (h _ _ _)) fun answer => ?_
  split
  · exact congr_bind steady_heap.congr fun _ => (steady_pure _).congr
  · exact (steady_pure _).congr

lemma moves_holds (hi : i.Moves R) (r : RegistryId) (e : Entry) (d : Descriptor) (v : Value) :
    Moves R (holds i r e d v) :=
  congr_holds (S := fun _ x _ => Moves R x) (j := i) hi _ _ _ _

lemma congr_isMember (h : Invoke.Related S i j) (r : RegistryId) (expression : String)
    (v : Value) : S (isMember i r expression v) (isMember j r expression v) :=
  congr_bind (steady_resolve r _).congr fun _ => congr_holds h _ _ _ _

lemma congr_matches (h : Invoke.Related S i j) (r : RegistryId) (descriptor v : Value) :
    S («matches» i r descriptor v) («matches» j r descriptor v) :=
  congr_bind (Act.steady_orMishap _ _).congr fun _ => congr_bind (steady_lookup r _).congr fun _ =>
    h _ _ _

lemma congr_accepts (h : Invoke.Related S i j) (r : RegistryId) (d : Descriptor) (v : Value) :
    S (accepts i r d v) (accepts j r d v) := by
  refine congr_bind (congr_attempt (congr_matches h _ _ _)) fun answer => ?_
  split
  · exact congr_bind steady_heap.congr fun _ => (steady_pure _).congr
  · split
    · exact (steady_pure _).congr
    · exact (steady_throw _).congr

end Registry

/-! ### Signing and checking calls -/

namespace Stage

variable {accepts accepts' : Descriptor → Value → Act Bool}

lemma congr_step (haccepts : ∀ d v, S (accepts d v) (accepts' d v)) (consumed : Nat)
    (d : Descriptor) (values : List Value) :
    S (step accepts consumed d values) (step accepts' consumed d values) := by
  simp only [step]
  split
  · exact (steady_pure _).congr
  · refine congr_bind (haccepts _ _) fun b => ?_
    split
    · exact (steady_pure _).congr
    · split
      · exact (steady_pure _).congr
      · exact (steady_throw _).congr

lemma congr_verifyFrom (haccepts : ∀ d v, S (accepts d v) (accepts' d v)) (consumed : Nat)
    (values : List Value) (s : Stage) :
    S (verifyFrom accepts consumed values s) (verifyFrom accepts' consumed values s) := by
  induction s generalizing consumed values with
  | nil => exact (steady_mishap _).congr
  | cons d s ih =>
    refine congr_bind (congr_step haccepts _ _ _) fun verdict => ?_
    refine congr_ite (congr_ite ?_ ?_) (ih _ _)
    · exact (steady_throw _).congr
    · exact (steady_pure _).congr

end Stage

lemma Signature.steady_read (known : Option (String → Bool)) (v : Value) :
    Steady (Signature.read known v) := by
  rw [Signature.read]
  split
  · exact steady_bind (steady_orSignatureFault _) fun _ => steady_bind (steady_log _) fun _ =>
      steady_pure _
  · exact steady_throw _

namespace Enforcer

lemma steady_readContract (r : RegistryId) (v : Value) : Steady (readContract r v) :=
  steady_registry_bind (fun reg reg' h => by rw [Registry.contains_congr h]) fun _ =>
    Signature.steady_read _ _

lemma steady_signWith (t : Tree) (raw : String) (v context : Value) (binds : Bool) :
    Steady (signWith t raw v context binds) := by
  simp only [signWith]
  split
  · exact steady_bind (steady_orSignatureFault _) fun _ => steady_pure _
  · exact steady_refuse _

lemma steady_sign (r : RegistryId) (signature v context : Value) :
    Steady (sign r signature v context) :=
  steady_bind (steady_readContract _ _) fun _ => steady_signWith _ _ _ _ _

lemma steady_wrap (r : RegistryId) (v : Value) : Steady (wrap r v) := by
  simp only [wrap]
  split
  · exact steady_pure _
  · exact steady_mishap _

lemma steady_enforce (r : RegistryId) (signature v context : Value) :
    Steady (enforce r signature v context) :=
  steady_bind (steady_sign _ _ _ _) fun _ => steady_pure _

lemma congr_verifyAgainst (h : Invoke.Related S i j) (r : RegistryId) (t : Tree)
    (values : List Value) : S (verifyAgainst i r t values) (verifyAgainst j r t values) :=
  Stage.congr_verifyFrom (Registry.congr_accepts h r) _ _ _

lemma congr_verify (h : Invoke.Related S i j) (r : RegistryId) (v values : Value) :
    S (verify i r v values) (verify j r v values) := by
  refine congr_bind steady_heap.congr fun _ => ?_
  split
  · exact congr_bind (Act.steady_orMishap _ _).congr fun _ =>
      congr_bind (congr_verifyAgainst h _ _ _) fun _ => (steady_pure _).congr
  · exact (steady_throw _).congr

lemma steady_positionalValues (ps? : Option (List (Parameter Value))) (args : List Value)
    (kw : Call.Keywords Value) : Steady (positionalValues ps? args kw) := by
  simp only [positionalValues]
  split
  · exact steady_pure _
  · split
    · exact steady_pure _
    · exact steady_bind (Act.steady_orMishap _ _) fun _ => steady_pure _

lemma congr_checkValues (h : Invoke.Related S i j) (r : RegistryId) (target : Signed)
    (args : List Value) (kw : Call.Keywords Value) :
    S (checkValues i r target args kw) (checkValues j r target args kw) := by
  refine congr_bind (steady_positionalValues _ _ _).congr fun values =>
    congr_bind (congr_attempt (congr_verifyAgainst h _ _ _)) fun verdict => ?_
  split
  · exact (steady_pure _).congr
  · simp only
    split
    · exact congr_bind steady_heap.congr fun _ => congr_bind (steady_log _).congr fun _ =>
        (steady_throw _).congr
    · exact (steady_throw _).congr

lemma moves_checkValues (hi : i.Moves R) (r : RegistryId) (target : Signed) (args : List Value)
    (kw : Call.Keywords Value) : Moves R (checkValues i r target args kw) :=
  congr_checkValues (S := fun _ x _ => Moves R x) (j := i) hi _ _ _ _

lemma congr_checkResult (h : Invoke.Related S i j) (r : RegistryId) (target : Signed)
    (result : Value) : S (checkResult i r target result) (checkResult j r target result) := by
  refine congr_bind (Registry.congr_isMember h _ _ _) fun b => ?_
  split
  · split
    · exact congr_bind (steady_signWith _ _ _ _ _).congr fun _ => (steady_pure _).congr
    · exact (steady_pure _).congr
  · exact congr_bind steady_heap.congr fun _ => congr_bind (steady_log _).congr fun _ =>
      (steady_throw _).congr

lemma congr_call (h : Invoke.Related S i j) (r : RegistryId) (target : Signed)
    (args : List Value) (kw : Call.Keywords Value) :
    S (call i r target args kw) (call j r target args kw) :=
  congr_bind (congr_checkValues h _ _ _ _) fun _ => congr_bind (h _ _ _) fun _ =>
    congr_checkResult h _ _ _

end Enforcer

/-! ### Registering types -/

namespace Registry

/-- The step that adds to a registry. -/
lemma basic_register (r : RegistryId) (chain : String) (name predicate : Value) :
    Basic (register r chain name predicate) := by
  rw [register]
  split
  · exact (steady_refuse _).basic
  · next s _ =>
    refine basic_ite (steady_refuse _).basic (basic_ite (steady_refuse _).basic ⟨?_, ?_⟩)
    · intro R _ w
      simp only [Bind.bind, Act.bind, Act.world]
      cases hreg : (w.registry r).insert? ⟨s, predicate, chain, predicate.predicateArity⟩ with
      | none => exact IsMove.refl w
      | some reg => exact IsMove.register hreg
    · refine agree_world_bind fun w w' hw => ?_
      rcases insert?_congr (hw.find? r) ⟨s, predicate, chain, predicate.predicateArity⟩ with
        ⟨hnone, hnone'⟩ | ⟨reg, reg', hreg, hreg', hfind⟩
      · rw [hnone, hnone']
        exact ⟨rfl, hw, rfl⟩
      · rw [hreg, hreg']
        exact ⟨rfl, hw.setRegistry hfind, rfl⟩

lemma basic_extend (r : RegistryId) (name predicate : Value) :
    Basic (extend r name predicate) := basic_register _ _ _ _

lemma steady_subtype (r : RegistryId) (existing : Value) : Steady (subtype r existing) :=
  steady_bind (steady_lookup _ _) fun _ => steady_pure _

lemma basic_bind_refinement (r : RegistryId) (parent : String) (name predicate : Value) :
    Basic (Registry.bind r parent name predicate) :=
  basic_bind (Enforcer.steady_enforce _ _ _ _).basic fun _ =>
    basic_registry_bind (fun reg reg' h => by rw [typeChain_congr h]) fun _ =>
      basic_register _ _ _ _

lemma basic_addAlias (r : RegistryId) (name expression : Value) :
    Basic (addAlias r name expression) :=
  basic_bind (steady_resolve _ _).basic fun _ =>
    basic_registry_bind (fun reg reg' h => by rw [typeChain_congr h]) fun _ =>
      basic_register _ _ _ _

end Registry

/-! ### Calls -/

lemma Operation.congr_run (h : Invoke.Related S i j) (r : RegistryId) (op : Operation)
    (values : List Value) : S (op.run i r values) (op.run j r values) := by
  simp only [Operation.run]
  split
  · refine congr_bind ?_ fun _ => (steady_pure _).congr
    exact (Registry.basic_extend _ _ _).congr
  · exact (Registry.steady_subtype _ _).congr
  · refine congr_bind ?_ fun _ => (steady_pure _).congr
    exact (Registry.basic_addAlias _ _ _).congr
  · exact congr_bind (Registry.steady_resolve _ _).congr fun _ => (steady_pure _).congr
  · exact congr_bind (Registry.steady_chain _ _).congr fun _ => (steady_pure _).congr
  · exact congr_bind (Registry.steady_lookup _ _).congr fun _ => (steady_pure _).congr
  · exact Registry.congr_matches h _ _ _
  · exact congr_bind (Enforcer.steady_sign _ _ _ _).congr fun _ => (steady_pure _).congr
  · exact congr_bind (Enforcer.congr_verify h _ _ _) fun _ => (steady_pure _).congr
  · exact congr_bind (Enforcer.steady_enforce _ _ _ _).congr fun _ => (steady_pure _).congr
  · exact congr_bind (Enforcer.steady_wrap _ _).congr fun _ => (steady_pure _).congr
  · exact (steady_mishap _).congr

lemma Signed.congr_apply (h : Invoke.Related S i j) (s : Signed) (args : List Value)
    (kw : Call.Keywords Value) : S (s.apply i args kw) (s.apply j args kw) := by
  simp only [Signed.apply]
  split
  · exact (steady_mishap _).congr
  · split
    · split
      · exact h _ _ _
      · exact h _ _ _
    · exact Enforcer.congr_call h _ _ _ _

lemma Function.congr_apply (h : Invoke.Related S i j) (f : Function) (args : List Value)
    (kw : Call.Keywords Value) : S (f.apply i args kw) (f.apply j args kw) := by
  cases f with
  | closure c => exact Closure.congr_run h _ _ _
  | method receiver c => exact Closure.congr_run h _ _ _
  | kind serial name parameters =>
    exact congr_bind (Call.basic_values _ _ _).congr fun _ => congr_bind basic_fresh.congr fun _ =>
      (steady_pure _).congr
  | intrinsic b =>
    simp only [Function.apply]
    split
    · exact (Intrinsic.steady_answer _ _).congr
    · exact (steady_mishap _).congr
  | predicate p =>
    exact congr_bind (Call.basic_values _ _ _).congr fun _ => NativePredicate.congr_answer h _ _ _ _
  | tester r e d =>
    exact congr_bind (Call.basic_values _ _ _).congr fun _ =>
      congr_bind (Registry.congr_holds h _ _ _ _) fun _ => (steady_pure _).congr
  | binder r parent =>
    refine congr_bind (Call.basic_values _ _ _).congr fun _ =>
      congr_bind ?_ fun _ => (steady_pure _).congr
    exact (Registry.basic_bind_refinement _ _ _ _).congr
  | operation r op =>
    exact congr_bind (Call.basic_values _ _ _).congr fun _ => Operation.congr_run h _ _ _
  | contract enforce =>
    exact congr_bind (Call.basic_values _ _ _).congr fun _ => (steady_pure _).congr
  | decorator enforce signature context =>
    exact congr_bind (Call.basic_values _ _ _).congr fun _ => h _ _ _
  | signed s => exact Signed.congr_apply h _ _ _

lemma Value.congr_apply (h : Invoke.Related S i j) (v : Value) (args : List Value)
    (kw : Call.Keywords Value) : S (v.apply i args kw) (v.apply j args kw) := by
  simp only [Value.apply]
  split
  · exact Function.congr_apply h _ _ _
  · exact (steady_mishap _).congr

end calls

/-- By induction on the depth, calls keep every congruence of computations. -/
lemma congr_invoke (S : ∀ ⦃α : Type⦄, Act α → Act α → Prop) [Congruence S] (n : Nat) :
    Invoke.Related S (invoke n) (invoke n) := by
  induction n with
  | zero => exact fun _ _ _ => steady_exhausted.congr
  | succ n ih => exact fun v args kw => Value.congr_apply ih v args kw

/-- **Every call moves a world** along each such relation, whatever is called, to whatever depth,
and however the call ends. -/
lemma moves_invoke (n : Nat) : (invoke n).Moves R := congr_invoke (fun _ x _ => Moves R x) n

/-- **No call can tell in which order types were registered.** -/
lemma agree_invoke (n : Nat) : Invoke.Related Agree (invoke n) (invoke n) := congr_invoke Agree n

/-- No call ever takes an entry from a registry or changes one. -/
lemma invoke_extends (n : Nat) (v : Value) (args : List Value) (kw : Call.Keywords Value)
    (w : World) : w.Extends (invoke n v args kw w).world :=
  moves_invoke n v args kw w

/-- No test of a predicate does, either. -/
lemma Registry.holds_extends (n : Nat) (r : RegistryId) (e : Entry) (d : Descriptor) (v : Value)
    (w : World) : w.Extends (holds (invoke n) r e d v w).world :=
  moves_holds (moves_invoke n) r e d v w

/-- A check against a type leaves what is registered. -/
lemma Registry.accepts_extends (n : Nat) (r : RegistryId) (d : Descriptor) (v : Value) (w : World) :
    w.Extends (accepts (invoke n) r d v w).world :=
  congr_accepts (S := fun _ x _ => Act.Moves World.Extends x) (j := invoke n) (moves_invoke n)
    r d v w

end CallContracts
