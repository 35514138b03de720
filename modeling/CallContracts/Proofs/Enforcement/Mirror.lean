import CallContracts.Proofs.Enforcement.Returning
import CallContracts.Proofs.Registry.History
import CallContracts.Proofs.World.Matching

/-!
Enforced functions that are as good as the function behind them.

* `Descriptor.IsBasic`: a base type without arguments; a check against it says yes or no and does
  nothing else (`Registry.accepts_basic`), and so a check against a stage of such types passes or
  rejects the values and does nothing else (`Stage.verifyFrom_quiet`);
* `Enforcer.Mirrors`: a call of an enforced function is a call of the function behind it where its
  first stage accepts the values, and changes nothing where it does not;
* `Enforcer.mirrors_of_basic`: this is so if the first stage is basic and the results of the
  function are of the type that its contract promises.
-/

namespace CallContracts

/-! ### Base types without arguments -/

/-- A base type without arguments. -/
def Descriptor.IsBasic (d : Descriptor) : Prop :=
  d.arguments? = none ∧ ∃ t ∈ Registry.baseTypes, d.name = t.1

instance (d : Descriptor) : Decidable d.IsBasic := instDecidableAnd

namespace Registry

variable {invoke : Invoke} {r : RegistryId} {w : World} {d : Descriptor}

/-- Without arguments a base type says yes or no and does nothing else. -/
lemma answer_basic {t : String × NativePredicate × String} (ht : t ∈ baseTypes)
    (hd : d.arguments? = none) (v membership : Value) :
    ∃ b, t.2.1.answer invoke v (.descriptor d) membership w = ⟨.ok (.bool b), w, []⟩ := by
  have harray : ∃ b, NativePredicate.isArray.answer invoke v (.descriptor d) membership w =
      ⟨.ok (.bool b), w, []⟩ := by
    have hheap : Act.heap w = ⟨.ok w.heap, w, []⟩ := rfl
    have hdescriptor : NativePredicate.descriptorOf (.descriptor d) w = ⟨.ok d, w, []⟩ := rfl
    rw [NativePredicate.answer, Act.bind_of_pure hheap]
    rcases NativePredicate.arrayItems? w.heap v with _ | items
    · exact ⟨false, rfl⟩
    · have hitems : NativePredicate.isArrayOf invoke items d membership w = ⟨.ok true, w, []⟩ := by
        simp [NativePredicate.isArrayOf, hd, pure, Act.pure]
      exact ⟨true, (Act.bind_of_pure hdescriptor).trans (Act.bind_of_pure hitems)⟩
  rw [baseTypes] at ht
  simp only [List.mem_cons, List.not_mem_nil, or_false] at ht
  rcases ht with rfl | rfl | rfl | rfl | rfl | rfl | rfl | rfl | rfl | rfl | rfl
  all_goals first
    | exact ⟨_, rfl⟩
    | exact harray
    | exact ⟨_, answer_isFunction membership hd⟩

/-- A check against a base type without arguments says yes or no and does nothing else. -/
lemma accepts_basic (hd : d.IsBasic) (hbase : HasBase (w.registry r)) (n : Nat) (v : Value) :
    ∃ b, accepts (CallContracts.invoke (n + 1)) r d v w = ⟨.ok b, w, []⟩ := by
  obtain ⟨harguments, t, ht, hname⟩ := hd
  obtain ⟨b, hb⟩ : ∃ b, t.2.1.answer (CallContracts.invoke n) v (.descriptor d) (membershipTest r)
      w = ⟨.ok (.bool b), w, []⟩ := answer_basic ht harguments v _
  exact ⟨b, accepts_base ht hbase hname hb⟩

end Registry

namespace Stage

variable {accepts : Descriptor → Value → Act Bool} {w : World} {s : Stage}

/-- A check that only asks and never fails to get an answer passes or rejects, and does nothing
else. -/
lemma verifyFrom_quiet (hs : s ≠ []) (h : ∀ d ∈ s, ∀ v, ∃ b, accepts d v w = ⟨.ok b, w, []⟩)
    (consumed : Nat) (values : List Value) :
    ∃ outcome, verifyFrom accepts consumed values s w = ⟨outcome, w, []⟩ ∧
      ∀ stop, outcome = .error stop → ∃ f, stop = .fault f ∧ f.isRejection = true := by
  induction s generalizing consumed values with
  | nil => exact absurd rfl hs
  | cons d s ih =>
    clear hs
    have hproceed : ∀ verdict consumed left, ∃ outcome,
        proceed accepts consumed d s verdict left w = ⟨outcome, w, []⟩ ∧
          ∀ stop, outcome = .error stop → ∃ f, stop = .fault f ∧ f.isRejection = true := by
      intro verdict consumed left
      rw [proceed]
      by_cases hend : (s.isEmpty || left.isEmpty) = true
      · rw [if_pos hend]
        split
        · exact ⟨_, rfl, fun stop hstop => ⟨_, (Except.error.inj hstop).symm, rfl⟩⟩
        · exact ⟨_, rfl, by simp⟩
      · rw [if_neg hend]
        have hs : s ≠ [] := by
          rintro rfl
          simp at hend
        exact ih hs (fun d hd => h d (by simp [hd])) consumed left
    have hstep : (∃ verdict, step accepts consumed d values w = ⟨.ok verdict, w, []⟩) ∨
        ∃ f, f.isRejection = true ∧
          step accepts consumed d values w = ⟨.error (.fault f), w, []⟩ := by
      by_cases hmarker : values.head?.any Value.isAbsent = true ∧ d.optional = true
      · rw [step_of_marker hmarker.1 hmarker.2]
        exact .inl ⟨.skip, rfl⟩
      · obtain ⟨b, hb⟩ := h d (by simp) (offered values)
        rw [step_of_asked (by simpa using hmarker), Act.bind_of_pure hb]
        cases b with
        | true => exact .inl ⟨.accept, rfl⟩
        | false =>
          cases d.optional with
          | true => exact .inl ⟨.skip, rfl⟩
          | false => exact .inr ⟨_, rfl, rfl⟩
    rw [verifyFrom_cons]
    rcases hstep with ⟨verdict, hstep⟩ | ⟨f, hf, hstep⟩
    · rw [Act.bind_of_pure hstep]
      split
      · exact hproceed _ _ _
      · exact hproceed _ _ _
    · exact ⟨_, Act.bind_of_error hstep, fun stop hstop => ⟨f, (Except.error.inj hstop).symm, hf⟩⟩

end Stage

namespace Enforcer

variable {r : RegistryId} {t : Tree} {target : Signed} {w : World} {args : List Value}

/-- A check against a stage of base types passes or rejects, and does nothing else. -/
lemma verifyAgainst_basic {stage : Stage} (hstage : t.parameters? = some stage) (hne : stage ≠ [])
    (hbasic : ∀ d ∈ stage, d.IsBasic) (hbase : Registry.HasBase (w.registry r)) (n : Nat)
    (args : List Value) :
    ∃ outcome, verifyAgainst (invoke (n + 1)) r t args w = ⟨outcome, w, []⟩ ∧
      ∀ stop, outcome = .error stop → ∃ f, stop = .fault f ∧ f.isRejection = true := by
  rw [verifyAgainst, hstage]
  exact Stage.verifyFrom_quiet hne (fun d hd => Registry.accepts_basic (hbasic d hd) hbase n) 0 args

/-- A check of the values of a call that passes without more ado. -/
lemma checkValues_of_ok {invoke : Invoke} {verdict : Verdict}
    (h : verifyAgainst invoke r target.tree args w = ⟨.ok verdict, w, []⟩) :
    checkValues invoke r target args [] w = ⟨.ok (), w, []⟩ := by
  have hvalues : positionalValues target.parameters? args [] w = ⟨.ok args, w, []⟩ := rfl
  rw [checkValues, Act.bind_of_pure hvalues, Act.bind_of_pure (Act.attempt_of_ok h)]
  rfl

/-- A check of the values of a call that rejects them without more ado. -/
lemma checkValues_of_rejection {invoke : Invoke} {f : Fault} (hf : f.isRejection = true)
    (h : verifyAgainst invoke r target.tree args w = ⟨.error (.fault f), w, []⟩) :
    ∃ es, checkValues invoke r target args [] w = ⟨.error (.fault f), w, es⟩ := by
  have hvalues : positionalValues target.parameters? args [] w = ⟨.ok args, w, []⟩ := rfl
  rw [checkValues, Act.bind_of_pure hvalues, Act.bind_of_pure (Act.attempt_of_fault h)]
  simp only [hf, if_true]
  exact ⟨_, rfl⟩

/-! ### Results -/

/-- The result of a last call is returned as it is, if it is of the return type. -/
lemma checkResult_last {invoke : Invoke} {u : Value} (hsize : target.tree.size = 2)
    (h : Registry.isMember invoke r (resultType target.tree.remaining) u w = ⟨.ok true, w, []⟩) :
    checkResult invoke r target u w = ⟨.ok u, w, []⟩ := by
  have hremaining : ¬ 1 < target.tree.remaining.size := by
    simp only [Tree.size, Tree.remaining, List.length_drop] at hsize ⊢
    omega
  rw [checkResult, Act.bind_of_pure h]
  simp [hremaining, pure, Act.pure]

/-- The function that a call of a curried contract returns is enforced with the stages left, if it
can take the next one. -/
lemma checkResult_curried {n : Nat} {g : Function} (hsize : 2 < target.tree.size)
    (hbase : Registry.HasBase (w.registry r))
    (hfits : Fits (.plain g target.tree.remaining target.tree.remaining.text target.context
      false)) :
    checkResult (invoke (n + 1)) r target (.function g) w =
      ⟨.ok (.function (.signed (.enforced (.plain g target.tree.remaining
        target.tree.remaining.text target.context false) r))), w, []⟩ := by
  have hremaining : 1 < target.tree.remaining.size := by
    simp only [Tree.size, Tree.remaining, List.length_drop] at hsize ⊢
    omega
  have hmember : Registry.isMember (invoke (n + 1)) r (resultType target.tree.remaining)
      (.function g) w = ⟨.ok true, w, []⟩ := by
    rw [resultType, if_pos hremaining]
    exact Registry.isMember_callable hbase n (.function g)
  have hsign : signWith target.tree.remaining target.tree.remaining.text (.function g)
      target.context false w = ⟨.ok (.plain g target.tree.remaining target.tree.remaining.text
        target.context false), w, []⟩ := by
    have hcount : Signature.checkCount target.tree.remaining
        (Value.function (.signed (.plain g target.tree.remaining target.tree.remaining.text
          target.context false))).parameterCount = .ok () := hfits
    rw [signWith_function, hcount]
  rw [checkResult, Act.bind_of_pure hmember]
  simp only [if_true, hremaining]
  rw [Act.bind_of_pure hsign]
  rfl

/-! ### Mirrors -/

/-- An enforced function stands for another one: where its first stage accepts the values, a call of
it is as good as a call of the other, with a result that stands for the other's; where it does not,
the call is rejected and changes nothing. -/
structure Mirrors (r : RegistryId) (s : Signed) (f : Function) (same : Value → Value → Prop)
    (w : World) : Prop where
  accepted : ∀ n args verdict,
    (verifyAgainst (invoke (n + 1)) r s.tree args w).outcome = .ok verdict →
      (invoke n (.function f) args [] w).Matches same
        (invoke (n + 2) (.function (.signed s)) args [] w)
  rejected : ∀ n args,
    (∀ verdict, (verifyAgainst (invoke (n + 1)) r s.tree args w).outcome ≠ .ok verdict) →
      ∃ e, (invoke (n + 2) (.function (.signed s)) args [] w).outcome = .error (.fault e) ∧
        e.isRejection = true ∧ (invoke (n + 2) (.function (.signed s)) args [] w).world = w

/-- **An enforced function stands for the function behind it** if its first stage is of base types
and the results are of the type that the contract promises. -/
lemma mirrors_of_basic {f : Function} {raw : String} {b : Bool} {same : Value → Value → Prop}
    {stage : Stage} (hstage : t.parameters? = some stage) (hne : stage ≠ [])
    (hbasic : ∀ d ∈ stage, d.IsBasic) (hbase : Registry.HasBase (w.registry r))
    (hresult : ∀ n args u w' es, invoke n (.function f) args [] w = ⟨.ok u, w', es⟩ →
      ∀ m, ∃ v, checkResult (invoke (m + 1)) r (.plain f t raw .null b) u w' = ⟨.ok v, w', []⟩ ∧
        same u v) :
    Mirrors r (.enforced (.plain f t raw .null b) r) f same w := by
  have hcall : ∀ n args, invoke (n + 2)
      (.function (.signed (.enforced (.plain f t raw .null b) r))) args [] =
        call (invoke (n + 1)) r (.plain f t raw .null b) args [] :=
    fun n args => invoke_enforced (n + 1) rfl
  refine ⟨fun n args verdict h => ?_, fun n args h => ?_⟩
  · obtain ⟨outcome, hverify, -⟩ :=
      verifyAgainst_basic (t := t) hstage hne hbasic hbase n args
    have h' : (verifyAgainst (invoke (n + 1)) r t args w).outcome = .ok verdict := h
    rw [hverify] at h'
    obtain rfl : outcome = .ok verdict := h'
    have hvalues : checkValues (invoke (n + 1)) r (.plain f t raw .null b) args [] w =
        ⟨.ok (), w, []⟩ := checkValues_of_ok hverify
    rw [hcall, call, Act.bind_of_pure hvalues, invoke_plain n rfl]
    rcases hraw : invoke n (.function f) args [] w with ⟨stop | u, w', es⟩
    · rw [Act.bind_of_error hraw]
      exact ⟨rfl, rfl, rfl⟩
    · obtain ⟨v, hv, hsame⟩ := hresult n args u w' es hraw n
      rw [Act.bind_of_ok hraw, hv]
      exact ⟨hsame, rfl, by simp⟩
  · obtain ⟨outcome, hverify, hrejects⟩ :=
      verifyAgainst_basic (t := t) hstage hne hbasic hbase n args
    have h' : ∀ verdict, (verifyAgainst (invoke (n + 1)) r t args w).outcome ≠ .ok verdict := h
    rw [hverify] at h'
    rcases outcome with stop | verdict
    · obtain ⟨e, rfl, he⟩ := hrejects stop rfl
      obtain ⟨es, hvalues⟩ : ∃ es, checkValues (invoke (n + 1)) r (.plain f t raw .null b) args []
          w = ⟨.error (.fault e), w, es⟩ := checkValues_of_rejection he hverify
      rw [hcall, call, Act.bind_of_error hvalues]
      exact ⟨e, rfl, he, rfl⟩
    · exact absurd rfl (h' verdict)

end Enforcer

end CallContracts
