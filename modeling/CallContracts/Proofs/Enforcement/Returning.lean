import CallContracts.Proofs.Enforcement.Pass
import CallContracts.Proofs.Registry.Membership

/-!
When a call of an enforced function returns.

* `Stage.returns_verifyFrom_cons_iff`: a required descriptor must accept the value that it is
  offered;
* `Enforcer.returns_checkValues_iff` and `Enforcer.returns_checkResult_iff`: the two checks of a
  call;
* `Enforcer.returns_call_iff`: **a call of a contract with one parameter stage returns** exactly
  when the check of its values succeeds, the callable returns, and its result is of the return
  type.
-/

namespace CallContracts

/-! ### Checking values -/

namespace Stage

variable {accepts : Descriptor → Value → Act Bool} {w w' : World} {d : Descriptor} {s : Stage}
  {v : Value} {rest : List Value} {consumed : Nat} {verdict : Verdict}

/-- A required descriptor is asked about the value that it is offered. -/
lemma verifyFrom_required (hd : d.optional = false) :
    verifyFrom accepts consumed (v :: rest) (d :: s) = accepts d (presented v) >>= fun b =>
      if b then proceed accepts (consumed + 1) d s .accept rest
      else Act.throw (.typeMismatch d.typeText (presented v) consumed) := by
  have hstep : step accepts consumed d (v :: rest) = accepts d (presented v) >>= fun b =>
      if b then pure .accept
      else Act.throw (.typeMismatch d.typeText (presented v) consumed) := by
    rw [step_of_asked fun _ => hd, offered_cons]
    simp [hd]
  rw [verifyFrom_cons, hstep, Act.bind_assoc]
  congr 1
  funext b
  cases b <;> rfl

/-- It must accept it. -/
lemma returns_verifyFrom_cons_iff (hd : d.optional = false) :
    (verifyFrom accepts consumed (v :: rest) (d :: s)).Returns w verdict w' ↔
      ∃ w₁, (accepts d (presented v)).Returns w true w₁ ∧
        (proceed accepts (consumed + 1) d s .accept rest).Returns w₁ verdict w' := by
  rw [verifyFrom_required hd, Act.returns_bind_iff]
  constructor
  · rintro ⟨b, w₁, hb, hrest⟩
    cases b with
    | false => exact absurd hrest Act.not_returns_throw
    | true => exact ⟨w₁, hb, hrest⟩
  · rintro ⟨w₁, hb, hrest⟩
    exact ⟨true, w₁, hb, hrest⟩

/-- A value that the next descriptor accepts at once. -/
lemma proceed_of_accepts {d' : Descriptor} (hv : v.isAbsent = false)
    (h : accepts d v w = ⟨.ok true, w, []⟩) :
    proceed accepts consumed d' (d :: s) .accept (v :: rest) w =
      proceed accepts (consumed + 1) d s .accept rest w := by
  have hstep : step accepts consumed d (v :: rest) w = ⟨.ok .accept, w, []⟩ := by
    rw [step_of_asked fun habsent => by simp [hv] at habsent, offered_of_not_absent hv,
      Act.bind_of_pure h]
    rfl
  rw [proceed, if_neg (by simp), verifyFrom_cons, Act.bind_of_pure hstep]
  rfl

end Stage

namespace Enforcer

variable {invoke : Invoke} {r : RegistryId} {target : Signed} {args : List Value} {w w' : World}
  {u v : Value}

/-- A single value passes the check against a single required descriptor that accepts it. -/
lemma returns_verifyAgainst_single_iff {t : Tree} {d : Descriptor}
    (hstage : t.parameters? = some [d]) (hd : d.optional = false) (hv : v.isAbsent = false) :
    (∃ verdict, (verifyAgainst invoke r t [v]).Returns w verdict w') ↔
      (Registry.accepts invoke r d v).Returns w true w' := by
  have hseen : Stage.presented v = v := Stage.presented_of_not_absent hv
  rw [verifyAgainst, hstage]
  constructor
  · rintro ⟨verdict, h⟩
    obtain ⟨w₁, haccepts, hrest⟩ := (Stage.returns_verifyFrom_cons_iff hd).1 h
    obtain ⟨-, rfl⟩ := (Act.returns_pure_iff (a := Verdict.accept)).1 hrest
    rwa [hseen] at haccepts
  · intro h
    rw [← hseen] at h
    exact ⟨.accept, (Stage.returns_verifyFrom_cons_iff hd).2
      ⟨w', h, (Act.returns_pure_iff (a := Verdict.accept)).2 ⟨rfl, rfl⟩⟩⟩

/-- The check of a call without keywords. -/
lemma returns_checkValues_iff :
    (checkValues invoke r target args []).Returns w () w' ↔
      ∃ verdict, (verifyAgainst invoke r target.tree args).Returns w verdict w' := by
  have hvalues : positionalValues target.parameters? args [] w = ⟨.ok args, w, []⟩ := rfl
  rw [checkValues, Act.returns_bind_of_pure hvalues, Act.returns_bind_iff]
  constructor
  · rintro ⟨e | verdict, w₁, hattempt, hrest⟩
    · simp only at hrest
      split at hrest
      · obtain ⟨_, _, -, hrest⟩ := Act.returns_bind_iff.1 hrest
        obtain ⟨_, _, -, hrest⟩ := Act.returns_bind_iff.1 hrest
        exact absurd hrest Act.not_returns_throw
      · exact absurd hrest Act.not_returns_throw
    · obtain ⟨-, rfl⟩ := Act.returns_pure_iff.1 hrest
      exact ⟨verdict, Act.returns_attempt_iff.1 hattempt⟩
  · rintro ⟨verdict, hverdict⟩
    exact ⟨.ok verdict, w', Act.returns_attempt_iff.2 hverdict, Act.returns_pure_iff.2 ⟨rfl, rfl⟩⟩

/-! ### Checking results -/

/-- The result of the last call is returned as it is, if it is of the return type. -/
lemma returns_checkResult_iff (hsize : target.tree.size = 2) :
    (checkResult invoke r target u).Returns w v w' ↔ u = v ∧
      (Registry.isMember invoke r (resultType target.tree.remaining) u).Returns w true w' := by
  have hremaining : ¬ 1 < target.tree.remaining.size := by
    simp only [Tree.size, Tree.remaining, List.length_drop] at hsize ⊢
    omega
  rw [checkResult, Act.returns_bind_iff]
  simp only [hremaining, if_false]
  constructor
  · rintro ⟨member, w₁, hmember, hrest⟩
    cases member with
    | false =>
      obtain ⟨_, _, -, hrest⟩ := Act.returns_bind_iff.1 hrest
      obtain ⟨_, _, -, hrest⟩ := Act.returns_bind_iff.1 hrest
      exact absurd hrest Act.not_returns_throw
    | true =>
      obtain ⟨hresult, rfl⟩ := Act.returns_pure_iff.1 hrest
      exact ⟨hresult, hmember⟩
  · rintro ⟨rfl, hmember⟩
    exact ⟨true, w', hmember, Act.returns_pure_iff.2 ⟨rfl, rfl⟩⟩

/-! ### Calls -/

section calls

variable {f : Function} {t : Tree} {raw : String} {b : Bool} {n : Nat}

/-- **A call of a contract with one parameter stage returns** exactly when the check of its values
succeeds, the callable returns, and its result is of the return type. -/
lemma returns_call_iff (hsize : t.size = 2) :
    (CallContracts.invoke (n + 2) (.function (.signed (.enforced (.plain f t raw .null b) r))) args
        []).Returns w v w' ↔
      ∃ w₁ w₂ verdict,
        (verifyAgainst (CallContracts.invoke (n + 1)) r t args).Returns w verdict w₁ ∧
        (CallContracts.invoke n (.function f) args []).Returns w₁ v w₂ ∧
        (Registry.isMember (CallContracts.invoke (n + 1)) r (resultType t.remaining) v).Returns w₂
          true w' := by
  have hsize' : (Signed.plain f t raw .null b).tree.size = 2 := hsize
  rw [invoke_enforced (n + 1) rfl, call, Act.returns_bind_iff]
  constructor
  · rintro ⟨_, w₁, hvalues, hrest⟩
    obtain ⟨verdict, hverdict⟩ := returns_checkValues_iff.1 hvalues
    obtain ⟨u, w₂, hcall, hresult⟩ := Act.returns_bind_iff.1 hrest
    rw [invoke_plain n rfl] at hcall
    obtain ⟨rfl, hmember⟩ := (returns_checkResult_iff hsize').1 hresult
    exact ⟨w₁, w₂, verdict, hverdict, hcall, hmember⟩
  · rintro ⟨w₁, w₂, verdict, hverdict, hcall, hmember⟩
    refine ⟨(), w₁, returns_checkValues_iff.2 ⟨verdict, hverdict⟩, ?_⟩
    rw [Act.returns_bind_iff, invoke_plain n rfl]
    exact ⟨v, w₂, hcall, (returns_checkResult_iff hsize').2 ⟨rfl, hmember⟩⟩

/-- A call of an enforced function that returns has gone two levels deep. -/
lemma exists_of_returns_enforced
    (h : (CallContracts.invoke n (.function (.signed (.enforced target r))) args []).Returns w v
      w') : ∃ m, n = m + 2 := by
  match n with
  | 0 => exact absurd h Act.not_returns_exhausted
  | 1 =>
    rw [invoke_enforced 0 rfl, call] at h
    obtain ⟨_, w₁, -, hrest⟩ := Act.returns_bind_iff.1 h
    obtain ⟨_, w₂, hcall, -⟩ := Act.returns_bind_iff.1 hrest
    exact absurd hcall Act.not_returns_exhausted
  | n + 2 => exact ⟨n, rfl⟩

end calls

end Enforcer

end CallContracts
