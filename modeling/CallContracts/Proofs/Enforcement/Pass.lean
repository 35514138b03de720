import CallContracts.Proofs.Call.Binding
import CallContracts.Proofs.Enforcement.Levels
import CallContracts.Proofs.Registry.Base

/-!
What a successful check of a call's values has looked at.

* `Stage.Pass`: the visits of a pass over a stage, world after world, and the values it leaves;
* `Stage.exists_pass`: a check that succeeds is such a pass, which has run out of values or of
  descriptors;
* `Stage.outcome_verifyFrom_append`: a check goes on from where a pass over its first descriptors
  has come to;
* `Enforcer.checkValues_pass`: so the values of a call split into those that a descriptor of the
  stage in force has consumed, in order, and those left over; values are left over exactly when
  there are more values and skipped descriptors than descriptors;
* `Enforcer.not_forall_values_checked`: which happens.
-/

namespace CallContracts

/-! ### Passes -/

namespace Stage

/-- A descriptor, and the value that it has consumed. -/
abbrev Visit := Descriptor × Option Value

/-- The value that a descriptor is asked about, given the values that are left. -/
def offered (values : List Value) : Value :=
  if values.head?.any Value.isAbsent then .null else values.head?.getD .null

/-- The value that a descriptor sees of a value on offer. -/
def presented (v : Value) : Value := if v.isAbsent then .null else v

/-- A pass over a stage: the world and the values it starts from, its visits, and the world and
the values it leaves. -/
inductive Pass (accepts : Descriptor → Value → Act Bool) :
    World → Stage → List Value → List Visit → World → List Value → Prop
  /-- The pass ends. -/
  | stop {w : World} {s : Stage} {values : List Value} : Pass accepts w s values [] w values
  /-- A descriptor accepts the next value. -/
  | accept {w w' w'' : World} {d : Descriptor} {s : Stage} {v : Value}
    {values left : List Value} {visits : List Visit} {es : List Event} :
    (v.isAbsent = true → d.optional = false) →
      accepts d (offered (v :: values)) w = ⟨.ok true, w', es⟩ →
        Pass accepts w' s values visits w'' left →
          Pass accepts w (d :: s) (v :: values) ((d, some v) :: visits) w'' left
  /-- An optional descriptor consumes the marker of a parameter left out. -/
  | marker {w w' : World} {d : Descriptor} {s : Stage} {v : Value} {values left : List Value}
    {visits : List Visit} :
    v.isAbsent = true → d.optional = true → Pass accepts w s values visits w' left →
      Pass accepts w (d :: s) (v :: values) ((d, some v) :: visits) w' left
  /-- An optional descriptor does not accept the next value, which stays. -/
  | skip {w w' w'' : World} {d : Descriptor} {s : Stage} {v : Value} {values left : List Value}
    {visits : List Visit} {es : List Event} :
    v.isAbsent = false → d.optional = true → accepts d v w = ⟨.ok false, w', es⟩ →
      Pass accepts w' s (v :: values) visits w'' left →
        Pass accepts w (d :: s) (v :: values) ((d, none) :: visits) w'' left
  /-- Without values the first descriptor is asked about null. -/
  | alone {w w' : World} {d : Descriptor} {s : Stage} {b : Bool} {es : List Event} :
    accepts d .null w = ⟨.ok b, w', es⟩ → (b = false → d.optional = true) →
      Pass accepts w (d :: s) [] [(d, none)] w' []

variable {accepts : Descriptor → Value → Act Bool} {w w' : World} {d : Descriptor} {s : Stage}
  {values left : List Value} {visits : List Visit}

lemma presented_of_not_absent {v : Value} (h : v.isAbsent = false) : presented v = v := by
  simp [presented, h]

lemma offered_cons (v : Value) (values : List Value) : offered (v :: values) = presented v := rfl

lemma offered_of_not_absent {v : Value} (h : v.isAbsent = false) :
    offered (v :: values) = v := by
  simp [offered, h]

/-! ### Facts about passes -/

namespace Pass

/-- Each value is consumed by one visit or left over, in order. -/
lemma values_eq (h : Pass accepts w s values visits w' left) :
    values = visits.filterMap Prod.snd ++ left := by
  induction h with
  | stop => simp
  | accept _ _ _ ih => simpa using ih
  | marker _ _ _ ih => simpa using ih
  | skip _ _ _ _ ih => simpa using ih
  | alone _ _ => simp

/-- The visits go through the stage from its beginning. -/
lemma visited_prefix (h : Pass accepts w s values visits w' left) :
    visits.map Prod.fst <+: s := by
  induction h with
  | stop => simp
  | accept _ _ _ ih => simpa using ih
  | marker _ _ _ ih => simpa using ih
  | skip _ _ _ _ ih => simpa using ih
  | alone _ _ => simp

/-- Every visit consumes one value or none. -/
lemma length_add (h : Pass accepts w s values visits w' left) :
    values.length + visits.countP (·.2.isNone) = visits.length + left.length := by
  induction h with
  | stop => simp
  | accept _ _ _ ih =>
    simp only [List.length_cons, List.countP_cons, Option.isNone_some, Bool.false_eq_true,
      if_false] at ih ⊢
    omega
  | marker _ _ _ ih =>
    simp only [List.length_cons, List.countP_cons, Option.isNone_some, Bool.false_eq_true,
      if_false] at ih ⊢
    omega
  | skip _ _ _ _ ih =>
    simp only [List.length_cons, List.countP_cons, Option.isNone_none, if_true] at ih ⊢
    omega
  | alone _ _ => simp

/-- A consumed value was accepted, in a world that the pass went through, or is a marker. -/
lemma accepted (h : Pass accepts w s values visits w' left) {v : Value}
    (hmem : (d, some v) ∈ visits) (hv : v.isAbsent = false) :
    ∃ w₁ w₂ es, accepts d v w₁ = ⟨.ok true, w₂, es⟩ := by
  induction h with
  | stop => simp at hmem
  | @accept w₁ w₂ _ d' _ v' _ _ _ es _ haccepts _ ih =>
    rcases List.mem_cons.1 hmem with heq | hmem
    · simp only [Prod.mk.injEq, Option.some.injEq] at heq
      obtain ⟨rfl, rfl⟩ := heq
      rw [offered_of_not_absent hv] at haccepts
      exact ⟨w₁, w₂, es, haccepts⟩
    · exact ih hmem
  | marker habsent _ _ ih =>
    rcases List.mem_cons.1 hmem with heq | hmem
    · simp only [Prod.mk.injEq, Option.some.injEq] at heq
      rw [heq.2, habsent] at hv
      simp at hv
    · exact ih hmem
  | skip _ _ _ _ ih =>
    rcases List.mem_cons.1 hmem with heq | hmem
    · simp at heq
    · exact ih hmem
  | alone _ _ => simp at hmem

/-- With a value on offer only an optional descriptor consumes none. -/
lemma optional_of_skipped (h : Pass accepts w s values visits w' left) (hleft : left ≠ [])
    (hmem : (d, none) ∈ visits) : d.optional = true := by
  induction h with
  | stop => simp at hmem
  | accept _ _ _ ih =>
    rcases List.mem_cons.1 hmem with heq | hmem
    · simp at heq
    · exact ih hleft hmem
  | marker _ _ _ ih =>
    rcases List.mem_cons.1 hmem with heq | hmem
    · simp at heq
    · exact ih hleft hmem
  | skip _ hoptional _ _ ih =>
    rcases List.mem_cons.1 hmem with heq | hmem
    · rw [(Prod.mk.inj heq).1]
      exact hoptional
    · exact ih hleft hmem
  | alone _ _ => exact absurd rfl hleft

end Pass

/-! ### Successful checks -/

/-- An optional descriptor in front of a marker. -/
lemma step_of_marker {consumed : Nat} (hhead : values.head?.any Value.isAbsent = true)
    (hoptional : d.optional = true) : step accepts consumed d values = pure .skip := by
  simp [step, hhead, hoptional]

/-- In all other cases the descriptor is asked. -/
lemma step_of_asked {consumed : Nat}
    (h : values.head?.any Value.isAbsent = true → d.optional = false) :
    step accepts consumed d values = accepts d (offered values) >>= fun b =>
      if b then pure .accept
      else if d.optional then pure .skip
      else Act.throw (.typeMismatch d.typeText (offered values) consumed) := by
  have hmarker : (values.head?.any Value.isAbsent && d.optional) = false := by
    cases hhead : values.head?.any Value.isAbsent
    · rfl
    · simp [h hhead]
  simp only [step, hmarker, offered]
  rfl

/-- How a descriptor fares that is asked and does not fail. -/
lemma exists_of_step_asked {consumed : Nat} {verdict : Verdict} {es : List Event}
    (hasked : values.head?.any Value.isAbsent = true → d.optional = false)
    (h : step accepts consumed d values w = ⟨.ok verdict, w', es⟩) :
    ∃ b es', accepts d (offered values) w = ⟨.ok b, w', es'⟩ ∧
      (b = true ∧ verdict = .accept ∨ b = false ∧ d.optional = true ∧ verdict = .skip) := by
  rw [step_of_asked hasked] at h
  obtain ⟨b, w₁, es₁, haccepts, hok, hworld⟩ := Act.exists_of_bind_ok (by rw [h])
  rw [h] at hworld
  cases b with
  | true =>
    obtain rfl : w' = w₁ := hworld
    exact ⟨true, es₁, haccepts, Or.inl ⟨rfl, (Except.ok.inj hok).symm⟩⟩
  | false =>
    by_cases hoptional : d.optional = true
    · simp only [hoptional, if_true, Bool.false_eq_true, if_false] at hok hworld
      obtain rfl : w' = w₁ := hworld
      exact ⟨false, es₁, haccepts, Or.inr ⟨rfl, hoptional, (Except.ok.inj hok).symm⟩⟩
    · simp [hoptional, Act.throw] at hok

/-- A call without values is a pass that asks the first descriptor alone. -/
lemma Pass.alone_of_asked {verdict : Verdict} {b : Bool} {es : List Event}
    (haccepts : accepts d .null w = ⟨.ok b, w', es⟩)
    (hverdict : b = true ∧ verdict = .accept ∨
      b = false ∧ d.optional = true ∧ verdict = .skip) :
    Pass accepts w (d :: s) [] [(d, none)] w' [] := by
  refine .alone haccepts fun hb => ?_
  rcases hverdict with ⟨rfl, -⟩ | ⟨-, hoptional, -⟩
  · simp at hb
  · exact hoptional

/-- A value that an optional descriptor was asked about is no marker. -/
lemma not_absent_of_optional {v : Value} (hasked : v.isAbsent = true → d.optional = false)
    (hoptional : d.optional = true) : v.isAbsent = false := by
  by_contra habsent
  rw [hasked (by simpa using habsent)] at hoptional
  simp at hoptional

/-- The end of a pass: descriptors or values have run out. -/
def Exhausted (s : Stage) (visits : List Visit) (left : List Value) : Prop :=
  left = [] ∨ visits.length = s.length

/-- What comes after a visit: the end of the pass, or a pass over the descriptors left. -/
def proceed (accepts : Descriptor → Value → Act Bool) (consumed : Nat) (d : Descriptor)
    (s : Stage) (verdict : Verdict) (left : List Value) : Act Verdict :=
  if s.isEmpty || left.isEmpty then
    if verdict == .skip && !left.isEmpty then Act.throw (.unfulfilledOptional d.typeText left)
    else pure verdict
  else verifyFrom accepts consumed left s

lemma verifyFrom_cons {consumed : Nat} :
    verifyFrom accepts consumed values (d :: s) = step accepts consumed d values >>= fun verdict =>
      if consumes verdict values then
        proceed accepts (consumed + 1) d s verdict (values.drop 1)
      else proceed accepts consumed d s verdict values := by
  rw [verifyFrom]
  congr 1
  funext verdict
  split <;> rfl

lemma proceed_of_ne_nil {consumed : Nat} {verdict : Verdict} (hs : s ≠ []) (hvalues : values ≠ []) :
    proceed accepts consumed d s verdict values = verifyFrom accepts consumed values s := by
  rw [proceed, if_neg (by simp [hs, hvalues])]

lemma proceed_accept {consumed : Nat} (h : s = [] ∨ values = []) :
    proceed accepts consumed d s .accept values = pure .accept := by
  rw [proceed, if_pos (by simpa using h)]
  rfl

lemma proceed_skip_nil {consumed : Nat} : proceed accepts consumed d s .skip [] = pure .skip := by
  simp [proceed]

lemma proceed_skip_of_ne_nil {consumed : Nat} (h : values ≠ []) :
    proceed accepts consumed d [] .skip values =
      Act.throw (.unfulfilledOptional d.typeText values) := by
  simp [proceed, h]

/-! ### Checks that go on from where a pass has come to -/

section visits

variable {v : Value} {consumed : Nat} {es : List Event}

/-- A descriptor that accepts the value on offer consumes it. -/
lemma outcome_verifyFrom_accept (hasked : v.isAbsent = true → d.optional = false)
    (haccepts : accepts d (offered (v :: values)) w = ⟨.ok true, w', es⟩) :
    (verifyFrom accepts consumed (v :: values) (d :: s) w).outcome =
      (proceed accepts (consumed + 1) d s .accept values w').outcome := by
  rw [verifyFrom_cons, step_of_asked (by simpa using hasked), Act.bind_assoc,
    Act.bind_of_ok haccepts, if_pos rfl, Act.pure_bind, if_pos (by simp [consumes]),
    List.drop_one, List.tail_cons]

/-- An optional descriptor consumes the marker of a parameter left out. -/
lemma verifyFrom_marker (hv : v.isAbsent = true) (hoptional : d.optional = true) :
    verifyFrom accepts consumed (v :: values) (d :: s) =
      proceed accepts (consumed + 1) d s .skip values := by
  rw [verifyFrom_cons, step_of_marker (by simpa using hv) hoptional, Act.pure_bind,
    if_pos (by simp [consumes, hv]), List.drop_one, List.tail_cons]

/-- An optional descriptor that rejects the value on offer consumes nothing. -/
lemma outcome_verifyFrom_skip (hv : v.isAbsent = false) (hoptional : d.optional = true)
    (haccepts : accepts d v w = ⟨.ok false, w', es⟩) :
    (verifyFrom accepts consumed (v :: values) (d :: s) w).outcome =
      (proceed accepts consumed d s .skip (v :: values) w').outcome := by
  have hoffered : offered (v :: values) = v := offered_of_not_absent hv
  rw [← hoffered] at haccepts
  rw [verifyFrom_cons, step_of_asked (by simp [hv]), Act.bind_assoc, Act.bind_of_ok haccepts,
    if_neg (by simp), if_pos hoptional, Act.pure_bind, if_neg (by simp [consumes, hv])]

/-- A required descriptor that rejects the value on offer ends the check. -/
lemma outcome_verifyFrom_reject (hrequired : d.optional = false)
    (haccepts : accepts d (offered values) w = ⟨.ok false, w', es⟩) :
    (verifyFrom accepts consumed values (d :: s) w).outcome =
      .error (.fault (.typeMismatch d.typeText (offered values) consumed)) := by
  rw [verifyFrom_cons, step_of_asked fun _ => hrequired, Act.bind_assoc, Act.bind_of_ok haccepts,
    if_neg (by simp), if_neg (by simp [hrequired])]
  rfl

/-- **A check goes on from where a pass over its first descriptors has come to**, if values are
left. -/
lemma outcome_verifyFrom_append {before after : Stage}
    (h : Pass accepts w s values visits w' left) (hvisits : visits.map Prod.fst = before)
    (hleft : left ≠ []) (hafter : after ≠ []) (consumed : Nat) :
    (verifyFrom accepts consumed values (before ++ after) w).outcome =
      (verifyFrom accepts (consumed + (visits.filterMap Prod.snd).length) left after
        w').outcome := by
  subst hvisits
  -- by induction on the pass: each visit is one step of the check
  induction h generalizing consumed with
  | stop => rfl
  | @accept _ _ _ d _ v values left visits _ hasked haccepts hpass ih =>
    have hvalues : values ≠ [] := by simp [hpass.values_eq, hleft]
    rw [List.map_cons, List.cons_append, outcome_verifyFrom_accept hasked haccepts,
      proceed_of_ne_nil (by simp [hafter]) hvalues, ih hleft, Nat.add_right_comm]
    rfl
  | @marker _ _ d _ v values left visits habsent hoptional hpass ih =>
    have hvalues : values ≠ [] := by simp [hpass.values_eq, hleft]
    rw [List.map_cons, List.cons_append, verifyFrom_marker habsent hoptional,
      proceed_of_ne_nil (by simp [hafter]) hvalues, ih hleft, Nat.add_right_comm]
    rfl
  | skip habsent hoptional haccepts _ ih =>
    rw [List.map_cons, List.cons_append, outcome_verifyFrom_skip habsent hoptional haccepts,
      proceed_of_ne_nil (by simp [hafter]) (by simp), ih hleft]
    simp
  | alone _ _ => exact absurd rfl hleft

end visits

/-! ### Passes of successful checks -/

/-- What comes after a visit is a pass if a check of the descriptors left is one. -/
lemma exists_pass_proceed {consumed : Nat} {verdict verdict' : Verdict}
    (ih : (verifyFrom accepts consumed values s w).outcome = .ok verdict' →
      ∃ visits left, Pass accepts w s values visits
        (verifyFrom accepts consumed values s w).world left ∧ Exhausted s visits left)
    (h : (proceed accepts consumed d s verdict values w).outcome = .ok verdict') :
    ∃ visits left, Pass accepts w s values visits
      (proceed accepts consumed d s verdict values w).world left ∧ Exhausted s visits left := by
  rw [proceed] at h ⊢
  by_cases hend : (s.isEmpty || values.isEmpty) = true
  · rw [if_pos hend] at h ⊢
    by_cases hskip : (verdict == .skip && !values.isEmpty) = true
    · simp [hskip, Act.throw] at h
    · rw [if_neg hskip]
      refine ⟨[], values, .stop, ?_⟩
      rcases Bool.or_eq_true_iff.1 hend with hs | hvalues
      · exact Or.inr (by simp [List.isEmpty_iff.1 hs])
      · exact Or.inl (List.isEmpty_iff.1 hvalues)
  · rw [if_neg hend] at h ⊢
    exact ih h

/-- **A check that succeeds** is a pass that has run out of values or of descriptors. -/
lemma exists_pass {consumed : Nat} {verdict : Verdict}
    (h : (verifyFrom accepts consumed values s w).outcome = .ok verdict) :
    ∃ visits left, Pass accepts w s values visits
        (verifyFrom accepts consumed values s w).world left ∧ Exhausted s visits left := by
  induction s generalizing consumed values w with
  | nil => simp [verifyFrom, Act.mishap, Act.throw] at h
  | cons d s ih =>
    rw [verifyFrom_cons] at h ⊢
    obtain ⟨verdict₁, w₁, es₁, hstep, hrest, hworld⟩ := Act.exists_of_bind_ok h
    rw [hworld]
    clear h hworld
    rcases values with _ | ⟨v, values⟩
    · -- the call gives no values
      obtain ⟨b, es, haccepts, hverdict⟩ := exists_of_step_asked (by simp) hstep
      have hworld : ∀ c, (proceed accepts c d s verdict₁ [] w₁).world = w₁ := by
        intro c
        simp [proceed, pure, Act.pure]
      refine ⟨[(d, none)], [], ?_, Or.inl rfl⟩
      have hpass := Pass.alone_of_asked (s := s) haccepts hverdict
      split
      · rw [List.drop_nil, hworld]
        exact hpass
      · rw [hworld]
        exact hpass
    · by_cases hmarker : v.isAbsent = true ∧ d.optional = true
      · -- the marker is skipped and consumed
        obtain ⟨habsent, hoptional⟩ := hmarker
        rw [step_of_marker (by simpa using habsent) hoptional] at hstep
        obtain rfl : w = w₁ := congrArg Result.world hstep
        have hconsumes : consumes verdict₁ (v :: values) = true := by simp [consumes, habsent]
        rw [if_pos hconsumes] at hrest ⊢
        obtain ⟨visits, left, hpass, hend⟩ := exists_pass_proceed ih hrest
        refine ⟨(d, some v) :: visits, left, .marker habsent hoptional hpass, ?_⟩
        exact hend.imp_right (by simp)
      · have hasked : v.isAbsent = true → d.optional = false := by simpa using hmarker
        obtain ⟨b, es, haccepts, hverdict⟩ :=
          exists_of_step_asked (by simpa using hasked) hstep
        rcases hverdict with ⟨rfl, rfl⟩ | ⟨rfl, hoptional, rfl⟩
        · -- the value is accepted and consumed
          rw [if_pos (by simp [consumes])] at hrest ⊢
          obtain ⟨visits, left, hpass, hend⟩ := exists_pass_proceed ih hrest
          refine ⟨(d, some v) :: visits, left, .accept hasked haccepts hpass, ?_⟩
          exact hend.imp_right (by simp)
        · -- the value stays for the next descriptor
          have habsent := not_absent_of_optional hasked hoptional
          rw [offered_of_not_absent habsent] at haccepts
          rw [if_neg (by simp [consumes, habsent])] at hrest ⊢
          obtain ⟨visits, left, hpass, hend⟩ := exists_pass_proceed ih hrest
          refine ⟨(d, none) :: visits, left, .skip habsent hoptional haccepts hpass, ?_⟩
          exact hend.imp_right (by simp)

end Stage

/-! ### Checked calls -/

namespace Enforcer

variable {invoke : Invoke} {r : RegistryId} {target : Signed} {args values : List Value}
  {kw : Call.Keywords Value} {ps? : Option (List (Parameter Value))} {w : World}

/-- Laying out the values of a call asks nothing of the world. -/
lemma positionalValues_eq_pure (h : (positionalValues ps? args kw w).outcome = .ok values) :
    positionalValues ps? args kw = pure values := by
  simp only [positionalValues] at h ⊢
  split
  · next hkw =>
    rw [if_pos hkw] at h
    rw [Except.ok.inj h]
  · next hkw =>
    rw [if_neg hkw] at h
    cases ps? with
    | none => rw [Except.ok.inj h]
    | some ps =>
      simp only at h ⊢
      cases hbind : Call.bindPartial ps args kw with
      | none => simp [hbind, Act.orMishap, Act.mishap, Act.throw, bind, Act.bind] at h
      | some slots =>
        simp only [hbind, Act.orMishap] at h ⊢
        rw [Act.pure_bind] at h ⊢
        rw [Except.ok.inj h]

/-- A call that binds gives the check no more values than the callable has parameters for
positions, unless one of them collects the others. -/
lemma length_positionalValues_le {ps : List (Parameter Value)}
    (hps : ∀ p ∈ ps, p.isVariadic = false) (hbind : (Call.bind ps args kw).isSome = true)
    (h : positionalValues (some ps) args kw = pure values) :
    values.length ≤ Parameter.declaredCount ps := by
  have hout : (positionalValues (some ps) args kw .empty).outcome = .ok values := by rw [h]; rfl
  rw [positionalValues] at hout
  split at hout
  · rw [← Except.ok.inj hout]
    exact Call.length_le_of_bind hps hbind
  · obtain ⟨slots, w₁, es₁, hslots, hpure, -⟩ := Act.exists_of_bind_ok hout
    have hpartial := Act.orMishap_eq_ok (by rw [hslots])
    rw [← Except.ok.inj hpure]
    exact Call.length_layout_le hps _ hpartial

/-- What a check of a call's values that succeeds has done. -/
lemma exists_of_checkValues
    (h : (checkValues invoke r target args kw w).outcome = .ok ()) :
    ∃ values verdict, positionalValues target.parameters? args kw = pure values ∧
      (verifyAgainst invoke r target.tree values w).outcome = .ok verdict ∧
      (checkValues invoke r target args kw w).world =
        (verifyAgainst invoke r target.tree values w).world := by
  obtain ⟨values, w₁, es₁, hvalues, hrest, hworld⟩ := Act.exists_of_bind_ok h
  have hpure := positionalValues_eq_pure (by rw [hvalues])
  obtain rfl : w = w₁ := by
    rw [hpure] at hvalues
    exact congrArg Result.world hvalues
  obtain ⟨verdict | verdict, w₂, es₂, hverify, hend, hworld'⟩ := Act.exists_of_bind_ok hrest
  · simp only at hend
    split at hend
    · obtain ⟨_, _, _, -, hlog, -⟩ := Act.exists_of_bind_ok hend
      obtain ⟨_, _, _, -, hthrow, -⟩ := Act.exists_of_bind_ok hlog
      simp [Act.throw] at hthrow
    · simp [Act.throw] at hend
  · have hverified := Act.exists_of_attempt_ok hverify
    exact ⟨values, verdict, hpure, by rw [hverified]; rfl,
      (hworld.trans hworld').trans (by rw [hverified]; rfl)⟩

/-- A callable that fits its contract has at most as many parameters for positions as the stage in
force has descriptors. -/
lemma Fits.declaredCount_le (h : Fits target) {ps : List (Parameter Value)}
    (hps : target.parameters? = some ps) :
    Parameter.declaredCount ps ≤ (target.tree.parameters?.getD []).length := by
  have hcount : (Value.function (.signed target)).parameterCount = Parameter.declaredCount ps := by
    simp [Value.parameterCount, Value.parameters?, Function.parameters?, hps]
  rw [Fits, Signature.checkCount] at h
  rw [hcount] at h
  by_contra hlt
  simp only [not_le] at hlt
  simp [hlt] at h

/-- **The values of a call that reaches its callable**, at any curry level: a first part of them was
consumed by descriptors of the stage in force, one descriptor for each value and in the order of
the stage, each value accepted by its descriptor unless it is the marker of a parameter left out.
The others were not looked at: the check has ended where these visits end, all values consumed or
all descriptors visited. There are none exactly when the values and the descriptors that
consumed none do not outnumber the stage; if the callable tells its parameters, none of them
variadic, and the call binds to them, there are none unless an optional descriptor was skipped. -/
theorem checkValues_pass (hproduced : Produced r (.enforced target r)) {n : Nat}
    (h : (checkValues (CallContracts.invoke n) r target args kw w).outcome = .ok ()) :
    ∃ values visits left w', positionalValues target.parameters? args kw = pure values ∧
      Stage.Pass (Registry.accepts (CallContracts.invoke n) r) w
        (target.tree.parameters?.getD []) values visits w' left ∧
      Stage.Exhausted (target.tree.parameters?.getD []) visits left ∧
      (checkValues (CallContracts.invoke n) r target args kw w).world = w' ∧
      values = visits.filterMap Prod.snd ++ left ∧
      visits.map Prod.fst <+: target.tree.parameters?.getD [] ∧
      (∀ d v, (d, some v) ∈ visits → v.isAbsent = false → ∃ w₁ w₂ es,
        Registry.accepts (CallContracts.invoke n) r d v w₁ = ⟨.ok true, w₂, es⟩) ∧
      (left = [] ↔ values.length + visits.countP (·.2.isNone) ≤
        (target.tree.parameters?.getD []).length) ∧
      (∀ ps, target.parameters? = some ps → (∀ p ∈ ps, p.isVariadic = false) →
        (Call.bind ps args kw).isSome = true → left ≠ [] →
          ∃ d, (d, none) ∈ visits ∧ d.optional = true) := by
  obtain ⟨values, verdict, hvalues, hverify, hworld⟩ := exists_of_checkValues h
  obtain ⟨visits, left, hpass, hend⟩ := Stage.exists_pass hverify
  obtain ⟨_, heq, hfits⟩ := hproduced.fits
  obtain rfl := (Signed.enforced.inj heq).1
  have hlength := hpass.length_add
  have hvisits : visits.length ≤ (target.tree.parameters?.getD []).length := by
    simpa using hpass.visited_prefix.length_le
  have hexact : left = [] ↔ values.length + visits.countP (·.2.isNone) ≤
      (target.tree.parameters?.getD []).length := by
    rw [hlength]
    constructor
    · rintro rfl
      simpa using hvisits
    · intro hle
      rcases hend with hleft | hall
      · exact hleft
      · have : left.length = 0 := by omega
        exact List.length_eq_zero_iff.1 this
  refine ⟨values, visits, left, _, hvalues, hpass, hend, hworld, hpass.values_eq,
    hpass.visited_prefix, fun d v hmem hv => hpass.accepted hmem hv, hexact,
    fun ps hps hvariadic hbind hleft => ?_⟩
  have hle : values.length ≤ (target.tree.parameters?.getD []).length := by
    rw [hps] at hvalues
    exact (length_positionalValues_le hvariadic hbind hvalues).trans (hfits.declaredCount_le hps)
  have hskipped : 0 < visits.countP (·.2.isNone) := by
    by_contra hzero
    exact hleft (hexact.2 (by omega))
  obtain ⟨⟨d, v?⟩, hmem, hnone⟩ := List.countP_pos_iff.1 hskipped
  obtain rfl : v? = none := by simpa using hnone
  exact ⟨d, hmem, hpass.optional_of_skipped hleft hmem⟩

/-- Two values for two descriptors. -/
theorem checkValues_pass_pair :
    let stage : Stage := [.ofName "number", ⟨"string", .plain, true⟩]
    let target : Signed := .plain (.intrinsic .isinstance) ⟨[stage, [.ofName "*"]]⟩
      "number, [string] => *" .null true
    Produced 0 (.enforced target 0) ∧
      (checkValues (CallContracts.invoke 3) 0 target [.int 1, .text "x"] []
        Registry.world).outcome = .ok () ∧
      ∃ values visits left w',
        positionalValues target.parameters? [.int 1, .text "x"] [] = pure values ∧
        Stage.Pass (Registry.accepts (CallContracts.invoke 3) 0) Registry.world stage values
          visits w' left := by
  intro stage target
  have hparse : Tree.parse (some (Registry.world.registry 0).contains) "number, [string] => *" =
      .ok ⟨[[.ofName "number", ⟨"string", .plain, true⟩], [.ofName "*"]]⟩ := by rfl
  have hproduced : Produced 0 (.enforced target 0) := by
    have henforce : (enforce 0 (.text "number, [string] => *") (.function (.intrinsic .isinstance))
        .null Registry.world).outcome = .ok (.enforced target 0) := by
      rw [enforce_text hparse]
      rfl
    exact .enforced henforce
  have hcheck : (checkValues (CallContracts.invoke 3) 0 target [.int 1, .text "x"] []
      Registry.world).outcome = .ok () := by rfl
  obtain ⟨values, visits, left, w', hvalues, hpass, -⟩ := checkValues_pass hproduced hcheck
  exact ⟨hproduced, hcheck, values, visits, left, w', hvalues, hpass⟩

/-- A skipped descriptor makes room for a value that nothing looks at: of the values 1 and true,
`[string], number` checks the first alone. -/
theorem not_forall_values_checked :
    ¬ ∀ (r : RegistryId) (target : Signed) (args : List Value) (kw : Call.Keywords Value) (n : Nat)
      (w : World), Produced r (.enforced target r) →
        (∀ ps, target.parameters? = some ps → ∀ p ∈ ps, p.isVariadic = false) →
        (checkValues (CallContracts.invoke n) r target args kw w).outcome = .ok () →
          ∃ values visits w', positionalValues target.parameters? args kw = pure values ∧
            Stage.Pass (Registry.accepts (CallContracts.invoke n) r) w
              (target.tree.parameters?.getD []) values visits w' [] := by
  intro hall
  let stage : Stage := [⟨"string", .plain, true⟩, .ofName "number"]
  let target : Signed := .plain (.intrinsic .isinstance) ⟨[stage, [.ofName "*"]]⟩
    "[string], number => *" .null true
  have hparse : Tree.parse (some (Registry.world.registry 0).contains) "[string], number => *" =
      .ok ⟨[[⟨"string", .plain, true⟩, .ofName "number"], [.ofName "*"]]⟩ := by rfl
  have hproduced : Produced 0 (.enforced target 0) := by
    have henforce : (enforce 0 (.text "[string], number => *") (.function (.intrinsic .isinstance))
        .null Registry.world).outcome = .ok (.enforced target 0) := by
      rw [enforce_text hparse]
      rfl
    exact .enforced henforce
  have hvariadic : ∀ ps, target.parameters? = some ps → ∀ p ∈ ps, p.isVariadic = false := by
    intro ps hps
    obtain rfl := Option.some.inj hps
    decide
  have hcheck : (checkValues (CallContracts.invoke 3) 0 target [.int 1, .bool true] []
      Registry.world).outcome = .ok () := by rfl
  obtain ⟨values, visits, w', hvalues, hpass⟩ := hall 0 target _ [] 3 _ hproduced hvariadic hcheck
  obtain rfl : [.int 1, .bool true] = values := by
    have := congrArg (fun x => (x Registry.world).outcome) hvalues
    exact Except.ok.inj this
  have hstring : Registry.accepts (CallContracts.invoke 3) 0 ⟨"string", .plain, true⟩ (.int 1)
      Registry.world = ⟨.ok false, Registry.world, []⟩ := by rfl
  -- the first descriptor cannot consume a value, so the second leaves one
  cases hpass with
  | accept _ haccepts _ =>
    have : Registry.accepts (CallContracts.invoke 3) 0 ⟨"string", .plain, true⟩ (.int 1)
        Registry.world = _ := haccepts
    rw [hstring] at this
    simp at this
  | marker habsent _ _ => simp [Value.isAbsent] at habsent
  | skip _ _ _ hrest =>
    cases hrest with
    | accept _ _ hend => cases hend
    | marker habsent _ _ => simp [Value.isAbsent] at habsent
    | skip _ hoptional _ _ => simp [Descriptor.ofName] at hoptional

end Enforcer

end CallContracts
