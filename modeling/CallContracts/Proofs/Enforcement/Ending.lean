import CallContracts.Proofs.Enforcement.Moves
import CallContracts.Proofs.Enforcement.Pass

/-!
How a check of values ends.

* `Stage.Ending`: the ways in which a pass over a stage ends, once it has made its visits;
* `Stage.exists_ending`: every check of values is a pass and one of these endings, or a descriptor
  cannot be asked;
* `Stage.outcome_verify_nil`: without values the first descriptor decides, about null;
* `Stage.cases_of_verify_error`: a check that fails rejects a value, or a descriptor cannot be
  asked;
* `Stage.Pass.extends`: what is registered stays so.
-/

namespace CallContracts

namespace Stage

/-! ### Endings -/

/-- A visit that has consumed a value because the descriptor accepts it. -/
def Visit.Accepts (q : Visit) : Prop :=
  ∃ v, q.2 = some v ∧ (v.isAbsent = true → q.1.optional = false)

/-- The ways in which a pass ends on its own account: its visits, the world and the values that they
leave, the number of values consumed, and the outcome with the world that it leaves. -/
inductive Ending (accepts : Descriptor → Value → Act Bool) (s : Stage) (visits : List Visit)
    (w : World) (left : List Value) (consumed : Nat) : Except Stop Verdict → World → Prop
  /-- The last descriptor visited accepts, and values or descriptors have run out. -/
  | accepted (before : List Visit) {q : Visit} :
    visits = before ++ [q] → q.Accepts → left = [] ∨ visits.length = s.length →
      Ending accepts s visits w left consumed (.ok .accept) w
  /-- The last descriptor visited is skipped, and values have run out. -/
  | skipped (before : List Visit) {q : Visit} :
    visits = before ++ [q] → q.1.optional = true → ¬ q.Accepts → left = [] →
      Ending accepts s visits w left consumed (.ok .skip) w
  /-- A required descriptor rejects the value on offer. -/
  | mismatch {d : Descriptor} {rest : Stage} {w' : World} {es : List Event} :
    s = visits.map Prod.fst ++ d :: rest → left ≠ [] → d.optional = false →
      accepts d (offered left) w = ⟨.ok false, w', es⟩ →
        Ending accepts s visits w left consumed
          (.error (.fault (.typeMismatch d.typeText (offered left) consumed))) w'
  /-- The last descriptor of all is skipped while values are left. -/
  | unfulfilled (before : List Visit) {q : Visit} :
    visits = before ++ [q] → visits.length = s.length → q.1.optional = true → ¬ q.Accepts →
      left ≠ [] →
        Ending accepts s visits w left consumed
          (.error (.fault (.unfulfilledOptional q.1.typeText left))) w

/-- Asking the next descriptor fails, and so does the pass. -/
def Breaks (accepts : Descriptor → Value → Act Bool) (s : Stage) (visits : List Visit) (w : World)
    (left : List Value) (outcome : Except Stop Verdict) (w' : World) : Prop :=
  ∃ d rest stop es, s = visits.map Prod.fst ++ d :: rest ∧ outcome = .error stop ∧
    accepts d (offered left) w = ⟨.error stop, w', es⟩

/-- Each visit has a value on offer. -/
def HasOffers (values : List Value) (visits : List Visit) : Prop :=
  ∀ before q after, visits = before ++ q :: after →
    (before.filterMap Prod.snd).length < values.length

/-- A check ends as a pass does that has stopped once values have run out. -/
def Ends (accepts : Descriptor → Value → Act Bool) (w : World) (s : Stage) (values : List Value)
    (consumed : Nat) (outcome : Except Stop Verdict) (w' : World) : Prop :=
  ∃ visits w₁ left, Pass accepts w s values visits w₁ left ∧ HasOffers values visits ∧
    (Ending accepts s visits w₁ left (consumed + (visits.filterMap Prod.snd).length) outcome w' ∨
      Breaks accepts s visits w₁ left outcome w')

section endings

variable {accepts : Descriptor → Value → Act Bool} {w w' : World} {d : Descriptor} {s : Stage}
  {v : Value} {values left : List Value} {visits : List Visit} {consumed : Nat}
  {outcome : Except Stop Verdict}

/-- One visit more in front. -/
lemma Ending.cons (q : Visit) (h : Ending accepts s visits w left consumed outcome w') :
    Ending accepts (q.1 :: s) (q :: visits) w left consumed outcome w' := by
  cases h with
  | accepted before hvisits haccepts hend =>
    exact .accepted (q :: before) (by rw [hvisits]; rfl) haccepts (hend.imp_right (by simp))
  | skipped before hvisits hoptional hskipped hleft =>
    exact .skipped (q :: before) (by rw [hvisits]; rfl) hoptional hskipped hleft
  | mismatch hs hleft hrequired hrejects =>
    exact .mismatch (by rw [hs]; rfl) hleft hrequired hrejects
  | unfulfilled before hvisits hlength hoptional hskipped hleft =>
    exact .unfulfilled (q :: before) (by rw [hvisits]; rfl) (by simpa using hlength) hoptional
      hskipped hleft

lemma Breaks.cons (q : Visit) (h : Breaks accepts s visits w left outcome w') :
    Breaks accepts (q.1 :: s) (q :: visits) w left outcome w' := by
  obtain ⟨d, rest, stop, es, hs, houtcome, hfails⟩ := h
  exact ⟨d, rest, stop, es, by rw [hs]; rfl, houtcome, hfails⟩

lemma hasOffers_nil : HasOffers values [] := by
  intro before q after h
  simp at h

lemma HasOffers.cons_some (v : Value) (h : HasOffers values visits) :
    HasOffers (v :: values) ((d, some v) :: visits) := by
  rintro (_ | ⟨q, before⟩) q' after heq
  · simp
  · rw [List.cons_append, List.cons.injEq] at heq
    obtain ⟨rfl, hvisits⟩ := heq
    simpa using h before q' after hvisits

lemma HasOffers.cons_none (hvalues : values ≠ []) (h : HasOffers values visits) :
    HasOffers values ((d, none) :: visits) := by
  rintro (_ | ⟨q, before⟩) q' after heq
  · simpa using List.length_pos_iff.2 hvalues
  · rw [List.cons_append, List.cons.injEq] at heq
    obtain ⟨rfl, hvisits⟩ := heq
    simpa using h before q' after hvisits

/-- A descriptor that is asked about a value and does not let the pass go on. -/
lemma ends_of_step_error {stop : Stop} {es : List Event} (hvalues : values ≠ [])
    (hasked : values.head?.any Value.isAbsent = true → d.optional = false)
    (h : step accepts consumed d values w = ⟨.error stop, w', es⟩) :
    Ends accepts w (d :: s) values consumed (.error stop) w' := by
  refine ⟨[], w, values, .stop, hasOffers_nil, ?_⟩
  rw [step_of_asked hasked] at h
  rcases haccepts : accepts d (offered values) w with ⟨stop' | b, w₁, es₁⟩
  · rw [Act.bind_of_error haccepts] at h
    simp only [Result.mk.injEq, Except.error.injEq] at h
    obtain ⟨rfl, rfl, rfl⟩ := h
    exact .inr ⟨d, s, _, _, rfl, rfl, haccepts⟩
  · rw [Act.bind_of_ok haccepts] at h
    cases b with
    | true => simp [pure, Act.pure] at h
    | false =>
      by_cases hoptional : d.optional = true
      · simp [hoptional, pure, Act.pure] at h
      · simp only [Bool.false_eq_true, if_false, hoptional, Act.throw, Result.mk.injEq,
          Except.error.injEq] at h
        obtain ⟨rfl, rfl, -⟩ := h
        exact .inl (.mismatch rfl hvalues (by simpa using hoptional) haccepts)

/-- What comes after a visit is the end of the pass, or a pass over the descriptors left. -/
lemma exists_ending_proceed (q : Visit) (verdict : Verdict) (w : World) (values : List Value)
    (consumed : Nat) (ih : s ≠ [] → values ≠ [] → ∀ consumed, Ends accepts w s values consumed
      (verifyFrom accepts consumed values s w).outcome
      (verifyFrom accepts consumed values s w).world)
    (haccept : verdict = .accept → q.Accepts)
    (hskip : verdict = .skip → q.1.optional = true ∧ ¬ q.Accepts) :
    ∃ visits w₁ left, Pass accepts w s values visits w₁ left ∧ HasOffers values visits ∧
      (Ending accepts (q.1 :: s) (q :: visits) w₁ left
          (consumed + (visits.filterMap Prod.snd).length)
          (proceed accepts consumed q.1 s verdict values w).outcome
          (proceed accepts consumed q.1 s verdict values w).world ∨
        Breaks accepts (q.1 :: s) (q :: visits) w₁ left
          (proceed accepts consumed q.1 s verdict values w).outcome
          (proceed accepts consumed q.1 s verdict values w).world) := by
  by_cases hgoes : s ≠ [] ∧ values ≠ []
  · obtain ⟨hs, hvalues⟩ := hgoes
    obtain ⟨visits, w₁, left, hpass, hoffers, hending⟩ := ih hs hvalues consumed
    rw [proceed, if_neg (by simp [hs, hvalues])]
    exact ⟨visits, w₁, left, hpass, hoffers, hending.imp (·.cons q) (·.cons q)⟩
  · have hends : (s.isEmpty || values.isEmpty) = true := by
      rcases not_and_or.1 hgoes with hs | hvalues
      · simp [not_not.1 hs]
      · simp [not_not.1 hvalues]
    refine ⟨[], w, values, .stop, hasOffers_nil, .inl ?_⟩
    rw [proceed, if_pos hends]
    cases verdict with
    | accept =>
      refine .accepted [] rfl (haccept rfl) ?_
      simpa [or_comm] using hends
    | skip =>
      obtain ⟨hoptional, hskipped⟩ := hskip rfl
      rcases Decidable.em (values = []) with rfl | hvalues
      · exact .skipped [] rfl hoptional hskipped rfl
      · obtain rfl : s = [] := by simpa [hvalues] using hends
        simpa [hvalues, Act.throw] using
          Ending.unfulfilled [] rfl rfl hoptional hskipped hvalues

/-- A visit that consumes a value, and how the check of the values behind it ends. -/
lemma ends_of_consumed {verdict : Verdict}
    (hvisit : ∀ {visits w₁ left}, Pass accepts w' s values visits w₁ left →
      Pass accepts w (d :: s) (v :: values) ((d, some v) :: visits) w₁ left)
    (ih : s ≠ [] → values ≠ [] → ∀ consumed, Ends accepts w' s values consumed
      (verifyFrom accepts consumed values s w').outcome
      (verifyFrom accepts consumed values s w').world)
    (haccept : verdict = .accept → Visit.Accepts (d, some v))
    (hskip : verdict = .skip → d.optional = true ∧ ¬ Visit.Accepts (d, some v)) :
    Ends accepts w (d :: s) (v :: values) consumed
      (proceed accepts (consumed + 1) d s verdict values w').outcome
      (proceed accepts (consumed + 1) d s verdict values w').world := by
  obtain ⟨visits, w₁, left, hpass, hoffers, hending⟩ :=
    exists_ending_proceed (d, some v) verdict w' values (consumed + 1) ih haccept hskip
  refine ⟨(d, some v) :: visits, w₁, left, hvisit hpass, hoffers.cons_some v, ?_⟩
  rw [Nat.add_right_comm] at hending
  exact hending

/-- **Every check of values ends as a pass does**: with a result, with a value that a required
descriptor rejects, with values left over, or because asking a descriptor fails. -/
lemma exists_ending (accepts : Descriptor → Value → Act Bool) (w : World) (hvalues : values ≠ [])
    (hs : s ≠ []) (consumed : Nat) :
    Ends accepts w s values consumed (verifyFrom accepts consumed values s w).outcome
      (verifyFrom accepts consumed values s w).world := by
  induction s generalizing consumed values w with
  | nil => exact absurd rfl hs
  | cons d s ih =>
    clear hs
    obtain ⟨v, values, rfl⟩ := List.exists_cons_of_ne_nil hvalues
    rw [verifyFrom_cons]
    by_cases hmarker : v.isAbsent = true ∧ d.optional = true
    · -- the marker is skipped and consumed
      obtain ⟨habsent, hoptional⟩ := hmarker
      have hskipped : ¬ Visit.Accepts (d, some v) := by
        rintro ⟨u, hu, hrequired⟩
        obtain rfl : v = u := by simpa using hu
        exact absurd (hrequired habsent) (by simp [hoptional])
      rw [step_of_marker (by simpa using habsent) hoptional, Act.pure_bind,
        if_pos (by simp [consumes, habsent])]
      exact ends_of_consumed (.marker habsent hoptional) (fun hs hvalues => ih w hvalues hs)
        (by simp) fun _ => ⟨hoptional, hskipped⟩
    · have hrequired : v.isAbsent = true → d.optional = false := by simpa using hmarker
      have hasked : (v :: values).head?.any Value.isAbsent = true → d.optional = false := by
        simpa using hrequired
      rcases hstep : step accepts consumed d (v :: values) w with ⟨stop | verdict, w₁, es⟩
      · rw [Act.bind_of_error hstep]
        exact ends_of_step_error (by simp) hasked hstep
      rw [Act.bind_of_ok hstep]
      obtain ⟨b, es', haccepts, hverdict⟩ := exists_of_step_asked hasked hstep
      rcases hverdict with ⟨rfl, rfl⟩ | ⟨rfl, hoptional, rfl⟩
      · -- the value is accepted and consumed
        rw [if_pos (by simp [consumes])]
        exact ends_of_consumed (.accept hrequired haccepts) (fun hs hvalues => ih w₁ hvalues hs)
          (fun _ => ⟨v, rfl, hrequired⟩) (by simp)
      · -- the value stays for the next descriptor
        have habsent := not_absent_of_optional hrequired hoptional
        obtain ⟨visits, w₂, left, hpass, hoffers, hending⟩ :=
          exists_ending_proceed (d, none) .skip w₁ (v :: values) consumed
            (fun hs hvalues => ih w₁ hvalues hs) (by simp)
            fun _ => ⟨hoptional, by simp [Visit.Accepts]⟩
        rw [if_neg (by simp [consumes, habsent])]
        rw [offered_of_not_absent habsent] at haccepts
        exact ⟨(d, none) :: visits, w₂, left, .skip habsent hoptional haccepts hpass,
          hoffers.cons_none (by simp), hending⟩

/-- A check without values asks the first descriptor alone. -/
lemma verify_nil : verify accepts (d :: s) [] = accepts d .null >>= fun b =>
    if b then pure .accept
    else if d.optional then pure .skip
    else Act.throw (.typeMismatch d.typeText .null 0) := by
  have hstep : step accepts 0 d [] = accepts d .null >>= fun b =>
      if b then pure .accept
      else if d.optional then pure .skip
      else Act.throw (.typeMismatch d.typeText .null 0) := step_of_asked (by simp)
  rw [verify, verifyFrom_cons, ← hstep]
  refine Eq.trans (congrArg _ (funext fun verdict => ?_)) (Act.bind_pure _)
  cases verdict <;> simp [consumes, proceed]

/-- **A check without values** ends as the first descriptor answers about null: it returns if the
answer is yes or if the descriptor may be skipped, and rejects null otherwise. -/
lemma outcome_verify_nil {b : Bool} {es : List Event} (h : accepts d .null w = ⟨.ok b, w', es⟩) :
    (verify accepts (d :: s) [] w).outcome =
      if b then .ok .accept else if d.optional then .ok .skip
      else .error (.fault (.typeMismatch d.typeText .null 0)) := by
  rw [verify_nil, Act.bind_of_ok h]
  cases b with
  | true => rfl
  | false => cases d.optional <;> rfl

/-- **A check that fails** rejects values, or cannot ask a descriptor. -/
lemma cases_of_verify_error {stop : Stop} (hs : s ≠ [])
    (h : (verify accepts s values w).outcome = .error stop) :
    (∃ f, stop = .fault f ∧ f.isRejection = true) ∨
      ∃ visits w₁ left w', Pass accepts w s values visits w₁ left ∧
        Breaks accepts s visits w₁ left (.error stop) w' := by
  rcases Decidable.em (values = []) with rfl | hvalues
  · obtain ⟨d, s, rfl⟩ := List.exists_cons_of_ne_nil hs
    rcases haccepts : accepts d .null w with ⟨stop' | b, w', es⟩
    · rw [verify_nil, Act.bind_of_error haccepts] at h
      exact .inr ⟨[], w, [], w', .stop, d, s, stop', es, rfl, h.symm, haccepts⟩
    · rw [outcome_verify_nil haccepts] at h
      cases b
      · cases hoptional : d.optional <;> simp [hoptional] at h
        exact .inl ⟨_, h.symm, rfl⟩
      · simp at h
  · obtain ⟨visits, w₁, left, hpass, -, hending | hbreaks⟩ := exists_ending accepts w hvalues hs 0
    · rw [← verify, h] at hending
      cases hending with
      | mismatch => exact .inl ⟨_, rfl, rfl⟩
      | unfulfilled => exact .inl ⟨_, rfl, rfl⟩
    · rw [← verify, h] at hbreaks
      exact .inr ⟨visits, w₁, left, _, hpass, hbreaks⟩

end endings

/-- A pass leaves what is registered. -/
lemma Pass.extends {n : Nat} {r : RegistryId} {w w' : World} {s : Stage} {values left : List Value}
    {visits : List Visit} (h : Pass (Registry.accepts (invoke n) r) w s values visits w' left) :
    w.Extends w' := by
  have hstep : ∀ {d v w b w' es}, Registry.accepts (invoke n) r d v w = ⟨b, w', es⟩ →
      w.Extends w' := by
    intro d v w b w' es haccepts
    have hextends := Registry.accepts_extends n r d v w
    rwa [haccepts] at hextends
  induction h with
  | stop => exact .refl _
  | accept _ haccepts _ ih => exact (hstep haccepts).trans ih
  | marker _ _ _ ih => exact ih
  | skip _ _ haccepts _ ih => exact (hstep haccepts).trans ih
  | alone haccepts _ => exact hstep haccepts

end Stage

end CallContracts
