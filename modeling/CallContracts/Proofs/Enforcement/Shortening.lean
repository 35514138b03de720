import CallContracts.Proofs.Enforcement.Mirror

/-!
Checks of the same values against fewer descriptors, and of fewer values against the same ones.

* `Stage.Asks`: the worlds that asking the descriptors of a stage leads to, and
  `Stage.Deterministic`: descriptors whose answers do not depend on what was asked before;
* `Stage.verify_skipped`: **a skip absorbs a descriptor**, and with it the marker of a parameter
  left out if there is one, but no other value;
* `Enforcer.verify_take`: **acceptance is closed under prefixes**: with its last values left
  out, a check that returns still returns.
-/

namespace CallContracts

/-- The same stop, but of a value at the next place. -/
def Stop.later : Stop → Stop
  | .fault (.typeMismatch expected v position) => .fault (.typeMismatch expected v (position + 1))
  | stop => stop

namespace Stage

/-! ### Answers that do not depend on what was asked before -/

section asks

variable {accepts : Descriptor → Value → Act Bool} {s t : Stage} {w w' w₁ w₂ : World}
  {d : Descriptor} {v : Value} {values left : List Value} {visits : List Visit}

/-- The worlds that asking the descriptors of a stage leads to. -/
def Asks (accepts : Descriptor → Value → Act Bool) (s : Stage) : World → World → Prop :=
  Relation.ReflTransGen fun w w' => ∃ d ∈ s, ∃ v, (accepts d v w).world = w'

/-- The descriptors of a stage give the same answers however often they have been asked. -/
def Deterministic (accepts : Descriptor → Value → Act Bool) (s : Stage) (w : World) : Prop :=
  ∀ d ∈ s, ∀ v w', Asks accepts s w w' → (accepts d v w').outcome = (accepts d v w).outcome

lemma Asks.ask (hd : d ∈ s) (v : Value) : Asks accepts s w (accepts d v w).world :=
  .single ⟨d, hd, v, rfl⟩

lemma Asks.of_eq {outcome : Except Stop Bool} {es : List Event} (hd : d ∈ s)
    (h : accepts d v w = ⟨outcome, w', es⟩) : Asks accepts s w w' := by
  have hask : Asks accepts s w (accepts d v w).world := Asks.ask hd v
  rwa [h] at hask

lemma Asks.mono (hst : s ⊆ t) (h : Asks accepts s w w') : Asks accepts t w w' :=
  Relation.ReflTransGen.mono (fun _ _ ⟨d, hd, v, hworld⟩ => ⟨d, hst hd, v, hworld⟩) _ _ h

/-- A step asks its descriptor or nothing. -/
lemma asks_step (hd : d ∈ s) (consumed : ℕ) (values : List Value) :
    Asks accepts s w (step accepts consumed d values w).world := by
  by_cases hmarker : values.head?.any Value.isAbsent = true ∧ d.optional = true
  · rw [step_of_marker hmarker.1 hmarker.2]
    exact .refl
  · rw [step_of_asked (by simpa using hmarker)]
    have hask : Asks accepts s w (accepts d (offered values) w).world := Asks.ask hd _
    rcases haccepts : accepts d (offered values) w with ⟨stop | b, w', es⟩
    · rw [haccepts] at hask
      rwa [Act.bind_of_error haccepts]
    · rw [haccepts] at hask
      rw [Act.bind_of_ok haccepts]
      cases b
      · cases d.optional <;> exact hask
      · exact hask

/-- A pass asks the descriptors of its stage. -/
lemma Pass.asks (h : Pass accepts w s values visits w' left) : Asks accepts s w w' := by
  induction h with
  | stop => exact .refl
  | accept _ haccepts _ ih =>
    exact (Asks.of_eq List.mem_cons_self haccepts).trans (ih.mono (List.subset_cons_self _ _))
  | marker _ _ _ ih => exact ih.mono (List.subset_cons_self _ _)
  | skip _ _ haccepts _ ih =>
    exact (Asks.of_eq List.mem_cons_self haccepts).trans (ih.mono (List.subset_cons_self _ _))
  | alone haccepts _ => exact Asks.of_eq List.mem_cons_self haccepts

/-- Descriptors that change nothing are deterministic. -/
lemma deterministic_of_quiet (h : ∀ d ∈ s, ∀ v, (accepts d v w).world = w) :
    Deterministic accepts s w := by
  have hworld : ∀ w', Asks accepts s w w' → w' = w := by
    intro w' hasks
    induction hasks with
    | refl => rfl
    | tail _ hstep ih =>
      obtain ⟨d, hd, v, rfl⟩ := hstep
      rw [ih]
      exact h d hd v
  intro d _ v w' hasks
  rw [hworld w' hasks]

/-- Two worlds that asking leads to get the same answers. -/
lemma Deterministic.outcome_eq (h : Deterministic accepts s w) (h₁ : Asks accepts s w w₁)
    (h₂ : Asks accepts s w w₂) (hd : d ∈ s) (v : Value) :
    (accepts d v w₁).outcome = (accepts d v w₂).outcome :=
  (h d hd v w₁ h₁).trans (h d hd v w₂ h₂).symm

/-- A step ends as its descriptor answers about the value on offer. -/
lemma outcome_step_congr {u u' : List Value} (hhead : u.head? = u'.head?)
    (haccepts : ∀ v, (accepts d v w₁).outcome = (accepts d v w₂).outcome) (consumed : ℕ) :
    (step accepts consumed d u w₁).outcome = (step accepts consumed d u' w₂).outcome := by
  have hoffered : offered u = offered u' := by rw [offered, offered, hhead]
  by_cases hmarker : u'.head?.any Value.isAbsent = true ∧ d.optional = true
  · rw [step_of_marker (hhead ▸ hmarker.1) hmarker.2, step_of_marker hmarker.1 hmarker.2]
    rfl
  · rw [step_of_asked (hhead ▸ by simpa using hmarker), step_of_asked (by simpa using hmarker),
      Act.outcome_bind, Act.outcome_bind, hoffered, haccepts]
    congr 1
    funext b
    cases b
    · cases d.optional <;> rfl
    · rfl

/-- A check ends in the same way in every world that asking leads to. -/
lemma outcome_verifyFrom_congr (hdet : Deterministic accepts s w) (hst : t ⊆ s)
    (h₁ : Asks accepts s w w₁) (h₂ : Asks accepts s w w₂) (consumed : ℕ) (values : List Value) :
    (verifyFrom accepts consumed values t w₁).outcome =
      (verifyFrom accepts consumed values t w₂).outcome := by
  induction t generalizing w₁ w₂ consumed values with
  | nil => rfl
  | cons d t ih =>
    have hd : d ∈ s := hst List.mem_cons_self
    have hproceed : ∀ consumed verdict values {w₁ w₂}, Asks accepts s w w₁ → Asks accepts s w w₂ →
        (proceed accepts consumed d t verdict values w₁).outcome =
          (proceed accepts consumed d t verdict values w₂).outcome := by
      intro consumed verdict values w₁ w₂ h₁ h₂
      rw [proceed]
      split_ifs
      · rfl
      · rfl
      · exact ih (List.subset_of_cons_subset hst) h₁ h₂ consumed values
    rw [verifyFrom_cons, Act.outcome_bind, Act.outcome_bind,
      outcome_step_congr rfl (fun v => hdet.outcome_eq h₁ h₂ hd v)]
    congr 1
    funext verdict
    have h₁' := h₁.trans (asks_step hd consumed values)
    have h₂' := h₂.trans (asks_step hd consumed values)
    split_ifs
    · exact hproceed _ _ _ h₁' h₂'
    · exact hproceed _ _ _ h₁' h₂'

end asks

/-! ### Passes without a marker -/

section passes

variable {accepts : Descriptor → Value → Act Bool} {s : Stage} {w w' : World} {v : Value}
  {values rest : List Value} {visits : List Visit}

/-- A pass that has a marker on offer would have come as far without it. -/
lemma Pass.erase_marker (h : Pass accepts w s values visits w' (v :: rest))
    (hv : v.isAbsent = true) :
    Pass accepts w s (visits.filterMap Prod.snd ++ rest) visits w' rest := by
  generalize hleft : v :: rest = left at h
  induction h with
  | stop => exact .stop
  | accept hasked haccepts _ ih => exact .accept hasked haccepts (ih hleft)
  | marker habsent hoptional _ ih => exact .marker habsent hoptional (ih hleft)
  | @skip _ _ _ _ _ u values left visits _ habsent hoptional haccepts hpass ih =>
    -- the value that was skipped is not the marker, so a later visit consumes it
    have hvalues := hpass.values_eq
    rcases hconsumed : visits.filterMap Prod.snd with _ | ⟨u', consumed⟩
    · rw [hconsumed, ← hleft] at hvalues
      obtain rfl : u = v := (List.cons.inj hvalues).1
      rw [hv] at habsent
      simp at habsent
    · have hrest := ih hleft
      rw [hconsumed] at hvalues hrest
      obtain rfl : u = u' := (List.cons.inj hvalues).1
      rw [List.filterMap_cons_none rfl, hconsumed]
      exact .skip habsent hoptional haccepts hrest
  | alone _ _ => simp at hleft

end passes

/-! ### Places of values -/

section places

variable {accepts : Descriptor → Value → Act Bool} {s : Stage} {w : World} {d : Descriptor}
  {values : List Value} {consumed : ℕ}

/-- No descriptor answers that a value is not of its type by failing. -/
def Reports (accepts : Descriptor → Value → Act Bool) : Prop :=
  ∀ d v w f, (accepts d v w).outcome = .error (.fault f) → f.isTypeMismatch = false

lemma Reports.later (h : Reports accepts) (v : Value) {stop : Stop}
    (hstop : (accepts d v w).outcome = .error stop) : stop.later = stop := by
  rcases stop with f | _
  · have hf := h d v w f hstop
    cases f <;> first | rfl | simp [Fault.isTypeMismatch] at hf
  · rfl

/-- A step after one more value ends alike, but for the place of the value on offer. -/
lemma step_later (h : Reports accepts) :
    step accepts (consumed + 1) d values w =
      { step accepts consumed d values w with
        outcome := (step accepts consumed d values w).outcome.mapError Stop.later } := by
  by_cases hmarker : values.head?.any Value.isAbsent = true ∧ d.optional = true
  · rw [step_of_marker hmarker.1 hmarker.2, step_of_marker hmarker.1 hmarker.2]
    rfl
  · rw [step_of_asked (by simpa using hmarker), step_of_asked (by simpa using hmarker)]
    rcases haccepts : accepts d (offered values) w with ⟨stop | b, w', es⟩
    · have hstop := h.later (d := d) (w := w) (offered values) (by rw [haccepts])
      rw [Act.bind_of_error haccepts, Act.bind_of_error haccepts, Except.mapError, hstop]
    · rw [Act.bind_of_ok haccepts, Act.bind_of_ok haccepts]
      cases b
      · cases d.optional <;> rfl
      · rfl

/-- A check after one more value ends alike, but for the place of a value that is rejected. -/
lemma outcome_verifyFrom_later (h : Reports accepts) :
    (verifyFrom accepts (consumed + 1) values s w).outcome =
      (verifyFrom accepts consumed values s w).outcome.mapError Stop.later := by
  induction s generalizing consumed values w with
  | nil => rfl
  | cons d s ih =>
    have hproceed : ∀ consumed verdict values w,
        (proceed accepts (consumed + 1) d s verdict values w).outcome =
          (proceed accepts consumed d s verdict values w).outcome.mapError Stop.later := by
      intro consumed verdict values w
      rw [proceed, proceed]
      split_ifs
      · rfl
      · rfl
      · exact ih
    rw [verifyFrom_cons, verifyFrom_cons, Act.outcome_bind, Act.outcome_bind, step_later h]
    rcases step accepts consumed d values w with ⟨stop | verdict, w', es⟩
    · rfl
    · simp only [Except.mapError, bind, Except.bind]
      split_ifs
      · exact hproceed _ _ _ _
      · exact hproceed _ _ _ _

end places

/-- A check of a value against a type fails only as its predicate does, never because the value is
foreign to the type. -/
lemma reports_accepts (invoke : Invoke) (r : RegistryId) : Reports (Registry.accepts invoke r) := by
  intro d v w f h
  rcases hmatches : Registry.matches invoke r (.descriptor d) v w with ⟨(e | _) | answer, w', es⟩
  · rw [Registry.accepts, Act.outcome_bind, Act.attempt_of_fault hmatches] at h
    by_cases he : e.isTypeMismatch = true
    · simp [bind, Except.bind, he, pure, Act.pure] at h
    · obtain rfl : e = f := by simpa [bind, Except.bind, he, Act.throw] using h
      simpa using he
  · rw [Registry.accepts, Act.outcome_bind, Act.attempt_of_exhausted hmatches] at h
    simp [bind, Except.bind] at h
  · rw [Registry.accepts, Act.outcome_bind, Act.attempt_of_ok hmatches] at h
    simp [bind, Except.bind, Act.heap, Act.world, Act.bind, pure, Act.pure] at h

/-! ### One descriptor less -/

section skipped

variable {accepts : Descriptor → Value → Act Bool} {before after : Stage} {d : Descriptor}
  {v : Value} {values : List Value} {w w₁ : World} {k : ℕ}

/-- A check gets past its first descriptors, to a world where the value at a place is on offer. -/
def Reaches (accepts : Descriptor → Value → Act Bool) (w : World) (before : Stage)
    (values : List Value) (k : ℕ) (w₁ : World) : Prop :=
  k < values.length ∧ ∃ visits, visits.map Prod.fst = before ∧
    Pass accepts w before values visits w₁ (values.drop k)

/-- What is on offer, and what has been consumed before. -/
lemma Reaches.exists_pass (h : Reaches accepts w before values k w₁) (hv : values[k]? = some v) :
    ∃ visits, visits.map Prod.fst = before ∧ (visits.filterMap Prod.snd) = values.take k ∧
      Pass accepts w before values visits w₁ (v :: values.drop (k + 1)) := by
  obtain ⟨hk, visits, hvisits, hpass⟩ := h
  obtain ⟨_, rfl⟩ := List.getElem?_eq_some_iff.1 hv
  refine ⟨visits, hvisits, ?_, ?_⟩
  · have hvalues := hpass.values_eq
    exact List.append_cancel_right (hvalues.symm.trans (List.take_append_drop k values).symm)
  · rwa [← List.drop_eq_getElem_cons hk]

/-- The rest of a check, once an optional descriptor has rejected the value on offer. -/
lemma outcome_verify_skipped (hoptional : d.optional = true) (hafter : after ≠ [])
    (hdet : Deterministic accepts (before ++ d :: after) w)
    (hreach : Reaches accepts w before values k w₁) (hv : values[k]? = some v)
    (habsent : v.isAbsent = false) (hrejects : (accepts d v w₁).outcome = .ok false) :
    (verify accepts (before ++ d :: after) values w).outcome =
      (verify accepts (before ++ after) values w).outcome := by
  obtain ⟨visits, hvisits, -, hpass⟩ := hreach.exists_pass hv
  have hbefore : Asks accepts (before ++ d :: after) w w₁ :=
    hpass.asks.mono (List.subset_append_left _ _)
  rcases haccepts : accepts d v w₁ with ⟨outcome, w₂, es⟩
  obtain rfl : outcome = .ok false := by rwa [haccepts] at hrejects
  have hskip : Asks accepts (before ++ d :: after) w w₂ :=
    hbefore.trans (Asks.of_eq (by simp) haccepts)
  rw [verify, outcome_verifyFrom_append hpass hvisits (by simp) (by simp),
    outcome_verifyFrom_skip habsent hoptional haccepts, proceed_of_ne_nil hafter (by simp), verify,
    outcome_verifyFrom_append hpass hvisits (by simp) hafter]
  exact outcome_verifyFrom_congr hdet (by simp) hskip hbefore _ _

/-- The rest of a check, once an optional descriptor has consumed a marker. -/
lemma outcome_verify_marker (hreports : Reports accepts) (hoptional : d.optional = true)
    (hafter : after ≠ []) (hreach : Reaches accepts w before values k w₁)
    (hv : values[k]? = some v) (habsent : v.isAbsent = true) (hk : k + 1 < values.length) :
    (verify accepts (before ++ d :: after) values w).outcome =
      (verify accepts (before ++ after) (values.eraseIdx k) w).outcome.mapError Stop.later := by
  obtain ⟨visits, hvisits, hconsumed, hpass⟩ := hreach.exists_pass hv
  have hrest : values.drop (k + 1) ≠ [] := by simpa using hk
  have herased := hpass.erase_marker habsent
  rw [hconsumed, ← List.eraseIdx_eq_take_drop_succ] at herased
  rw [verify, outcome_verifyFrom_append hpass hvisits (by simp) (by simp),
    verifyFrom_marker habsent hoptional, proceed_of_ne_nil hafter hrest,
    outcome_verifyFrom_later hreports, verify,
    outcome_verifyFrom_append herased hvisits hrest hafter]

end skipped

/-- **A skip absorbs a descriptor**, not a value. Suppose that the answers of the types do not
depend on what was asked before, and that a check comes to an optional descriptor, not the last one,
with some value on offer. If the descriptor rejects the value, the check ends as it does against the
stage without the descriptor: with the same verdict, or with the same fault. If the value is the
marker of a parameter left out and others come after it, the check ends as it does without the
descriptor and without the marker, except that a value that is rejected stands one place further
on. -/
theorem verify_skipped {invoke : Invoke} {r : RegistryId} {before after : Stage} {d : Descriptor}
    {values : List Value} {k : ℕ} {w w₁ : World} (hoptional : d.optional = true)
    (hafter : after ≠ [])
    (hdet : Deterministic (Registry.accepts invoke r) (before ++ d :: after) w)
    (hreach : Reaches (Registry.accepts invoke r) w before values k w₁) :
    (∀ v, values[k]? = some v → v.isAbsent = false →
      (Registry.accepts invoke r d v w₁).outcome = .ok false →
        (verify (Registry.accepts invoke r) (before ++ d :: after) values w).outcome =
          (verify (Registry.accepts invoke r) (before ++ after) values w).outcome) ∧
    (∀ v, values[k]? = some v → v.isAbsent = true → k + 1 < values.length →
      (verify (Registry.accepts invoke r) (before ++ d :: after) values w).outcome =
        (verify (Registry.accepts invoke r) (before ++ after) (values.eraseIdx k)
          w).outcome.mapError Stop.later) :=
  ⟨fun _ hv habsent hrejects => outcome_verify_skipped hoptional hafter hdet hreach hv habsent
      hrejects,
    fun _ hv habsent hk => outcome_verify_marker (reports_accepts invoke r) hoptional hafter hreach
      hv habsent hk⟩

/-- Base types without arguments are deterministic. -/
lemma deterministic_of_basic {n : ℕ} {r : RegistryId} {s : Stage} {w : World}
    (hbase : Registry.HasBase (w.registry r)) (hs : ∀ d ∈ s, d.IsBasic) :
    Deterministic (Registry.accepts (invoke (n + 1)) r) s w := by
  refine deterministic_of_quiet fun d hd v => ?_
  obtain ⟨b, hb⟩ := Registry.accepts_basic (hs d hd) hbase n v
  rw [hb]

/-- The stage `number, [string], boolean`, with the text left out and with its marker. -/
theorem verify_skipped_text :
    let string : Descriptor := ⟨"string", .plain, true⟩
    let accepts := Registry.accepts (invoke 2) 0
    let whole : Stage := [.ofName "number", string, .ofName "boolean"]
    let short : Stage := [.ofName "number", .ofName "boolean"]
    string.optional = true ∧ Deterministic accepts whole Registry.world ∧
      Reaches accepts Registry.world [.ofName "number"] [.int 1, .bool true] 1 Registry.world ∧
      (verify accepts whole [.int 1, .bool true] Registry.world).outcome =
        (verify accepts short [.int 1, .bool true] Registry.world).outcome ∧
      Reaches accepts Registry.world [.ofName "number"] [.int 1, .absent, .int 2] 1
        Registry.world ∧
      (verify accepts whole [.int 1, .absent, .int 2] Registry.world).outcome =
        (verify accepts short [.int 1, .int 2] Registry.world).outcome.mapError Stop.later := by
  intro string accepts whole short
  have hdet : Deterministic accepts ([.ofName "number"] ++ string :: [.ofName "boolean"])
      Registry.world := deterministic_of_basic Registry.hasBase_base (by decide)
  have hreach : ∀ v values, Reaches accepts Registry.world [.ofName "number"]
      (.int 1 :: v :: values) 1 Registry.world := by
    intro v values
    refine ⟨by simp, [(.ofName "number", some (.int 1))], rfl, ?_⟩
    have hasked : (Value.int 1).isAbsent = true → (Descriptor.ofName "number").optional = false :=
      fun _ => rfl
    have haccepts : accepts (.ofName "number") (.int 1) Registry.world =
        ⟨.ok true, Registry.world, []⟩ := rfl
    exact .accept hasked haccepts .stop
  refine ⟨rfl, hdet, hreach _ _, ?_, hreach _ _, ?_⟩
  · exact (verify_skipped rfl (by simp) hdet (hreach _ _)).1
      (.bool true) rfl rfl rfl
  · exact (verify_skipped rfl (by simp) hdet (hreach _ _)).2
      .absent rfl rfl (by decide)

/-! ### Fewer values -/

section prefixes

variable {accepts : Descriptor → Value → Act Bool} {s t : Stage} {w w₁ w₂ : World}
  {d : Descriptor} {verdict : Verdict} {values : List Value} {m consumed : ℕ}

/-- What comes after a visit still returns with the last values left out. -/
lemma exists_proceed_take
    (ih : 1 ≤ m → (∃ verdict, (verifyFrom accepts consumed values t w₁).outcome = .ok verdict) →
      ∃ verdict, (verifyFrom accepts consumed (values.take m) t w₂).outcome = .ok verdict)
    (h : ∃ verdict', (proceed accepts consumed d t verdict values w₁).outcome = .ok verdict') :
    ∃ verdict', (proceed accepts consumed d t verdict (values.take m) w₂).outcome =
      .ok verdict' := by
  rcases Decidable.em (values.take m = []) with hnil | htake
  · -- values run out earlier
    refine ⟨verdict, ?_⟩
    rw [hnil, proceed]
    simp [pure, Act.pure]
  · have hm : 1 ≤ m := by
      rcases m with _ | m
      · simp at htake
      · exact Nat.succ_pos m
    have hvalues : values ≠ [] := by
      rintro rfl
      simp at htake
    rcases Decidable.em (t = []) with rfl | ht
    · -- descriptors run out, and the last one has not been skipped
      obtain ⟨verdict', hend⟩ := h
      cases verdict with
      | accept => exact ⟨.accept, rfl⟩
      | skip => simp [proceed, hvalues, Act.throw] at hend
    · rw [proceed_of_ne_nil ht hvalues] at h
      rw [proceed_of_ne_nil ht htake]
      exact ih hm h

/-- With its last values left out a check that returns still returns. -/
lemma exists_verifyFrom_take (hdet : Deterministic accepts s w) (hst : t ⊆ s)
    (h₁ : Asks accepts s w w₁) (h₂ : Asks accepts s w w₂) (hm : 1 ≤ m)
    (h : ∃ verdict, (verifyFrom accepts consumed values t w₁).outcome = .ok verdict) :
    ∃ verdict, (verifyFrom accepts consumed (values.take m) t w₂).outcome = .ok verdict := by
  induction t generalizing w₁ w₂ consumed values m with
  | nil =>
    obtain ⟨verdict, h⟩ := h
    simp [verifyFrom, Act.mishap, Act.throw] at h
  | cons d t ih =>
    rcases values with _ | ⟨v, values⟩
    · rwa [List.take_nil, ← outcome_verifyFrom_congr hdet hst h₁ h₂]
    obtain ⟨m, rfl⟩ : ∃ m', m = m' + 1 := ⟨m - 1, by omega⟩
    have hd : d ∈ s := hst List.mem_cons_self
    have ht : t ⊆ s := List.subset_of_cons_subset hst
    obtain ⟨verdict', h⟩ := h
    rw [verifyFrom_cons] at h
    obtain ⟨verdict, w₁', es, hstep, hrest, -⟩ := Act.exists_of_bind_ok h
    -- the first descriptor has the same value on offer and fares alike
    have hsame : (step accepts consumed d (v :: values.take m) w₂).outcome = .ok verdict := by
      have hcongr : (step accepts consumed d (v :: values.take m) w₂).outcome =
          (step accepts consumed d (v :: values) w₁).outcome :=
        outcome_step_congr rfl (fun v => hdet.outcome_eq h₂ h₁ hd v) consumed
      rwa [hstep] at hcongr
    have h₁' : Asks accepts s w w₁' := by
      have hworld : Asks accepts s w _ := h₁.trans (asks_step hd consumed (v :: values))
      rwa [hstep] at hworld
    have h₂' : Asks accepts s w (step accepts consumed d (v :: values.take m) w₂).world :=
      h₂.trans (asks_step hd consumed _)
    have hconsumes : consumes verdict (v :: values.take m) = consumes verdict (v :: values) := rfl
    rw [List.take_succ_cons, verifyFrom_cons, Act.outcome_bind, hsame]
    simp only [bind, Except.bind, hconsumes]
    split_ifs with hconsumed
    · rw [if_pos hconsumed] at hrest
      exact exists_proceed_take (ih ht h₁' h₂') ⟨verdict', hrest⟩
    · rw [if_neg hconsumed] at hrest
      rw [← List.take_succ_cons]
      exact exists_proceed_take (ih ht h₁' h₂') ⟨verdict', hrest⟩

end prefixes

end Stage

namespace Enforcer

variable {invoke : Invoke} {r : RegistryId} {target : Signed} {args values : List Value}
  {kw : Call.Keywords Value} {w : World}

/-- A call whose values pass the check. -/
lemma checkValues_of_verify {verdict : Verdict}
    (hvalues : positionalValues target.parameters? args kw = pure values)
    (h : (verifyAgainst invoke r target.tree values w).outcome = .ok verdict) :
    (checkValues invoke r target args kw w).outcome = .ok () := by
  rcases hverify : verifyAgainst invoke r target.tree values w with ⟨outcome, w', es⟩
  obtain rfl : outcome = .ok verdict := by rwa [hverify] at h
  rw [checkValues, hvalues, Act.pure_bind, Act.bind_of_ok (Act.attempt_of_ok hverify)]
  rfl

/-- **Acceptance is closed under prefixes.** If the answers of the types of a stage do not depend on
what was asked before, and a check of values against the stage returns, then so does a check of the
first of them, at least one, at any later time. A valid call does not come to violate its contract
when its last values are left out, however it spells those that it gives. -/
theorem verify_take {stage : Stage} {w' : World} {m : ℕ}
    (hdet : Stage.Deterministic (Registry.accepts invoke r) stage w)
    (hasks : Stage.Asks (Registry.accepts invoke r) stage w w') (hm : 1 ≤ m) :
    ((∃ verdict, (Stage.verify (Registry.accepts invoke r) stage values w).outcome =
        .ok verdict) →
      ∃ verdict, (Stage.verify (Registry.accepts invoke r) stage (values.take m) w').outcome =
        .ok verdict) ∧
    ∀ target args kw args' kw', target.tree.parameters?.getD [] = stage →
      positionalValues target.parameters? args kw = pure values →
      positionalValues target.parameters? args' kw' = pure (values.take m) →
      (checkValues invoke r target args kw w).outcome = .ok () →
        (checkValues invoke r target args' kw' w').outcome = .ok () := by
  have htake (h : ∃ verdict,
      (Stage.verify (Registry.accepts invoke r) stage values w).outcome = .ok verdict) :
      ∃ verdict, (Stage.verify (Registry.accepts invoke r) stage (values.take m) w').outcome =
        .ok verdict :=
    Stage.exists_verifyFrom_take hdet (List.Subset.refl stage) .refl hasks hm h
  refine ⟨htake, ?_⟩
  rintro target args kw args' kw' rfl hvalues hvalues' h
  obtain ⟨values', verdict, hpure, hverify, -⟩ := exists_of_checkValues h
  obtain rfl : values = values' := by
    have heq := congrArg (fun x => (x w).outcome) (hvalues.symm.trans hpure)
    exact Except.ok.inj heq
  obtain ⟨verdict', hverify'⟩ := htake ⟨verdict, hverify⟩
  exact checkValues_of_verify hvalues' hverify'

/-- Two values for `number, [string]`, and the first of them alone. -/
theorem verify_take_one :
    let stage : Stage := [.ofName "number", ⟨"string", .plain, true⟩]
    let accepts := Registry.accepts (CallContracts.invoke 2) 0
    Stage.Deterministic accepts stage Registry.world ∧
      Stage.Asks accepts stage Registry.world Registry.world ∧
      (∃ verdict, (Stage.verify accepts stage [.int 1, .text "x"] Registry.world).outcome =
        .ok verdict) ∧
      ∃ verdict, (Stage.verify accepts stage [.int 1] Registry.world).outcome = .ok verdict := by
  intro stage accepts
  have hdet : Stage.Deterministic accepts stage Registry.world :=
    Stage.deterministic_of_basic Registry.hasBase_base (by decide)
  have hreturns : ∃ verdict,
      (Stage.verify accepts stage [.int 1, .text "x"] Registry.world).outcome = .ok verdict :=
    ⟨.accept, rfl⟩
  exact ⟨hdet, .refl, hreturns, (verify_take (m := 1) hdet .refl le_rfl).1 hreturns⟩

end Enforcer

end CallContracts
