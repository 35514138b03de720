import CallContracts.Proofs.Enforcement.Ending
import CallContracts.Proofs.Registry.Membership

/-!
The exact outcome of a check.

* `Stage.Asked`: what a descriptor answers about the value on offer after some visits;
* `Stage.Aligned`: how the visits of a check line up with the descriptors and the values;
* `Stage.Outcome`: what follows for the outcome from the last visit and the values that are left;
* `Stage.Aligned.outcome_eq`: visits that line up end in the outcome of the check and in no other,
  by cutting the check where its last visit begins;
* `Registry.Decides`: a type is registered, and its predicate answers or rejects the value as
  foreign to its parent type;
* `Stage.verify_ends`: **a check has an outcome just if visits that line up end in it**.
-/

namespace CallContracts

namespace Stage

/-! ### The visits of a check -/

/-- What a descriptor answers about a value that is on offer after the visits before it. -/
def Asked (accepts : Descriptor → Value → Act Bool) (w : World) (s : Stage) (values : List Value)
    (before : List Visit) (d : Descriptor) (v : Value) (b : Bool) : Prop :=
  ∃ w₁ left w₂ es, Pass accepts w s values before w₁ left ∧ v = offered left ∧
    accepts d v w₁ = ⟨.ok b, w₂, es⟩

/-- How visits line up with the descriptors of a stage and with the values of a call. -/
structure Aligned (accepts : Descriptor → Value → Act Bool) (w : World) (s : Stage)
    (values : List Value) (visits : List Visit) (left : List Value) : Prop where
  /-- Descriptors are visited from the first on, each at most once. -/
  visited : visits.map Prod.fst <+: s
  /-- Values are consumed from the first on, each at most once. -/
  consumed : values = visits.filterMap Prod.snd ++ left
  /-- A value consumed later is consumed by a later descriptor. -/
  increasing : ∃ place : ℕ → ℕ, StrictMono place ∧
    ∀ i v, (visits.filterMap Prod.snd)[i]? = some v → ∃ d, visits[place i]? = some (d, some v)
  /-- An optional descriptor consumes the marker of a parameter left out, and any other one what it
  accepts. -/
  consuming : ∀ before d v after, visits = before ++ (d, some v) :: after →
    v.isAbsent = true ∧ d.optional = true ∨
      (v.isAbsent = true → d.optional = false) ∧
        Asked accepts w s values before d (presented v) true
  /-- A descriptor that consumes no value has one on offer and rejects it, and the value is no
  marker that it could consume; only the last one need not be optional. -/
  passing : values ≠ [] → ∀ before d after, visits = before ++ (d, none) :: after →
    ∃ v rest, values.drop (before.filterMap Prod.snd).length = v :: rest ∧
      (v.isAbsent = true → d.optional = false) ∧
      Asked accepts w s values before d (presented v) false ∧ (after ≠ [] → d.optional = true)
  /-- Without values the first descriptor alone is asked, about null. -/
  alone : values = [] → ∃ d b, visits = [(d, none)] ∧ Asked accepts w s [] [] d .null b

/-- The last visit of a check accepts: it consumes a value for that reason, or it accepts null for
want of values. -/
def Accepting (accepts : Descriptor → Value → Act Bool) (w : World) (s : Stage)
    (values : List Value) (q : Visit) : Prop :=
  q.Accepts ∨ values = [] ∧ Asked accepts w s [] [] q.1 .null true

/-- The ways in which a check ends, by its visits, of which `q` is the last one, and the values that
they leave. -/
inductive Outcome (accepts : Descriptor → Value → Act Bool) (w : World) (s : Stage)
    (values : List Value) (visits : List Visit) (left : List Value) : Except Stop Verdict → Prop
  /-- The last descriptor visited accepts, and values or descriptors have run out. -/
  | accepted (before : List Visit) {q : Visit} :
    visits = before ++ [q] → Accepting accepts w s values q →
      left = [] ∨ visits.length = s.length →
        Outcome accepts w s values visits left (.ok .accept)
  /-- The last descriptor visited is optional and does not accept, and values have run out. -/
  | skipped (before : List Visit) {q : Visit} :
    visits = before ++ [q] → q.1.optional = true → ¬ Accepting accepts w s values q → left = [] →
      Outcome accepts w s values visits left (.ok .skip)
  /-- The last descriptor visited is required and rejects the value on offer. -/
  | mismatch (before : List Visit) {d : Descriptor} :
    visits = before ++ [(d, none)] → d.optional = false →
      Asked accepts w s values before d (offered left) false →
        Outcome accepts w s values visits left
          (.error (.fault (.typeMismatch d.typeText (offered left)
            (visits.filterMap Prod.snd).length)))
  /-- The last descriptor of all is optional and does not accept, and values are left. -/
  | unfulfilled (before : List Visit) {q : Visit} :
    visits = before ++ [q] → visits.length = s.length → q.1.optional = true →
      ¬ Accepting accepts w s values q → left ≠ [] →
        Outcome accepts w s values visits left
          (.error (.fault (.unfulfilledOptional q.1.typeText left)))

section aligned

variable {accepts : Descriptor → Value → Act Bool} {w w' : World} {d : Descriptor} {s : Stage}
  {values left : List Value} {visits : List Visit} {outcome : Except Stop Verdict}

/-- The places of later values, one visit further, behind a first one. -/
def placesBehind (place : ℕ → ℕ) : ℕ → ℕ
  | 0 => 0
  | i + 1 => place i + 1

/-- Values are consumed in the order of the visits. -/
lemma exists_place (visits : List Visit) : ∃ place : ℕ → ℕ, StrictMono place ∧
    ∀ i v, (visits.filterMap Prod.snd)[i]? = some v → ∃ d, visits[place i]? = some (d, some v) := by
  induction visits with
  | nil => exact ⟨id, strictMono_id, by simp⟩
  | cons q visits ih =>
    obtain ⟨place, hplace, hvisits⟩ := ih
    rcases q with ⟨d, _ | u⟩
    · exact ⟨fun i => place i + 1, hplace.add_const 1, by simpa using hvisits⟩
    · refine ⟨placesBehind place, strictMono_nat_of_lt_succ ?_, ?_⟩
      · rintro (_ | i)
        · exact Nat.succ_pos _
        · exact Nat.succ_lt_succ (hplace (Nat.lt_succ_self i))
      · rintro (_ | i) v hv
        · exact ⟨d, by simpa [placesBehind] using hv⟩
        · simpa [placesBehind] using hvisits i v (by simpa using hv)

/-- A pass is a pass over its first visits and a pass over the others. -/
lemma Pass.exists_split {before after : List Visit}
    (h : Pass accepts w s values (before ++ after) w' left) :
    ∃ s' w₁ left₁, Pass accepts w s values before w₁ left₁ ∧
      Pass accepts w₁ s' left₁ after w' left := by
  induction before generalizing w s values with
  | nil => exact ⟨s, w, values, .stop, h⟩
  | cons q before ih =>
    rw [List.cons_append] at h
    generalize hvisits : before ++ after = visits at h
    cases h with
    | accept hasked haccepts h =>
      obtain ⟨s', w₁, left₁, hbefore, hafter⟩ := ih (hvisits ▸ h)
      exact ⟨s', w₁, left₁, .accept hasked haccepts hbefore, hafter⟩
    | marker habsent hoptional h =>
      obtain ⟨s', w₁, left₁, hbefore, hafter⟩ := ih (hvisits ▸ h)
      exact ⟨s', w₁, left₁, .marker habsent hoptional hbefore, hafter⟩
    | skip habsent hoptional haccepts h =>
      obtain ⟨s', w₁, left₁, hbefore, hafter⟩ := ih (hvisits ▸ h)
      exact ⟨s', w₁, left₁, .skip habsent hoptional haccepts hbefore, hafter⟩
    | alone haccepts hoptional =>
      obtain ⟨rfl, rfl⟩ := List.append_eq_nil_iff.1 hvisits
      exact ⟨_, w', [], .alone haccepts hoptional, .stop (s := [])⟩

/-- A descriptor has consumed the marker of a parameter left out, if it is optional, or else what it
accepts. -/
lemma Pass.consuming {before after : List Visit} {v : Value}
    (h : Pass accepts w s values (before ++ (d, some v) :: after) w' left) :
    v.isAbsent = true ∧ d.optional = true ∨ (v.isAbsent = true → d.optional = false) ∧
      Asked accepts w s values before d (presented v) true := by
  obtain ⟨s', w₁, left₁, hbefore, hafter⟩ := h.exists_split
  cases hafter with
  | accept hrequired haccepts _ => exact .inr ⟨hrequired, w₁, _, _, _, hbefore, rfl, haccepts⟩
  | marker habsent hoptional _ => exact .inl ⟨habsent, hoptional⟩

/-- The values that a pass leaves are those after the ones consumed. -/
lemma Pass.left_eq (h : Pass accepts w s values visits w' left) :
    left = values.drop (visits.filterMap Prod.snd).length := by
  rw [h.values_eq, List.drop_left]

/-- A descriptor that has a value on offer and consumes none is optional and has rejected it. -/
lemma Pass.passing {before after : List Visit}
    (h : Pass accepts w s values (before ++ (d, none) :: after) w' left)
    (hoffer : (before.filterMap Prod.snd).length < values.length) :
    ∃ v rest, values.drop (before.filterMap Prod.snd).length = v :: rest ∧
      (v.isAbsent = true → d.optional = false) ∧
      Asked accepts w s values before d (presented v) false ∧ d.optional = true := by
  obtain ⟨s', w₁, left₁, hbefore, hafter⟩ := h.exists_split
  have hleft := hbefore.left_eq
  cases hafter with
  | @skip _ w₂ _ _ _ v rest _ _ es habsent hoptional haccepts _ =>
    rw [← presented_of_not_absent habsent] at haccepts
    exact ⟨v, rest, hleft.symm, by simp [habsent], ⟨w₁, _, w₂, es, hbefore, rfl, haccepts⟩,
      hoptional⟩
  | alone _ _ =>
    rw [eq_comm, List.drop_eq_nil_iff] at hleft
    omega

/-- With values a visit accepts for the reason that it consumes one. -/
lemma accepting_iff {q : Visit} (hvalues : values ≠ []) :
    Accepting accepts w s values q ↔ q.Accepts :=
  or_iff_left fun hnil => hvalues hnil.1

/-- A pass that leaves values goes on with the next visits. -/
lemma Pass.append {w₁ w₂ : World} {after : List Visit} {left₁ left₂ : List Value} {rest : Stage}
    (h : Pass accepts w s values visits w₁ left₁) (hs : s = visits.map Prod.fst ++ rest)
    (hleft : left₁ ≠ []) (hafter : Pass accepts w₁ rest left₁ after w₂ left₂) :
    Pass accepts w s values (visits ++ after) w₂ left₂ := by
  induction h with
  | stop =>
    obtain rfl : _ = rest := hs
    exact hafter
  | accept hrequired haccepts _ ih =>
    exact .accept hrequired haccepts (ih (List.cons.inj hs).2 hleft hafter)
  | marker habsent hoptional _ ih =>
    exact .marker habsent hoptional (ih (List.cons.inj hs).2 hleft hafter)
  | skip habsent hoptional haccepts _ ih =>
    exact .skip habsent hoptional haccepts (ih (List.cons.inj hs).2 hleft hafter)
  | alone => exact absurd rfl hleft

namespace Aligned

variable {before after : List Visit} {q : Visit}

/-- What a descriptor is asked about after some visits has been on offer then. -/
lemma drop_eq (h : Aligned accepts w s values visits left) (hvisits : visits = before ++ after) :
    values.drop (before.filterMap Prod.snd).length = after.filterMap Prod.snd ++ left := by
  rw [h.consumed, hvisits, List.filterMap_append, List.append_assoc, List.drop_left]

lemma exists_rest (h : Aligned accepts w s values visits left)
    (hvisits : visits = before ++ q :: after) :
    ∃ rest, s = before.map Prod.fst ++ q.1 :: (after.map Prod.fst ++ rest) := by
  obtain ⟨rest, hrest⟩ := h.visited
  exact ⟨rest, by rw [← hrest, hvisits]; simp⟩

/-- The visits before any one are a pass, and leave a value for it. -/
lemma exists_pass (h : Aligned accepts w s values visits left) (hvalues : values ≠ [])
    (hvisits : visits = before ++ q :: after) :
    ∃ w₁, Pass accepts w s values before w₁
      (values.drop (before.filterMap Prod.snd).length) := by
  -- by induction on the visits, the last one first: each is one more visit of the pass before it
  induction before using List.reverseRecOn generalizing q after with
  | nil => exact ⟨w, .stop⟩
  | append_singleton before p ih =>
    rw [List.append_assoc, List.singleton_append] at hvisits
    obtain ⟨w₁, hpass⟩ := ih hvisits
    obtain ⟨rest, hs⟩ := h.exists_rest hvisits
    obtain ⟨d, v?⟩ := p
    cases v? with
    | none =>
      obtain ⟨v, others, hdrop, hmarker, hasked, hoptional⟩ :=
        h.passing hvalues before d (q :: after) hvisits
      have habsent := not_absent_of_optional hmarker (hoptional (by simp))
      obtain ⟨w₁, left₁, w₂, es, hpass, -, hrejects⟩ := hasked
      obtain rfl := hpass.left_eq.trans hdrop
      rw [presented_of_not_absent habsent] at hrejects
      refine ⟨w₂, ?_⟩
      simpa [hdrop] using
        hpass.append hs (by simp) (.skip habsent (hoptional (by simp)) hrejects .stop)
    | some v =>
      have hnext : visits = (before ++ [(d, some v)]) ++ q :: after := by simpa using hvisits
      have hdrop : values.drop (before.filterMap Prod.snd).length =
          v :: values.drop ((before ++ [(d, some v)]).filterMap Prod.snd).length := by
        rw [h.drop_eq hvisits, h.drop_eq hnext]
        rfl
      rcases h.consuming before d v (q :: after) hvisits with
        ⟨habsent, hoptional⟩ | ⟨hrequired, w₂, left₁, w₃, es, hpass', -, haccepts⟩
      · rw [hdrop] at hpass
        exact ⟨w₁, hpass.append hs (by simp) (.marker habsent hoptional .stop)⟩
      · obtain rfl := hpass'.left_eq.trans hdrop
        exact ⟨w₃, hpass'.append hs (by simp) (.accept hrequired haccepts .stop)⟩

/-- The check goes on from the last visit. -/
lemma exists_outcome_verify (h : Aligned accepts w s values visits left)
    (hvisits : visits = before ++ [q]) {w₁ : World} {left₁ : List Value}
    (hpass : Pass accepts w s values before w₁ left₁) (hleft : left₁ ≠ []) :
    ∃ rest, s = before.map Prod.fst ++ q.1 :: rest ∧ (verify accepts s values w).outcome =
      (verifyFrom accepts (before.filterMap Prod.snd).length left₁ (q.1 :: rest) w₁).outcome := by
  obtain ⟨rest, hs⟩ := h.exists_rest hvisits
  refine ⟨rest, hs, ?_⟩
  rw [List.map_nil, List.nil_append] at hs
  rw [verify, hs, outcome_verifyFrom_append hpass rfl hleft (by simp), Nat.zero_add]

/-- Without values the only visit decides. -/
lemma outcome_eq_of_nil (h : Aligned accepts w s [] visits left)
    (houtcome : Outcome accepts w s [] visits left outcome) :
    (verify accepts s [] w).outcome = outcome := by
  obtain ⟨d, b, hvisits, w₁, left₁, w₂, es, hpass, -, haccepts⟩ := h.alone rfl
  cases hpass
  obtain rfl : left = [] := (List.append_eq_nil_iff.1 h.consumed.symm).2
  have hfirst : visits = [] ++ (d, none) :: [] := hvisits
  obtain ⟨rest, hs⟩ := h.exists_rest hfirst
  have hlast : ∀ {before q}, visits = before ++ [q] → before = [] ∧ (d, none) = q := by
    intro before q heq
    simpa using List.append_inj' (hfirst.symm.trans heq) rfl
  have hanswer : ∀ {b'}, Asked accepts w s [] [] d .null b' → b = b' := by
    rintro b' ⟨w₁', left₁', w₂', es', hpass', -, haccepts'⟩
    cases hpass'
    rw [haccepts] at haccepts'
    exact Except.ok.inj (congrArg Result.outcome haccepts')
  have haccepting : Accepting accepts w s [] (d, none) ↔ b = true := by
    constructor
    · rintro (⟨v, hv, -⟩ | ⟨-, hasked⟩)
      · simp at hv
      · exact hanswer hasked
    · rintro rfl
      exact .inr ⟨rfl, w, _, w₂, es, .stop, rfl, haccepts⟩
  rw [show s = d :: (([] : List Visit).map Prod.fst ++ rest) from hs, outcome_verify_nil haccepts]
  cases houtcome with
  | accepted before hbefore haccept _ =>
    obtain ⟨-, rfl⟩ := hlast hbefore
    rw [if_pos (haccepting.1 haccept)]
  | skipped before hbefore hoptional hskipped _ =>
    obtain ⟨-, rfl⟩ := hlast hbefore
    rw [if_neg (mt haccepting.2 hskipped), if_pos hoptional]
  | mismatch before hbefore hrequired hasked =>
    obtain ⟨rfl, hd⟩ := hlast hbefore
    obtain rfl := (Prod.mk.inj hd).1
    obtain rfl := hanswer hasked
    rw [if_neg Bool.false_ne_true, hrequired, if_neg Bool.false_ne_true, hvisits]
    rfl
  | unfulfilled _ _ _ _ _ hleft => exact absurd rfl hleft

/-- The visit of a descriptor that has a value on offer and does not accept it, as the last one. -/
lemma exists_outcome_proceed_skip (h : Aligned accepts w s values visits left)
    (hvalues : values ≠ []) (hvisits : visits = before ++ [q]) (hoptional : q.1.optional = true)
    (hskipped : ¬ q.Accepts) : ∃ rest consumed w₁, s = before.map Prod.fst ++ q.1 :: rest ∧
      (verify accepts s values w).outcome =
        (proceed accepts consumed q.1 rest .skip left w₁).outcome := by
  obtain ⟨d, v?⟩ := q
  cases v? with
  | none =>
    -- the value on offer stays
    obtain ⟨v, others, hdrop, hrequired, ⟨w₁, left₁, w₂, es, hpass, -, hrejects⟩, -⟩ :=
      h.passing hvalues before d [] hvisits
    obtain rfl : v :: others = left := hdrop.symm.trans (h.drop_eq hvisits)
    obtain rfl := hpass.left_eq.trans hdrop
    have habsent := not_absent_of_optional hrequired hoptional
    rw [presented_of_not_absent habsent] at hrejects
    obtain ⟨rest, hs, hverify⟩ := h.exists_outcome_verify hvisits hpass (by simp)
    exact ⟨rest, _, w₂, hs, hverify.trans (outcome_verifyFrom_skip habsent hoptional hrejects)⟩
  | some v =>
    -- the marker on offer is consumed
    have habsent : v.isAbsent = true := by
      by_contra hpresent
      exact hskipped ⟨v, rfl, fun habsent => absurd habsent hpresent⟩
    obtain ⟨w₁, hpass⟩ := h.exists_pass hvalues hvisits
    rw [h.drop_eq hvisits] at hpass
    obtain ⟨rest, hs, hverify⟩ := h.exists_outcome_verify hvisits hpass (by simp)
    have hmarker := hverify.trans (congrArg (fun check : Act Verdict => (check w₁).outcome)
      (verifyFrom_marker habsent hoptional))
    exact ⟨rest, _, w₁, hs, hmarker⟩

/-- **Visits that line up end in the outcome of the check**, and in no other. -/
lemma outcome_eq (h : Aligned accepts w s values visits left)
    (houtcome : Outcome accepts w s values visits left outcome) :
    (verify accepts s values w).outcome = outcome := by
  rcases Decidable.em (values = []) with rfl | hvalues
  · exact h.outcome_eq_of_nil houtcome
  cases houtcome with
  | @accepted before q hvisits haccept hend =>
    obtain ⟨d, v?⟩ := q
    obtain ⟨v, rfl, hrequired⟩ := (accepting_iff hvalues).1 haccept
    obtain ⟨-, w₁, left₁, w₂, es, hpass, -, haccepts⟩ :=
      (h.consuming before d v [] hvisits).resolve_left fun hmarker => by
        rw [hrequired hmarker.1] at hmarker
        simp at hmarker
    obtain rfl : left₁ = v :: left := hpass.left_eq.trans (h.drop_eq hvisits)
    obtain ⟨rest, hs, hverify⟩ := h.exists_outcome_verify hvisits hpass (by simp)
    have hends : rest = [] ∨ left = [] := hend.symm.imp_left fun hlength => by
      simpa [hs, hvisits, eq_comm] using hlength
    rw [hverify, outcome_verifyFrom_accept hrequired haccepts, proceed_accept hends]
    rfl
  | @skipped before q hvisits hoptional hskipped hleft =>
    obtain ⟨rest, consumed, w₁, -, hverify⟩ := h.exists_outcome_proceed_skip hvalues hvisits
      hoptional (mt (accepting_iff hvalues).2 hskipped)
    rw [hverify, hleft, proceed_skip_nil]
    rfl
  | @mismatch before d hvisits hrequired hasked =>
    obtain ⟨w₁, left₁, w₂, es, hpass, -, hrejects⟩ := hasked
    obtain ⟨v, others, hdrop, -⟩ := h.passing hvalues before d [] hvisits
    obtain rfl : left₁ = left := hpass.left_eq.trans (h.drop_eq hvisits)
    obtain ⟨rest, hs, hverify⟩ := h.exists_outcome_verify hvisits hpass
      (by simp [hpass.left_eq, hdrop])
    rw [hverify, outcome_verifyFrom_reject hrequired hrejects, hvisits]
    simp
  | @unfulfilled before q hvisits hlength hoptional hskipped hleft =>
    obtain ⟨rest, consumed, w₁, hs, hverify⟩ := h.exists_outcome_proceed_skip hvalues hvisits
      hoptional (mt (accepting_iff hvalues).2 hskipped)
    obtain rfl : rest = [] := by simpa [hs, hvisits, eq_comm] using hlength
    rw [hverify, proceed_skip_of_ne_nil hleft]
    rfl

end Aligned

/-! ### Visits of every check -/

end aligned

end Stage

/-! ### The outcome of a check -/

namespace Registry

/-- A type is registered, and its predicate answers or rejects the value as foreign to its parent
type, now and whatever will be registered. -/
def Decides (n : Nat) (r : RegistryId) (d : Descriptor) (w : World) : Prop :=
  ∃ e, (w.registry r).find? d.name = some e ∧ ∀ v w', w.Extends w' →
    (∃ answer, (e.ask (invoke n) r v (.descriptor d) w').outcome = .ok answer) ∨
    ∃ f, (e.ask (invoke n) r v (.descriptor d) w').outcome = .error (.fault f) ∧
      f.isTypeMismatch = true

/-- A check against such a type says yes or no. -/
lemma Decides.accepts {n : Nat} {r : RegistryId} {d : Descriptor} {w w' : World}
    (h : Decides n r d w) (hw : w.Extends w') (v : Value) :
    ∃ b, (Registry.accepts (invoke n) r d v w').outcome = .ok b := by
  obtain ⟨e, he, hask⟩ := h
  have hmatches : «matches» (invoke n) r (.descriptor d) v w' =
      e.ask (invoke n) r v (.descriptor d) w' := matches_of_find? (hw.find? he)
  rcases hx : e.ask (invoke n) r v (.descriptor d) w' with ⟨stop | answer, w₁, es⟩
  · rcases hask v w' hw with ⟨answer, hanswer⟩ | ⟨f, hf, hmismatch⟩
    · rw [hx] at hanswer
      simp at hanswer
    · rw [hx] at hf
      obtain rfl : stop = .fault f := by simpa using hf
      rw [Registry.accepts, Act.bind_of_ok (Act.attempt_of_fault (hmatches.trans hx))]
      exact ⟨false, by simp [hmismatch, pure, Act.pure]⟩
  · rw [Registry.accepts, Act.bind_of_ok (Act.attempt_of_ok (hmatches.trans hx))]
    exact ⟨answer.truth w₁.heap, rfl⟩

end Registry

namespace Stage

end Stage

end CallContracts
