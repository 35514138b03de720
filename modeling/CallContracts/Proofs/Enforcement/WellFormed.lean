import CallContracts.Proofs.Enforcement.Ending
import CallContracts.Proofs.Registry.History
import CallContracts.Proofs.Registry.Membership

/-!
Signed functions are well formed.

* `Enforcer.Issued`: the functions that an enforcer gives out, in the worlds where it does: one that
  it signs, enforces or wraps, and one that a call of a curried contract returns;
* `Enforcer.Issued.exists_text`: the contract of each of them, sliced or not, is what some text
  reads as, now and whatever will be registered, and its callable can take the first stage;
* `Signed.WellFormed` and `Signed.Safe`: what that says of a contract, and of all calls;
* `Enforcer.issued_wellFormed`: **every signed function is well formed**, and no later call of it
  runs out of descriptors, misses a type of its contract or fails to read its return type.
-/

namespace CallContracts

/-- A name that stands in brackets. -/
def Registry.IsBracketed (name : String) : Prop :=
  name.toList.head? = some '[' ∧ name.toList.getLast? = some ']'

instance (name : String) : Decidable (Registry.IsBracketed name) := instDecidableAnd

/-- A check that fails on a registered type fails as its predicate does. -/
lemma Registry.ask_of_accepts_error {invoke : Invoke} {r : RegistryId} {d : Descriptor} {e : Entry}
    {v : Value} {w w' : World} {stop : Stop} {es : List Event}
    (he : (w.registry r).find? d.name = some e)
    (h : accepts invoke r d v w = ⟨.error stop, w', es⟩) :
    (e.ask invoke r v (.descriptor d) w).outcome = .error stop := by
  rcases hask : e.ask invoke r v (.descriptor d) w with ⟨(f | -) | answer, w₁, es₁⟩
  · rw [accepts, Act.bind_of_ok (Act.attempt_of_fault ((matches_of_find? he).trans hask))] at h
    simp only at h
    split at h
    · simp [pure, Act.pure] at h
    · simp only [Act.throw, Result.mk.injEq, Except.error.injEq] at h
      rw [h.1]
  · rw [accepts, Act.bind_of_error
      (Act.attempt_of_exhausted ((matches_of_find? he).trans hask))] at h
    simp only [Result.mk.injEq, Except.error.injEq] at h
    rw [h.1]
  · rw [accepts, Act.bind_of_ok (Act.attempt_of_ok ((matches_of_find? he).trans hask))] at h
    simp [Act.heap, Act.world, Bind.bind, Act.bind, pure, Act.pure] at h

/-- Only a name that stands in brackets looks so in a written form that can be read. -/
lemma Descriptor.LooksBracketed.isBracketed {d : Descriptor} (h : d.LooksBracketed)
    (hlabel : d.label?.isSome = true → d.name = labelledName) :
    Registry.IsBracketed d.name := by
  obtain ⟨name, detail, optional⟩ := d
  obtain ⟨hhead, hlast⟩ := h
  cases detail with
  | plain =>
    rcases hname : name.toList with _ | ⟨c, cs⟩
    · simp [hname] at hhead
    · rw [Registry.IsBracketed, hname]
      simp only [hname, List.head?_cons, List.tail_cons] at hhead hlast ⊢
      exact ⟨hhead, by rw [List.getLast?_cons, hlast, Option.getD_some]⟩
  | label text =>
    rw [show name = labelledName from hlabel rfl] at hhead
    simp [labelledName] at hhead
  | arguments types => exact hlast.elim

namespace Signed

/-! ### Well-formed contracts -/

/-- The contract of a signed function is in order: stages as a signature has them, types that are
known, labels where they may stand, and a callable that can take the first stage. -/
structure WellFormed (s : Signed) (known : String → Bool) : Prop where
  tree : s.tree.WellFormed
  known : ∀ stage ∈ s.tree.stages, ∀ d ∈ stage, known d.name = true
  labels : ∀ stage ∈ s.tree.stages, ∀ d ∈ stage, d.label?.isSome = true → d.name = labelledName
  exclusive : ∀ stage ∈ s.tree.stages, ∀ d ∈ stage, d.label? = none ∨ d.arguments? = none
  fits : ∃ stage, s.tree.parameters? = some stage ∧
    stage.required ≤ (Value.function (.signed s)).parameterCount ∧
    (Value.function (.signed s)).parameterCount ≤ stage.length

/-- What no call of a signed function fails with. -/
structure Safe (s : Signed) (r : RegistryId) (w : World) : Prop where
  /-- The first stage that is left for the result has a descriptor. -/
  indexed : ∃ d rest stages, s.tree.remaining.stages = (d :: rest) :: stages
  /-- Each type of the contract is found. -/
  found : ∀ stage ∈ s.tree.stages, ∀ d ∈ stage, ∃ e,
    Registry.lookup r (.text d.name) w = ⟨.ok e, w, []⟩
  /-- A check of values fails with a rejection, or as a predicate of the contract does. -/
  checked : ∀ n values stop,
    (Enforcer.verifyAgainst (invoke n) r s.tree values w).outcome = .error stop →
      (∃ f, stop = .fault f ∧ f.isRejection = true) ∨
      ∃ stage d e v w', s.tree.parameters? = some stage ∧ d ∈ stage ∧
        (w.registry r).find? d.name = some e ∧
        (e.ask (invoke n) r v (.descriptor d) w').outcome = .error stop
  /-- The written return type reads, and is found. -/
  returns : ∃ e d, Registry.resolve r (.text (Enforcer.resultType s.tree.remaining)) w =
    ⟨.ok (e, d), w, []⟩

variable {s : Signed} {known : String → Bool} {text : String} {r : RegistryId} {w : World}

/-- A contract that was read is in order. -/
lemma wellFormed_of_parse (hparse : Tree.parse (some known) text = .ok s.tree)
    (hfits : Enforcer.Fits s) : s.WellFormed known := by
  obtain ⟨hform, hnames⟩ := Tree.parse_eq_ok_iff.1 hparse
  obtain ⟨hlabels, -⟩ := Tree.checkNames_eq_ok_iff.1 (hnames known rfl)
  obtain ⟨htree, -⟩ := Tree.sound_of_parseForm hform
  refine ⟨htree, Tree.parse_known hparse, fun stage hstage d hd => ?_, fun stage _ d _ => ?_, ?_⟩
  · exact hlabels d (List.mem_flatten.2 ⟨stage, hstage, hd⟩)
  · obtain ⟨name, detail, optional⟩ := d
    cases detail with
    | plain => exact .inl rfl
    | label text => exact .inr rfl
    | arguments types => exact .inl rfl
  · have hsize : 0 < s.tree.stages.length := Nat.lt_of_lt_of_le Nat.two_pos htree.size
    obtain ⟨stage, hstage⟩ : ∃ stage, s.tree.parameters? = some stage := by
      simpa [Tree.parameters?, List.head?_eq_some_iff] using List.exists_cons_of_length_pos hsize
    refine ⟨stage, hstage, ?_⟩
    have hcount := hfits
    simp only [Enforcer.Fits, Signature.checkCount, hstage, Option.getD_some] at hcount
    split at hcount
    · simp at hcount
    · next hbounds =>
      simp only [Bool.or_eq_true, decide_eq_true_eq, not_or, Nat.not_lt] at hbounds
      exact ⟨hbounds.2, hbounds.1⟩

/-- A check against types that are known fails with a rejection, or as a predicate does. -/
lemma cases_of_verify_error {n : Nat} {stage : Stage} {values : List Value} {stop : Stop}
    (hstage : stage ≠ []) (hknown : ∀ d ∈ stage, (w.registry r).contains d.name = true)
    (h : (Stage.verify (Registry.accepts (invoke n) r) stage values w).outcome = .error stop) :
    (∃ f, stop = .fault f ∧ f.isRejection = true) ∨
      ∃ d e v w', d ∈ stage ∧ (w.registry r).find? d.name = some e ∧
        (e.ask (invoke n) r v (.descriptor d) w').outcome = .error stop := by
  obtain hrejects | ⟨visits, w₁, left, w', hpass, d, rest, stop', es, rfl, hstop, hfails⟩ :=
    Stage.cases_of_verify_error hstage h
  · exact .inl hrejects
  · obtain rfl := Except.error.inj hstop
    obtain ⟨e, he⟩ := Option.isSome_iff_exists.1 (hknown d (by simp))
    exact .inr ⟨d, e, Stage.offered left, w₁, by simp, he,
      Registry.ask_of_accepts_error (hpass.extends.find? he) hfails⟩

/-- A well-formed contract has a first stage and a second one that begins with a descriptor. -/
lemma WellFormed.exists_stages (hs : s.WellFormed known) : ∃ stage d rest stages,
    s.tree.parameters? = some stage ∧ s.tree.remaining.stages = (d :: rest) :: stages ∧
      s.tree.stages = stage :: (d :: rest) :: stages := by
  obtain ⟨stage, stages', hstages⟩ : ∃ stage stages', s.tree.stages = stage :: stages' :=
    List.exists_cons_of_length_pos (Nat.lt_of_lt_of_le Nat.two_pos hs.tree.size)
  have hsize : 1 < s.tree.stages.length := hs.tree.size
  rw [hstages, List.length_cons, Nat.lt_add_left_iff_pos] at hsize
  obtain ⟨next, stages, rfl⟩ := List.exists_cons_of_length_pos hsize
  obtain ⟨d, rest, rfl⟩ := List.exists_cons_of_ne_nil (hs.tree.nonempty next (by simp [hstages]))
  refine ⟨stage, d, rest, stages, ?_, ?_, hstages⟩
  · rw [Tree.parameters?, hstages]
    rfl
  · rw [Tree.remaining, hstages]
    rfl

/-- The written return type of a well-formed contract reads, and is found. -/
lemma WellFormed.exists_resolve (hs : s.WellFormed (w.registry r).contains)
    (hsound : ∀ stage ∈ s.tree.stages, ∀ d ∈ stage, d.Sound)
    (hbase : Registry.HasBase (w.registry r))
    (hnames : ∀ name, (w.registry r).contains name = true → ¬ Registry.IsBracketed name) :
    ∃ e d, Registry.resolve r (.text (Enforcer.resultType s.tree.remaining)) w =
      ⟨.ok (e, d), w, []⟩ := by
  obtain ⟨stage, d, rest, stages, -, hremaining, hstages⟩ := hs.exists_stages
  by_cases hcurried : 1 < s.tree.remaining.size
  · have he := hbase ("function", NativePredicate.isFunction, "* -> function") (by decide)
    rw [Enforcer.resultType, if_pos hcurried]
    exact ⟨_, .ofName Enforcer.callableName, Registry.resolve_of_parse rfl he⟩
  · have hmem : (d :: rest) ∈ s.tree.stages := by simp [hstages]
    have hd : d ∈ d :: rest := by simp
    have hknown := hs.known _ hmem d hd
    obtain ⟨e, he⟩ := Option.isSome_iff_exists.1 hknown
    have hlook : ¬ d.LooksBracketed := fun hlook =>
      hnames d.name hknown (hlook.isBracketed (hs.labels _ hmem d hd))
    rw [Enforcer.resultType, if_neg hcurried, hremaining]
    exact ⟨e, d.bare, Registry.resolve_of_parse
      (Descriptor.parse_typeText (hsound _ hmem d hd) hlook) he⟩

/-- **A well-formed contract is safe** where its types are known, if no name stands in brackets. -/
lemma safe_of_wellFormed (hs : s.WellFormed (w.registry r).contains)
    (hsound : ∀ stage ∈ s.tree.stages, ∀ d ∈ stage, d.Sound)
    (hbase : Registry.HasBase (w.registry r))
    (hnames : ∀ name, (w.registry r).contains name = true → ¬ Registry.IsBracketed name) :
    s.Safe r w := by
  obtain ⟨stage, d, rest, stages, hparameters, hremaining, hstages⟩ := hs.exists_stages
  have hstage : stage ∈ s.tree.stages := by simp [hstages]
  refine ⟨⟨d, rest, stages, hremaining⟩, fun stage hstage d hd => ?_, fun n values stop h => ?_,
    hs.exists_resolve hsound hbase hnames⟩
  · obtain ⟨e, he⟩ := Option.isSome_iff_exists.1 (hs.known stage hstage d hd)
    exact ⟨e, by rw [Registry.lookup_text, he]⟩
  · rw [Enforcer.verifyAgainst, hparameters] at h
    refine (cases_of_verify_error (hs.tree.nonempty stage hstage) (hs.known stage hstage)
      h).imp_right ?_
    rintro ⟨d, e, v, w', hd, he, hask⟩
    exact ⟨stage, d, e, v, w', hparameters, hd, he, hask⟩

end Signed

/-! ### What an enforcer gives out -/

namespace Enforcer

/-- The functions that the enforcer of a registry gives out: one that it signs, enforces or wraps,
and one that a call of a curried contract returns, in whatever world the calls come. -/
inductive Issued (r : RegistryId) : World → Signed → Prop
  | sign {w : World} {signature v context : Value} {s : Signed} :
    (sign r signature v context w).outcome = .ok s → Issued r w s
  | enforce {w : World} {signature v context : Value} {s : Signed} :
    (enforce r signature v context w).outcome = .ok s → Issued r w s
  | wrap {w w' : World} {s s' : Signed} :
    Issued r w s → w.History w' → (wrap r (.function (.signed s)) w').outcome = .ok s' →
      Issued r w' s'
  | curried {w w' : World} {target s' : Signed} {n : Nat} {args : List Value}
    {kw : Call.Keywords Value} :
    Issued r w (.enforced target r) → 2 < target.tree.size → w.History w' →
      (invoke n (.function (.signed (.enforced target r))) args kw w').outcome =
        .ok (.function (.signed s')) →
      Issued r (invoke n (.function (.signed (.enforced target r))) args kw w').world s'

variable {r : RegistryId} {w w' : World} {s : Signed} {text : String}

/-- A contract that reads in one world reads in all that come after it. -/
lemma parse_of_extends (h : Tree.parse (some (w.registry r).contains) text = .ok s.tree)
    (hw : w.Extends w') : Tree.parse (some (w'.registry r).contains) text = .ok s.tree :=
  Tree.parse_mono (fun _ => hw.contains) h

/-- **The contract in force is what some text reads as**, and the callable can take its first
stage: when it is signed, after a call has cut it, and whatever has been registered since. -/
lemma Issued.exists_text (h : Issued r w s) :
    Fits s ∧ ∃ text, Tree.parse (some (w.registry r).contains) text = .ok s.tree := by
  induction h with
  | sign h =>
    obtain ⟨text, f, t, -, -, hparse, rfl, hfits⟩ := exists_of_sign h
    exact ⟨hfits, text, hparse⟩
  | enforce h =>
    obtain ⟨text, f, t, -, -, hparse, rfl, hfits⟩ := exists_of_enforce h
    exact ⟨hfits, text, hparse⟩
  | @wrap w w' s s' _ hw h ih =>
    obtain ⟨hfits, text, hparse⟩ := ih
    obtain rfl : .enforced s r = s' := Except.ok.inj h
    exact ⟨hfits, text, parse_of_extends hparse hw.extends⟩
  | @curried w w' target s' n args kw _ hsize hw h ih =>
    obtain ⟨-, text, hparse⟩ := ih
    rcases n with _ | n
    · simp [invoke_zero, Act.exhausted] at h
    obtain ⟨f, hv, hfits⟩ := exists_of_call hsize (call_of_apply h)
    simp only [Value.function.injEq, Function.signed.injEq] at hv
    subst hv
    refine ⟨hfits, Signature.restText text, Tree.parse_rest (t := target.tree) ?_ hsize⟩
    exact Tree.parse_mono (fun _ => (hw.extends.trans (invoke_extends _ _ _ _ _)).contains) hparse

/-- **Every signed function is well formed.** Whatever an enforcer gives out, be it signed, enforced
or returned by a call of a curried contract, its contract is in order then and in every later world:
two stages or more, none of them empty and the last a single type, all types registered, labels only
where they may stand, and a callable whose parameters lie between the required and all types of the
first stage. With the base types, and unless a name stands in brackets, no later call runs out of
descriptors, misses a type of the contract or fails to read the return type. -/
theorem issued_wellFormed (h : Issued r w s) (hw : w.History w')
    (hbase : Registry.HasBase (w.registry r))
    (hnames : ∀ name, (w'.registry r).contains name = true → ¬ Registry.IsBracketed name) :
    s.WellFormed (w'.registry r).contains ∧ s.Safe r w' := by
  obtain ⟨hfits, text, hparse⟩ := h.exists_text
  have hparse' := parse_of_extends hparse hw.extends
  obtain ⟨hform, -⟩ := Tree.parse_eq_ok_iff.1 hparse'
  have hs : s.WellFormed (w'.registry r).contains := Signed.wellFormed_of_parse hparse' hfits
  exact ⟨hs, Signed.safe_of_wellFormed hs (Tree.sound_of_parseForm hform).2
    (hbase.extends hw.extends) hnames⟩

/-- The membership test of a registry with a curried contract: a call returns a tester, which is
signed with the stages that are left. -/
theorem issued_wellFormed_tester :
    let w := Registry.world
    let t : Tree := ⟨[[.ofName "string"], [.ofName "*"], [.ofName "boolean"]]⟩
    let e := Registry.baseEntry ("string", .isString, "* -> string")
    let s' : Signed := .enforced (.plain (.tester 0 e (.ofName "string")) t.remaining
      t.remaining.text .null false) 0
    Issued 0 w s' ∧ w.History w ∧ Registry.HasBase (w.registry 0) ∧
      (∀ name, (w.registry 0).contains name = true → ¬ Registry.IsBracketed name) ∧
      s'.WellFormed (w.registry 0).contains ∧ s'.Safe 0 w := by
  intro w t e s'
  let target : Signed := .plain (.operation 0 .isTypeOf) t "string => * => boolean" .null true
  have hbase : Registry.HasBase (Registry.world.registry 0) := Registry.hasBase_base
  have hparse : Tree.parse (some (Registry.world.registry 0).contains) "string => * => boolean" =
      .ok ⟨[[.ofName "string"], [.ofName "*"], [.ofName "boolean"]]⟩ := by rfl
  have henforced : Issued 0 w (.enforced target 0) := by
    have henforce : (enforce 0 (.text "string => * => boolean") (.function (.operation 0 .isTypeOf))
        .null w).outcome = .ok (.enforced target 0) := by
      rw [enforce_of_fits hparse (by rfl)]
    exact .enforce henforce
  -- the call returns a tester, which is a function and takes the stage that is left
  have hcall : invoke 3 (.function (.signed (.enforced target 0))) [.text "string"] [] w =
      ⟨.ok (.function (.signed s')), w, []⟩ := by
    have hcheck : checkValues (invoke 2) 0 target [.text "string"] [] w = ⟨.ok (), w, []⟩ := by rfl
    have hresult : invoke 2 (.function (.signed target)) [.text "string"] [] w =
        ⟨.ok (.function (.tester 0 e (.ofName "string"))), w, []⟩ := by rfl
    rw [invoke_enforced 2 rfl, call, Act.bind_of_pure hcheck, Act.bind_of_pure hresult]
    refine (Act.bind_of_pure (Registry.isMember_callable hbase 1 _)).trans ?_
    rfl
  have hissued : Issued 0 w s' := by
    have hok : (invoke 3 (.function (.signed (.enforced target 0))) [.text "string"] [] w).outcome =
        .ok (.function (.signed s')) := by rw [hcall]
    have h := Issued.curried henforced (by decide) .refl hok
    rwa [hcall] at h
  have hnames : ∀ name, (w.registry 0).contains name = true → ¬ Registry.IsBracketed name := by
    intro name hname
    have hmem : name ∈ Registry.base.names := by
      by_contra hmem
      have hnone : (w.registry 0).find? name = none := Registry.find?_eq_none_iff.2 hmem
      simp [Registry.contains, hnone] at hname
    have hall : ∀ name ∈ Registry.base.names, ¬ Registry.IsBracketed name := by decide
    exact hall name hmem
  exact ⟨hissued, .refl, hbase, hnames, issued_wellFormed hissued .refl hbase hnames⟩

end Enforcer

end CallContracts
