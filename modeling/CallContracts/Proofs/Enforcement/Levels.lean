import CallContracts.Enforcement.Apply
import CallContracts.Proofs.World.Outcomes

/-!
Enforced functions at every curry level.

* `signWith_function` and `enforce_text`: what signing a callable makes of it;
* `invoke_plain` and `invoke_enforced`: what a call of a signed function is;
* `cases_of_checkResult` and `exists_of_call`: what a check of a result has found if it succeeds,
  and that a call of a curried contract ends with a function that is enforced with the stages left;
* `Enforcer.Produced`: the enforced functions of a registry, at every curry level;
* `Enforcer.Produced.fits`: the callable behind each of them can take the stage in force.
-/

namespace CallContracts

namespace Enforcer

/-! ### Signing -/

section signing

variable {t : Tree} {raw text : String} {f : Function} {v context signature : Value} {binds : Bool}
  {r : RegistryId} {w : World} {s : Signed}

/-- The callable behind a signed function can take the first stage of its contract. -/
def Fits (s : Signed) : Prop :=
  Signature.checkCount s.tree (Value.function (.signed s)).parameterCount = .ok ()

lemma signWith_function :
    signWith t raw (.function f) context binds w =
      ⟨match Signature.checkCount t
          (Value.function (.signed (.plain f t raw context binds))).parameterCount with
        | .ok () => .ok (.plain f t raw context binds)
        | .error e => .error (.fault (.signature e)), w, []⟩ := by
  simp only [signWith]
  cases hcount : Signature.checkCount t
      (Value.function (.signed (.plain f t raw context binds))).parameterCount with
  | error e => rfl
  | ok _ => rfl

lemma exists_of_signWith (h : (signWith t raw v context binds w).outcome = .ok s) :
    ∃ f, v = .function f ∧ s = .plain f t raw context binds ∧ Fits s := by
  cases v with
  | function f =>
    rw [signWith_function] at h
    split at h
    · next hcount =>
      obtain rfl := Except.ok.inj h
      exact ⟨f, rfl, rfl, hcount⟩
    · simp at h
  | _ => simp [signWith, Act.refuse, Act.throw] at h

/-- A text that reads as a contract, and a callable. -/
lemma enforce_text (h : Tree.parse (some (w.registry r).contains) text = .ok t) :
    enforce r (.text text) (.function f) context w =
      ⟨match Signature.checkCount t
          (Value.function (.signed (.plain f t text context true))).parameterCount with
        | .ok () => .ok (.enforced (.plain f t text context true) r)
        | .error e => .error (.fault (.signature e)), w, [.record (.parsed text t.size)]⟩ := by
  have hread : readContract r (.text text) w = ⟨.ok t, w, [.record (.parsed text t.size)]⟩ := by
    have hregistry : Act.registry r w = ⟨.ok (w.registry r), w, []⟩ := rfl
    rw [readContract, Act.bind_of_pure hregistry, Signature.read_text, h]
  have hsign : sign r (.text text) (.function f) context w =
      ⟨(signWith t text (.function f) context true w).outcome, w,
        [.record (.parsed text t.size)]⟩ := by
    rw [sign, Act.bind_of_ok hread]
    simp [Value.text?, signWith_function]
  cases hcount : Signature.checkCount t
      (Value.function (.signed (.plain f t text context true))).parameterCount with
  | error e =>
    rw [signWith_function, hcount] at hsign
    rw [enforce, Act.bind_of_error hsign]
  | ok _ =>
    rw [signWith_function, hcount] at hsign
    rw [enforce, Act.bind_of_ok hsign]
    rfl

/-- A text that reads as a contract, and a callable that can take its first stage. -/
lemma enforce_of_fits (h : Tree.parse (some (w.registry r).contains) text = .ok t)
    (hfits : Fits (.plain f t text context true)) :
    enforce r (.text text) (.function f) context w =
      ⟨.ok (.enforced (.plain f t text context true) r), w, [.record (.parsed text t.size)]⟩ := by
  have hcount : Signature.checkCount t
      (Value.function (.signed (.plain f t text context true))).parameterCount = .ok () := hfits
  rw [enforce_text h, hcount]

/-- What a signed function was made of. -/
lemma exists_of_sign (h : (sign r signature v context w).outcome = .ok s) :
    ∃ text f t, signature = .text text ∧ v = .function f ∧
      Tree.parse (some (w.registry r).contains) text = .ok t ∧
        s = .plain f t text context true ∧ Fits s := by
  obtain ⟨t, w₂, es₂, hread, hwith, -⟩ := Act.exists_of_bind_ok h
  obtain ⟨f, rfl, rfl, hfits⟩ := exists_of_signWith hwith
  have hread' : (readContract r signature w).outcome = .ok t := by rw [hread]
  obtain ⟨reg, w₃, es₃, hreg, hparse, -⟩ := Act.exists_of_bind_ok hread'
  obtain rfl : w.registry r = reg := by
    have := congrArg Result.outcome hreg
    exact Except.ok.inj this
  obtain rfl : w = w₃ := congrArg Result.world hreg
  rcases htext : signature.text? with _ | text
  · simp [Signature.read, htext, Act.throw] at hparse
  · simp only [Signature.read, htext] at hparse
    obtain ⟨t', w₄, es₄, hor, hrest, -⟩ := Act.exists_of_bind_ok hparse
    have hor' : (Act.orSignatureFault
        (Tree.parse (some (w.registry r).contains) text) w).outcome = .ok t' := by rw [hor]
    have ht' := Act.orSignatureFault_eq_ok hor'
    obtain ⟨_, w₅, es₅, -, hpure, -⟩ := Act.exists_of_bind_ok hrest
    obtain rfl : t' = t := Except.ok.inj hpure
    obtain rfl := Value.eq_text_of_text? htext
    exact ⟨text, f, t', rfl, rfl, ht', rfl, hfits⟩

/-- What an enforced function was made of. -/
lemma exists_of_enforce (h : (enforce r signature v context w).outcome = .ok s) :
    ∃ text f t, signature = .text text ∧ v = .function f ∧
      Tree.parse (some (w.registry r).contains) text = .ok t ∧
        s = .enforced (.plain f t text context true) r ∧
          Fits (.plain f t text context true) := by
  obtain ⟨s₁, w₁, es₁, hsign, hs, -⟩ := Act.exists_of_bind_ok h
  obtain rfl : Signed.enforced s₁ r = s := Except.ok.inj hs
  obtain ⟨text, f, t, rfl, rfl, hparse, rfl, hfits⟩ := exists_of_sign (s := s₁) (by rw [hsign])
  exact ⟨text, f, t, rfl, rfl, hparse, rfl, hfits⟩

end signing

/-! ### Results of calls -/

section results

variable {invoke : Invoke} {r : RegistryId} {target : Signed} {args : List Value}
  {kw : Call.Keywords Value} {result v : Value} {w : World}

/-- What a check of a result that succeeds has found. -/
lemma cases_of_checkResult (h : (checkResult invoke r target result w).outcome = .ok v) :
    (Registry.isMember invoke r (resultType target.tree.remaining) result w).outcome = .ok true ∧
    (¬ 1 < target.tree.remaining.size ∧ v = result ∨
      1 < target.tree.remaining.size ∧ ∃ f, result = .function f ∧
        v = .function (.signed (.enforced (.plain f target.tree.remaining
          target.tree.remaining.text target.context false) r)) ∧
        Fits (.plain f target.tree.remaining target.tree.remaining.text target.context false)) := by
  obtain ⟨member, w₁, es₁, hmember, hrest, -⟩ := Act.exists_of_bind_ok h
  cases member with
  | false =>
    obtain ⟨_, _, _, -, hlog, -⟩ := Act.exists_of_bind_ok hrest
    obtain ⟨_, _, _, -, hthrow, -⟩ := Act.exists_of_bind_ok hlog
    simp [Act.throw] at hthrow
  | true =>
    refine ⟨by rw [hmember], ?_⟩
    rw [if_pos rfl] at hrest
    split_ifs at hrest with hsize
    · obtain ⟨s, w₂, es₂, hsign, hpure, -⟩ := Act.exists_of_bind_ok hrest
      obtain ⟨f, rfl, rfl, hfits⟩ := exists_of_signWith (s := s) (by rw [hsign])
      exact .inr ⟨hsize, f, rfl, (Except.ok.inj hpure).symm, hfits⟩
    · exact .inl ⟨hsize, (Except.ok.inj hrest).symm⟩

lemma exists_of_checkResult (hsize : 2 < target.tree.size)
    (h : (checkResult invoke r target result w).outcome = .ok v) :
    ∃ f, result = .function f ∧
      v = .function (.signed (.enforced (.plain f target.tree.remaining
        target.tree.remaining.text target.context false) r)) ∧
      Fits (.plain f target.tree.remaining target.tree.remaining.text target.context false) := by
  have hremaining : 1 < target.tree.remaining.size := by
    simp only [Tree.size, Tree.remaining, List.length_drop] at hsize ⊢
    omega
  obtain ⟨-, ⟨hlast, -⟩ | ⟨-, hcurried⟩⟩ := cases_of_checkResult h
  · exact absurd hremaining hlast
  · exact hcurried

/-- A call of a curried contract ends with a function enforced with the stages left. -/
lemma exists_of_call (hsize : 2 < target.tree.size)
    (h : (call invoke r target args kw w).outcome = .ok v) :
    ∃ f, v = .function (.signed (.enforced (.plain f target.tree.remaining
        target.tree.remaining.text target.context false) r)) ∧
      Fits (.plain f target.tree.remaining target.tree.remaining.text target.context false) := by
  obtain ⟨_, _, _, -, hrest, -⟩ := Act.exists_of_bind_ok h
  obtain ⟨result, w₁, es₁, -, hcheck, -⟩ := Act.exists_of_bind_ok hrest
  obtain ⟨f, -, hv, hfits⟩ := exists_of_checkResult hsize hcheck
  exact ⟨f, hv, hfits⟩

end results

/-! ### Calls -/

section calls

variable {f : Function} {t : Tree} {raw : String} {b : Bool} {r : RegistryId} {target : Signed}
  {args : List Value} {kw : Call.Keywords Value}

/-- Without a context a signed function hands its calls on as they are. -/
lemma invoke_plain (n : Nat) (hself : Call.hasKeyword receiverName kw = false) :
    invoke (n + 1) (.function (.signed (.plain f t raw .null b))) args kw =
      invoke n (.function f) args kw := by
  rw [invoke_succ]
  simp [Value.apply, Function.apply, Signed.apply, hself, Signed.receives, Value.isNull]

/-- An enforced function checks its calls. -/
lemma invoke_enforced (n : Nat) (hself : Call.hasKeyword receiverName kw = false) :
    invoke (n + 1) (.function (.signed (.enforced target r))) args kw =
      call (invoke n) r target args kw := by
  rw [invoke_succ]
  simp [Value.apply, Function.apply, Signed.apply, hself]

end calls

/-! ### Every level -/

/-- The enforced functions of a registry: a contract was enforced on a callable, or a call of one
with several stages left has returned it. -/
inductive Produced (r : RegistryId) : Signed → Prop
  | enforced {signature v context : Value} {w : World} {s : Signed} :
    (enforce r signature v context w).outcome = .ok s → Produced r s
  | curried {s s' : Signed} {n : Nat} {args : List Value} {kw : Call.Keywords Value} {w : World} :
    Produced r s → 2 < s.tree.size →
      (s.apply (invoke n) args kw w).outcome = .ok (.function (.signed s')) → Produced r s'

/-- A call of an enforced function is checked, unless a keyword takes the reserved name. -/
lemma call_of_apply {invoke : Invoke} {target : Signed} {r : RegistryId} {args : List Value}
    {kw : Call.Keywords Value} {w : World} {v : Value}
    (h : ((Signed.enforced target r).apply invoke args kw w).outcome = .ok v) :
    (call invoke r target args kw w).outcome = .ok v := by
  rw [Signed.apply] at h
  split at h
  · simp [Act.mishap, Act.throw] at h
  · exact h

/-- **At every curry level** the callable can take the stage in force. -/
lemma Produced.fits {r : RegistryId} {s : Signed} (h : Produced r s) :
    ∃ target, s = .enforced target r ∧ Fits target := by
  induction h with
  | enforced h =>
    obtain ⟨text, f, t, -, -, -, hs, hfits⟩ := exists_of_enforce h
    exact ⟨_, hs, hfits⟩
  | curried _ hsize h ih =>
    obtain ⟨target, rfl, -⟩ := ih
    have hsize' : 2 < target.tree.size := hsize
    obtain ⟨f, hv, hfits⟩ := exists_of_call hsize' (call_of_apply h)
    simp only [Value.function.injEq, Function.signed.injEq] at hv
    exact ⟨_, hv, hfits⟩

end Enforcer

end CallContracts
