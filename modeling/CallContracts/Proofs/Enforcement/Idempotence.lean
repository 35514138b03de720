import CallContracts.Proofs.Enforcement.Levels
import CallContracts.Proofs.Enforcement.Quiet
import CallContracts.Proofs.Enforcement.Settling

/-!
Enforcing a contract twice.

* `Enforcer.callAlong`: calls of a function, of what it returns, and so on;
* `Enforcer.Throughout`: what holds in every world in which a callable is about to be called or has
  returned;
* `Enforcer.AdmitsEnforced`: the type of all callables accepts the enforced form of each callable
  that it accepts;
* `Enforcer.enforce_twice`: **enforcement is idempotent** if the predicates have no side effects
  and this is so;
* `Enforcer.not_forall_enforce_twice`: which not every registry sees to.
-/

namespace CallContracts

open Act

namespace Enforcer

/-! ### Calls along the curry levels -/

/-- The positional and the keyword arguments of a call. -/
abbrev Arguments := List Value × Call.Keywords Value

/-- Calls a value, then what it returns, and so on. -/
def callAlong (invoke : Invoke) : Value → List Arguments → Act Value
  | v, [] => pure v
  | v, (args, kw) :: calls => do
    let u ← invoke v args kw
    callAlong invoke u calls

lemma settles_callAlong_nil {v : Value} {w : World} :
    Settles (fun n => callAlong (invoke n) v []) w ⟨.ok v, w, []⟩ :=
  .of_const (by simp) fun _ => rfl

/-- A property of worlds holds whenever a value is about to be called, and whenever a call has
returned. -/
def Throughout (P : World → Prop) : Value → List Arguments → World → Prop
  | _, [], _ => True
  | v, (args, kw) :: calls, w => P w ∧ ∀ u w' es,
    Settles (fun n => invoke n v args kw) w ⟨.ok u, w', es⟩ → P w' ∧ Throughout P u calls w'

/-- The enforced form of a callable. -/
abbrev enforcedForm (r : RegistryId) (f : Function) (t : Tree) (raw : String) (binds : Bool) :
    Function :=
  .signed (.enforced (.plain f t raw .null binds) r)

/-- What callables return themselves, what their enforced forms return, and what those enforced
twice return: three times the same value, or a callable with its enforced forms. -/
inductive Wrapped (r : RegistryId) : Value → Value → Value → Prop
  | same (v : Value) : Wrapped r v v v
  | enforced (f : Function) (t : Tree) (raw raw' : String) (binds binds' : Bool) :
    Wrapped r (.function f) (.function (enforcedForm r f t raw binds))
      (.function (enforcedForm r (enforcedForm r f t raw binds) t raw' binds'))

/-- A run along the curry levels has called the callables behind its first levels, each of them
once and with the arguments of its level, and nothing else that leaves a mark: these calls alone
leave the same world and show the same views. All levels are called if the run returns, and a fault
of a callable is that of the run. -/
def CallsOnce (f : Value) (calls : List Arguments) (w : World) (res : Result Value) : Prop :=
  ∃ k bare, Settles (fun n => callAlong (invoke n) f (calls.take k)) w bare ∧
    res.world = bare.world ∧
    res.events.filterMap Event.traced? = bare.events.filterMap Event.traced? ∧
    (∀ stop, bare.outcome = .error stop → res.outcome = .error stop) ∧
    ∀ v, res.outcome = .ok v → calls.length ≤ k

/-- Two values are called along with the same outcome: if one run ends, so does the other, with the
same fault or with values that are the same up to one more enforcement, in the same world and with
the same views, and both have called each callable once. -/
def SameAlong (r : RegistryId) (f once twice : Value) (calls : List Arguments) (w : World) : Prop :=
  (∀ res, Settles (fun n => callAlong (invoke n) once calls) w res →
    ∃ res', Settles (fun n => callAlong (invoke n) twice calls) w res' ∧
      res'.Matches (fun v' v => ∃ u, Wrapped r u v v') res ∧ CallsOnce f calls w res) ∧
  ∀ res', Settles (fun n => callAlong (invoke n) twice calls) w res' →
    ∃ res, Settles (fun n => callAlong (invoke n) once calls) w res

/-- The type of all callables accepts the enforced form of every callable that it accepts. -/
def AdmitsEnforced (r : RegistryId) (w : World) : Prop :=
  ∀ f t raw binds n,
    (Registry.isMember (invoke n) r callableName (.function f) w).outcome = .ok true →
      ∃ m, (Registry.isMember (invoke m) r callableName (.function (enforcedForm r f t raw binds))
        w).outcome = .ok true

/-- The built-in type of all callables does. -/
lemma admitsEnforced_of_hasBase {r : RegistryId} {w : World}
    (h : Registry.HasBase (w.registry r)) : AdmitsEnforced r w := by
  intro f t raw binds n _
  refine ⟨1, ?_⟩
  rw [Registry.isMember_callable h]
  rfl

/-! ### Settled checks -/

section checks

variable {r : RegistryId} {target : Signed} {args : List Value} {kw : Call.Keywords Value}
  {w w' : World} {v : Value} {outcome : Except Stop Value} {es : List Event}

lemma rising_checkValues (r : RegistryId) (target : Signed) (args : List Value)
    (kw : Call.Keywords Value) : Rising fun n => checkValues (invoke (n + 1)) r target args kw :=
  fun _ _ h => congr_checkValues (S := Approximates) (invoke_approximates (Nat.succ_le_succ h)) _ _
    _ _

lemma rising_checkResult (r : RegistryId) (target : Signed) (result : Value) :
    Rising fun n => checkResult (invoke (n + 1)) r target result :=
  fun _ _ h => congr_checkResult (S := Approximates) (invoke_approximates (Nat.succ_le_succ h)) _ _
    _

/-- A quiet computation that settles leaves the world as it is and shows nothing. -/
lemma world_eq_of_settles {α : Type} {x : ℕ → Act α} {res : Result α} (h : Settles x w res)
    (hquiet : ∀ n, (x n).Quiet w) :
    res.world = w ∧ res.events.filterMap Event.traced? = [] := by
  obtain ⟨n, rfl⟩ := h.exists_eq
  exact hquiet n h.1

/-- A quiet computation that ends at some depth. -/
lemma exists_settles_of_outcome {α : Type} {x : ℕ → Act α} {outcome : Except Stop α} {n : ℕ}
    (hx : Rising x) (h : (x n w).outcome = outcome) (hne : outcome ≠ .error .exhausted)
    (hquiet : ∀ n, (x n).Quiet w) :
    ∃ es, es.filterMap Event.traced? = [] ∧ Settles x w ⟨outcome, w, es⟩ := by
  have hsettles : Settles x w (x n w) := hx.settles (h ▸ hne)
  obtain ⟨hworld, htraces⟩ := world_eq_of_settles hsettles hquiet
  rcases hxn : x n w with ⟨outcome', w', es⟩
  rw [hxn] at h hworld htraces hsettles
  obtain rfl : outcome' = outcome := h
  obtain rfl : w' = w := hworld
  exact ⟨es, htraces, hsettles⟩

end checks

/-! ### One level -/

section level

variable {r : RegistryId} {f : Function} {t : Tree} {raw raw' : String} {binds binds' : Bool}
  {args : List Value} {kw : Call.Keywords Value} {w w' : World} {u v : Value} {es : List Event}

lemma checkValues_enforcedForm (invoke : Invoke) :
    checkValues invoke r (.plain (enforcedForm r f t raw binds) t raw' .null binds') args kw =
      checkValues invoke r (.plain f t raw .null binds) args kw := by
  have hparameters : (Signed.plain (enforcedForm r f t raw binds) t raw' .null binds').parameters? =
      (Signed.plain f t raw .null binds).parameters? := by
    simp [Signed.parameters?, Function.parameters?, Signed.receives, Value.isNull]
  rw [checkValues, checkValues, hparameters]
  rfl

lemma checkResult_enforcedForm (invoke : Invoke) :
    checkResult invoke r (.plain (enforcedForm r f t raw binds) t raw' .null binds') =
      checkResult invoke r (.plain f t raw .null binds) := rfl

/-- A call of an enforced form. -/
lemma invoke_enforcedForm (n : ℕ) (hself : Call.hasKeyword receiverName kw = false) :
    invoke (n + 2) (.function (enforcedForm r f t raw binds)) args kw = (do
      checkValues (invoke (n + 1)) r (.plain f t raw .null binds) args kw
      let result ← invoke n (.function f) args kw
      checkResult (invoke (n + 1)) r (.plain f t raw .null binds) result) := by
  rw [invoke_enforced (n + 1) hself, call]
  simp only [invoke_plain n hself]

/-- A callable that the stages left fit is enforced with them if it is of the type of all
callables. -/
lemma checkResult_of_callable {test : Invoke} {target : Signed} {g : Function}
    (hsize : 1 < target.tree.remaining.size)
    (hmember : (Registry.isMember test r callableName (.function g) w).outcome = .ok true)
    (hfits : Fits (.plain g target.tree.remaining target.tree.remaining.text target.context
      false)) :
    (checkResult test r target (.function g) w).outcome =
      .ok (.function (.signed (.enforced (.plain g target.tree.remaining
        target.tree.remaining.text target.context false) r))) := by
  have htype : resultType target.tree.remaining = callableName := if_pos hsize
  rcases hx : Registry.isMember test r callableName (.function g) w with ⟨outcome, w', es⟩
  obtain rfl : outcome = .ok true := by rwa [hx] at hmember
  have hsign : signWith target.tree.remaining target.tree.remaining.text (.function g)
      target.context false w' = ⟨.ok (.plain g target.tree.remaining target.tree.remaining.text
        target.context false), w', []⟩ := by
    have hcount : Signature.checkCount target.tree.remaining (Value.function (.signed (.plain g
        target.tree.remaining target.tree.remaining.text target.context false))).parameterCount =
          .ok () := hfits
    rw [signWith_function, hcount]
  simp only [checkResult, htype, Act.bind_of_ok hx, if_true, hsize, Act.bind_of_pure hsign]
  rfl

/-- A result that is not of its type is refused. -/
lemma checkResult_of_not_member {test : Invoke} {target : Signed}
    (h : (Registry.isMember test r (resultType target.tree.remaining) u w).outcome = .ok false) :
    (checkResult test r target u w).outcome =
      .error (.fault (.returnType (resultType target.tree.remaining) u)) := by
  rcases hx : Registry.isMember test r (resultType target.tree.remaining) u w with ⟨outcome, w', es⟩
  obtain rfl : outcome = .ok false := by rwa [hx] at h
  simp only [checkResult, Act.bind_of_ok hx]
  rfl

/-- A result that passes its check passes it once more in its enforced form. -/
lemma settles_checkResult_again (hquiet : Registry.SideEffectFree r w)
    (hadmits : AdmitsEnforced r w)
    (h : Settles (fun n => checkResult (invoke (n + 1)) r (.plain f t raw .null binds) u) w
      ⟨.ok v, w', es⟩) :
    ∃ v' es', Wrapped r u v v' ∧ es'.filterMap Event.traced? = [] ∧
      Settles (fun n => checkResult (invoke (n + 1)) r (.plain f t raw .null binds) v) w
        ⟨.ok v', w, es'⟩ := by
  obtain ⟨n, hn⟩ := h.exists_eq
  obtain ⟨hmember, ⟨hsize, rfl⟩ | ⟨hsize, g, rfl, rfl, hfits⟩⟩ := cases_of_checkResult (by rw [hn])
  · -- the result of a last call is checked against the same type
    obtain ⟨rfl, htraces⟩ : w' = w ∧ es.filterMap Event.traced? = [] :=
      world_eq_of_settles h fun n => quiet_checkResult (hquiet.at _) v
    exact ⟨v, es, .same v, htraces, h⟩
  · -- the result of a curried contract is a callable, and so is its enforced form
    have htype : resultType t.remaining = callableName := if_pos hsize
    rw [Signed.tree, htype] at hmember
    let level : Value := .function (enforcedForm r g t.remaining t.remaining.text false)
    obtain ⟨m, hm⟩ : ∃ m, (Registry.isMember (invoke m) r callableName level w).outcome =
        .ok true := hadmits g t.remaining t.remaining.text false (n + 1) hmember
    have hmember' : (Registry.isMember (invoke (m + 1)) r callableName level w).outcome =
        .ok true := by
      have hdeeper := Registry.rising_isMember r callableName level m (m + 1) (Nat.le_succ m) w
      have hsame := hdeeper.resolve_left (by simp [hm])
      exact (congrArg Result.outcome hsame).symm.trans hm
    obtain ⟨es', htraces, hsettles⟩ := exists_settles_of_outcome
      (rising_checkResult r (.plain f t raw .null binds) _)
      (checkResult_of_callable hsize hmember' hfits) (by simp)
      fun n => quiet_checkResult (hquiet.at _) _
    exact ⟨_, es', .enforced g _ _ _ _ _, htraces, hsettles⟩

/-- The steps of a checked call: values, callable, result. -/
def checkedCall (r : RegistryId) (target : Signed) (g : Function) (args : List Value)
    (kw : Call.Keywords Value) (n : ℕ) : Act Value := do
  checkValues (invoke (n + 1)) r target args kw
  let result ← invoke n (.function g) args kw
  checkResult (invoke (n + 1)) r target result

lemma settles_enforcedForm_iff (hself : Call.hasKeyword receiverName kw = false)
    {res : Result Value} :
    Settles (fun n => invoke n (.function (enforcedForm r f t raw binds)) args kw) w res ↔
      Settles (checkedCall r (.plain f t raw .null binds) f args kw) w res := by
  have hcall : (fun n => invoke (n + 2) (.function (enforcedForm r f t raw binds)) args kw) =
      checkedCall r (.plain f t raw .null binds) f args kw :=
    funext fun n => invoke_enforcedForm n hself
  rw [← hcall]
  exact ⟨fun h => h.shift 2, Settles.of_shift
    (x := fun n => invoke n (.function (enforcedForm r f t raw binds)) args kw)⟩

/-- A callable enforced twice is checked against the same contract. -/
lemma checkedCall_enforcedForm (g : Function) :
    checkedCall r (.plain (enforcedForm r f t raw binds) t raw' .null binds') g args kw =
      checkedCall r (.plain f t raw .null binds) g args kw := by
  funext n
  simp only [checkedCall, checkValues_enforcedForm, checkResult_enforcedForm]

/-- The ways in which a checked call ends, if its checks have no side effects. -/
inductive CallEnds (r : RegistryId) (target : Signed) (g : Function) (args : List Value)
    (kw : Call.Keywords Value) (w : World) : Result Value → Prop
  /-- The values are refused. -/
  | refused {stop : Stop} {es : List Event} :
    Settles (fun n => checkValues (invoke (n + 1)) r target args kw) w ⟨.error stop, w, es⟩ →
      es.filterMap Event.traced? = [] → CallEnds r target g args kw w ⟨.error stop, w, es⟩
  /-- The callable fails. -/
  | failed {stop : Stop} {w' : World} {es es₁ : List Event} :
    Settles (fun n => checkValues (invoke (n + 1)) r target args kw) w ⟨.ok (), w, es⟩ →
      es.filterMap Event.traced? = [] →
      Settles (fun n => invoke n (.function g) args kw) w ⟨.error stop, w', es₁⟩ →
        CallEnds r target g args kw w ⟨.error stop, w', es ++ es₁⟩
  /-- The result is checked. -/
  | checked {result : Value} {outcome : Except Stop Value} {w' : World} {es es₁ es₂ : List Event} :
    Settles (fun n => checkValues (invoke (n + 1)) r target args kw) w ⟨.ok (), w, es⟩ →
      es.filterMap Event.traced? = [] →
      Settles (fun n => invoke n (.function g) args kw) w ⟨.ok result, w', es₁⟩ →
      Settles (fun n => checkResult (invoke (n + 1)) r target result) w' ⟨outcome, w', es₂⟩ →
      es₂.filterMap Event.traced? = [] →
        CallEnds r target g args kw w ⟨outcome, w', es ++ (es₁ ++ es₂)⟩

lemma CallEnds.settles {target : Signed} {g : Function} {res : Result Value}
    (h : CallEnds r target g args kw w res) : Settles (checkedCall r target g args kw) w res := by
  let rest (n : ℕ) (_ : Unit) : Act Value :=
    invoke n (.function g) args kw >>= checkResult (invoke (n + 1)) r target
  cases h with
  | refused hvalues _ => exact hvalues.bind_error
  | failed hvalues _ hcall => exact hvalues.bind (f := rest) hcall.bind_error
  | checked hvalues _ hcall hresult _ => exact hvalues.bind (f := rest) (hcall.bind hresult)

lemma callEnds_of_settles {target : Signed} {g : Function} {res : Result Value}
    (hquiet : Registry.SideEffectFree r w)
    (hafter : ∀ u w' es, Settles (fun n => invoke n (.function g) args kw) w ⟨.ok u, w', es⟩ →
      Registry.SideEffectFree r w')
    (h : Settles (checkedCall r target g args kw) w res) : CallEnds r target g args kw w res := by
  rcases settles_bind_cases (rising_checkValues _ _ _ _) h with
    ⟨stop, w₁, es, hvalues, rfl⟩ | ⟨⟨⟩, w₁, es, res, hvalues, hrest, rfl⟩
  · obtain ⟨hworld, htraces⟩ := world_eq_of_settles hvalues fun n => quiet_checkValues (hquiet.at _)
    obtain rfl : w₁ = w := hworld
    exact .refused hvalues htraces
  obtain ⟨hworld, htraces⟩ := world_eq_of_settles hvalues fun n => quiet_checkValues (hquiet.at _)
  obtain rfl : w₁ = w := hworld
  rcases settles_bind_cases (rising_invoke _ _ _) hrest with
    ⟨stop, w', es₁, hcall, rfl⟩ | ⟨result, w', es₁, res, hcall, hresult, rfl⟩
  · exact .failed hvalues htraces hcall
  · have hquiet' := hafter result w' es₁ hcall
    obtain ⟨hworld, htraces'⟩ :=
      world_eq_of_settles hresult fun n => quiet_checkResult (hquiet'.at _) _
    rcases res with ⟨outcome, w₂, es₂⟩
    obtain rfl : w₂ = w' := hworld
    exact .checked hvalues htraces hcall hresult htraces'

/-- How a call of an enforced form ends, next to the same call of the form enforced twice: with the
same fault, no more than this level being called, or with values that wrap what the callable has
returned. -/
inductive Level (r : RegistryId) (f : Function) (args : List Value) (kw : Call.Keywords Value)
    (w : World) : Result Value → Result Value → Prop
  | fault {stop : Stop} {w' : World} {es es' : List Event} :
    (∀ calls, CallsOnce (.function f) ((args, kw) :: calls) w ⟨.error stop, w', es⟩) →
      es'.filterMap Event.traced? = es.filterMap Event.traced? →
        Level r f args kw w ⟨.error stop, w', es⟩ ⟨.error stop, w', es'⟩
  | value {u v v' : Value} {w' : World} {es es' es₁ : List Event} :
    Settles (fun n => invoke n (.function f) args kw) w ⟨.ok u, w', es₁⟩ → Wrapped r u v v' →
      es.filterMap Event.traced? = es₁.filterMap Event.traced? →
      es'.filterMap Event.traced? = es.filterMap Event.traced? →
        Level r f args kw w ⟨.ok v, w', es⟩ ⟨.ok v', w', es'⟩

/-- **One level**: where a call of an enforced form ends, so does that of the form enforced twice.
The outer checks repeat what the inner ones have found. -/
lemma exists_level {res : Result Value} (hself : Call.hasKeyword receiverName kw = false)
    (hafter : ∀ u w' es, Settles (fun n => invoke n (.function f) args kw) w ⟨.ok u, w', es⟩ →
      Registry.SideEffectFree r w' ∧ AdmitsEnforced r w')
    (h : CallEnds r (.plain f t raw .null binds) f args kw w res) :
    ∃ res', CallEnds r (.plain f t raw .null binds) (enforcedForm r f t raw binds) args kw w res' ∧
      Level r f args kw w res res' := by
  have hinner : Settles (fun n => invoke n (.function (enforcedForm r f t raw binds)) args kw) w
      res := (settles_enforcedForm_iff hself).2 h.settles
  cases h with
  | refused hvalues htraces =>
    refine ⟨_, .refused hvalues htraces, .fault (fun calls => ?_) rfl⟩
    exact ⟨0, _, settles_callAlong_nil, rfl, htraces, by simp, by simp⟩
  | @failed stop w' es es₁ hvalues htraces hcall =>
    refine ⟨_, .failed hvalues htraces hinner, .fault (fun calls => ?_) (by simp [htraces])⟩
    exact ⟨1, _, hcall.bind_error, rfl, by simp [htraces], by simp, by simp⟩
  | @checked result outcome w' es es₁ es₂ hvalues htraces hcall hresult htraces' =>
    rcases outcome with stop | v
    · refine ⟨_, .failed hvalues htraces hinner, .fault (fun calls => ?_) (by simp [htraces])⟩
      have hbare := hcall.bind (f := fun n u => callAlong (invoke n) u []) settles_callAlong_nil
      exact ⟨1, _, hbare, rfl, by simp [htraces, htraces'], by simp, by simp⟩
    · obtain ⟨hquiet, hadmits⟩ := hafter result w' es₁ hcall
      obtain ⟨v', es₃, hwrapped, htraces₃, hagain⟩ :=
        settles_checkResult_again hquiet hadmits hresult
      exact ⟨_, .checked hvalues htraces hinner hagain htraces₃,
        .value hcall hwrapped (by simp [htraces, htraces']) (by simp [htraces, htraces₃])⟩

/-- Where a call of an enforced form ends, so does that of the form enforced twice. -/
lemma exists_twice {res : Result Value} (hself : Call.hasKeyword receiverName kw = false)
    (hquiet : Registry.SideEffectFree r w)
    (hafter : ∀ u w' es, Settles (fun n => invoke n (.function f) args kw) w ⟨.ok u, w', es⟩ →
      Registry.SideEffectFree r w' ∧ AdmitsEnforced r w')
    (h : Settles (fun n => invoke n (.function (enforcedForm r f t raw binds)) args kw) w res) :
    ∃ res', Settles (fun n => invoke n (.function (enforcedForm r (enforcedForm r f t raw binds) t
      raw' binds')) args kw) w res' ∧ Level r f args kw w res res' := by
  have hends := callEnds_of_settles hquiet (fun u w' es hu => (hafter u w' es hu).1)
    ((settles_enforcedForm_iff hself).1 h)
  obtain ⟨res', hends', hlevel⟩ := exists_level hself hafter hends
  refine ⟨res', (settles_enforcedForm_iff hself).2 ?_, hlevel⟩
  rw [checkedCall_enforcedForm]
  exact hends'.settles

/-- Where a call of a form enforced twice ends, so does that of the form itself, which is a part of
it. -/
lemma exists_once {res : Result Value} (hself : Call.hasKeyword receiverName kw = false)
    (hquiet : Registry.SideEffectFree r w)
    (hafter : ∀ u w' es, Settles (fun n => invoke n (.function f) args kw) w ⟨.ok u, w', es⟩ →
      Registry.SideEffectFree r w' ∧ AdmitsEnforced r w')
    (h : Settles (fun n => invoke n (.function (enforcedForm r (enforcedForm r f t raw binds) t raw'
      binds')) args kw) w res) :
    ∃ res₁, Settles (fun n => invoke n (.function (enforcedForm r f t raw binds)) args kw) w res₁ ∧
      Level r f args kw w res₁ res := by
  have hpart : ∃ res₁, Settles (fun n => invoke n (.function (enforcedForm r f t raw binds)) args
      kw) w res₁ := by
    have hchecked := (settles_enforcedForm_iff hself).1 h
    rw [checkedCall_enforcedForm] at hchecked
    rcases settles_bind_cases (rising_checkValues _ _ _ _) hchecked with
      ⟨stop, w₁, es, hvalues, -⟩ | ⟨⟨⟩, w₁, es, res, hvalues, hrest, -⟩
    · exact ⟨_, (settles_enforcedForm_iff hself).2 hvalues.bind_error⟩
    · obtain ⟨hworld, -⟩ := world_eq_of_settles hvalues fun n => quiet_checkValues (hquiet.at _)
      obtain rfl : w₁ = w := hworld
      rcases settles_bind_cases (rising_invoke _ _ _) hrest with
        ⟨_, _, _, hcall, -⟩ | ⟨_, _, _, _, hcall, -, -⟩
      · exact ⟨_, hcall⟩
      · exact ⟨_, hcall⟩
  obtain ⟨res₁, hres₁⟩ := hpart
  obtain ⟨res₂, hres₂, hlevel⟩ := exists_twice hself hquiet hafter hres₁
  exact ⟨res₁, hres₁, h.unique hres₂ ▸ hlevel⟩

end level

/-! ### Every level -/

section run

variable {r : RegistryId} {f : Value} {once twice u v : Value} {calls : List Arguments}
  {args : List Value} {kw : Call.Keywords Value} {w w' : World} {es es' es₁ : List Event}

/-- A value is called along as itself. -/
lemma sameAlong_refl (r : RegistryId) (v : Value) (calls : List Arguments) (w : World) :
    SameAlong r v v v calls w := by
  refine ⟨fun res h => ⟨res, h, Result.Matches.refl (fun v => ⟨v, .same v⟩) res, ?_⟩,
    fun res h => ⟨res, h⟩⟩
  exact ⟨calls.length, res, by rwa [List.take_length], rfl, rfl, fun _ => id, fun _ _ => le_rfl⟩

/-- The first call of a run has called the first callable. -/
lemma CallsOnce.cons {res : Result Value}
    (hcall : Settles (fun n => invoke n f args kw) w ⟨.ok u, w', es₁⟩)
    (hes : es.filterMap Event.traced? = es₁.filterMap Event.traced?)
    (h : CallsOnce u calls w' res) :
    CallsOnce f ((args, kw) :: calls) w ⟨res.outcome, res.world, es ++ res.events⟩ := by
  obtain ⟨k, bare, hbare, hworld, htraces, hfault, hall⟩ := h
  have hrun := hcall.bind (f := fun n u => callAlong (invoke n) u (calls.take k)) hbare
  exact ⟨k + 1, _, hrun, hworld, by simp [hes, htraces], hfault, fun v hv => by
    simpa using hall v hv⟩

/-- **Every level**: a callable enforced twice is called along as it is enforced once. -/
lemma sameAlong_of_wrapped (hwrapped : Wrapped r f once twice)
    (hself : ∀ call ∈ calls, Call.hasKeyword receiverName call.2 = false)
    (h : Throughout (fun w => Registry.SideEffectFree r w ∧ AdmitsEnforced r w) f calls w) :
    SameAlong r f once twice calls w := by
  -- by induction on the calls: each of them is one level, and what it returns is wrapped again
  induction calls generalizing f once twice w with
  | nil =>
    refine ⟨fun res hres => ?_, fun _ _ => ⟨_, settles_callAlong_nil⟩⟩
    obtain rfl := hres.unique settles_callAlong_nil
    exact ⟨_, settles_callAlong_nil, ⟨⟨f, hwrapped⟩, rfl, rfl⟩,
      ⟨0, _, settles_callAlong_nil, rfl, rfl, by simp, by simp⟩⟩
  | cons call calls ih =>
    obtain ⟨args, kw⟩ := call
    rw [List.forall_mem_cons] at hself
    obtain ⟨hself, hselves⟩ := hself
    obtain ⟨⟨hquiet, -⟩, hthen⟩ := h
    cases hwrapped with
    | same => exact sameAlong_refl r f _ w
    | enforced f t raw raw' binds binds' =>
      have hafter u w' es (hu : Settles (fun n => invoke n (.function f) args kw) w
          ⟨.ok u, w', es⟩) := (hthen u w' es hu).1
      constructor
      · intro res hres
        rcases settles_bind_cases (rising_invoke _ _ _) hres with
          ⟨stop, w', es, hcall, rfl⟩ | ⟨v, w', es, res, hcall, hrest, rfl⟩
        · obtain ⟨res', hcall', hlevel⟩ := exists_twice hself hquiet hafter hcall
          cases hlevel with
          | fault honce htraces =>
            exact ⟨_, hcall'.bind_error, ⟨rfl, rfl, htraces⟩, honce calls⟩
        · obtain ⟨res', hcall', hlevel⟩ := exists_twice hself hquiet hafter hcall
          cases hlevel with
          | value hbare hwrapped htraces htraces' =>
            obtain ⟨hforward, -⟩ := ih hwrapped hselves (hthen _ _ _ hbare).2
            obtain ⟨res', hrest', hmatches, honce⟩ := hforward res hrest
            exact ⟨_, hcall'.bind (f := fun n u => callAlong (invoke n) u calls) hrest',
              ⟨hmatches.outcome, hmatches.world, by simp [htraces', hmatches.traces]⟩,
              honce.cons hbare htraces⟩
      · intro res' hres'
        rcases settles_bind_cases (rising_invoke _ _ _) hres' with
          ⟨stop, w', es, hcall, rfl⟩ | ⟨v, w', es, res, hcall, hrest, rfl⟩
        · obtain ⟨res₁, hcall₁, hlevel⟩ := exists_once hself hquiet hafter hcall
          cases hlevel with
          | fault _ _ => exact ⟨_, hcall₁.bind_error⟩
        · obtain ⟨res₁, hcall₁, hlevel⟩ := exists_once hself hquiet hafter hcall
          cases hlevel with
          | value hbare hwrapped _ _ =>
            obtain ⟨-, hbackward⟩ := ih hwrapped hselves (hthen _ _ _ hbare).2
            obtain ⟨res₂, hrest₂⟩ := hbackward res hrest
            exact ⟨_, hcall₁.bind (f := fun n u => callAlong (invoke n) u calls) hrest₂⟩

end run

/-- **Enforcement is idempotent.** A contract that was enforced on a callable without a context is
enforced on the enforced callable in every later world. Where the predicates of the registry have no
side effects and its type of all callables accepts the enforced forms of those that it accepts, as
long as the calls go on, the callable enforced twice is then called along the curry levels with the
same outcome as the one enforced once, and each callable is called once. -/
theorem enforce_twice {r : RegistryId} {signature : Value} {f : Function} {s : Signed}
    {w₀ w₁ : World} (h : (enforce r signature (.function f) .null w₀).outcome = .ok s)
    (hw : w₀.Extends w₁) :
    ∃ s', (enforce r signature (.function (.signed s)) .null w₁).outcome = .ok s' ∧
      ∀ (calls : List Arguments) (w : World),
        (∀ call ∈ calls, Call.hasKeyword receiverName call.2 = false) →
        Throughout (fun w => Registry.SideEffectFree r w ∧ AdmitsEnforced r w) (.function f) calls
          w →
        SameAlong r (.function f) (.function (.signed s)) (.function (.signed s')) calls w := by
  obtain ⟨text, g, t, rfl, hfg, hparse, rfl, hfits⟩ := exists_of_enforce h
  obtain rfl : f = g := Value.function.inj hfg
  have hfits' : Fits (.plain (enforcedForm r f t text true) t text .null true) := hfits
  have hagain := enforce_of_fits (Tree.parse_mono (fun _ => hw.contains) hparse) hfits'
  refine ⟨_, by rw [hagain], fun calls w hself hthroughout => ?_⟩
  exact sameAlong_of_wrapped (.enforced f t text text true true) hself hthroughout

/-- The membership test of a registry enforced twice: asked for a type, and the answer asked about a
value. -/
theorem enforce_twice_isTypeOf :
    let f : Function := .operation 0 .isTypeOf
    let t : Tree := ⟨[[.ofName "*"], [.ofName "*"], [.ofName "boolean"]]⟩
    let s : Signed := .enforced (.plain f t "* => * => boolean" .null true) 0
    let calls : List Arguments := [([.text "number"], []), ([.int 5], [])]
    (enforce 0 (.text "* => * => boolean") (.function f) .null Registry.world).outcome = .ok s ∧
      Registry.world.Extends Registry.world ∧
      (∀ call ∈ calls, Call.hasKeyword receiverName call.2 = false) ∧
      Throughout (fun w => Registry.SideEffectFree 0 w ∧ AdmitsEnforced 0 w) (.function f) calls
        Registry.world ∧
      ∃ s', (enforce 0 (.text "* => * => boolean") (.function (.signed s)) .null
          Registry.world).outcome = .ok s' ∧
        SameAlong 0 (.function f) (.function (.signed s)) (.function (.signed s')) calls
          Registry.world := by
  intro f t s calls
  have hparse : Tree.parse (some (Registry.world.registry 0).contains) "* => * => boolean" =
      .ok ⟨[[.ofName "*"], [.ofName "*"], [.ofName "boolean"]]⟩ := by rfl
  have henforce : (enforce 0 (.text "* => * => boolean") (.function f) .null
      Registry.world).outcome = .ok s := by
    rw [enforce_text hparse]
    rfl
  have hself : ∀ call ∈ calls, Call.hasKeyword receiverName call.2 = false := by
    simp [calls, Call.hasKeyword]
  have hworld : Registry.SideEffectFree 0 Registry.world ∧ AdmitsEnforced 0 Registry.world :=
    ⟨Registry.sideEffectFree_of_base rfl, admitsEnforced_of_hasBase Registry.hasBase_base⟩
  -- the first call returns a tester, the second one an answer, and neither changes the world
  let e := Registry.baseEntry ("number", .isNumber, "* -> number")
  let tester : Value := .function (.tester 0 e (.ofName "number"))
  have htester : invoke 1 (.function f) [.text "number"] [] Registry.world =
      ⟨.ok tester, Registry.world, []⟩ := by rfl
  have hanswer : invoke 3 tester [.int 5] [] Registry.world =
      ⟨.ok (.bool true), Registry.world, []⟩ := by rfl
  have hthroughout : Throughout (fun w => Registry.SideEffectFree 0 w ∧ AdmitsEnforced 0 w)
      (.function f) calls Registry.world := by
    refine ⟨hworld, fun u w' es h => ?_⟩
    obtain ⟨rfl, rfl, -⟩ : u = tester ∧ w' = Registry.world ∧ es = [] := by
      simpa using h.unique ((rising_invoke _ _ _).settles_of_ok htester)
    refine ⟨hworld, hworld, fun u w' es h => ?_⟩
    obtain ⟨-, rfl, -⟩ : u = .bool true ∧ w' = Registry.world ∧ es = [] := by
      simpa using h.unique ((rising_invoke _ _ _).settles_of_ok hanswer)
    exact ⟨hworld, trivial⟩
  obtain ⟨s', hagain, hsame⟩ := enforce_twice henforce (.refl _)
  exact ⟨henforce, .refl _, hself, hthroughout, s', hagain, hsame calls _ hself hthroughout⟩

end Enforcer

/-! ### A type of plain functions -/

/-- A registry whose type of all callables accepts only those without a contract in front. -/
def Registry.plainFunctions : Registry :=
  ⟨[Registry.baseEntry ("*", .anything, "*"),
    ⟨Enforcer.callableName, .function (.closure ⟨0, .function, "is_function", [.plain "v"],
      .binary .eq (.typeName (.variable "v")) (.literal (.scalar (.text "function"))), []⟩),
      "function", 1⟩], by decide⟩

/-- A world with that registry alone. -/
def World.plainFunctions : World := ⟨[Registry.plainFunctions], [], [], 1, .standard⟩

lemma Registry.sideEffectFree_plainFunctions :
    Registry.SideEffectFree 0 World.plainFunctions := by
  intro d e he n v
  have hmem : e ∈ Registry.plainFunctions.entries := List.mem_of_find?_eq_some he
  rcases n with _ | n
  · exact fun hne => absurd rfl hne
  simp only [Registry.plainFunctions, List.mem_cons, List.not_mem_nil, or_false] at hmem
  obtain rfl | rfl := hmem
  · exact quiet_of_eq (.ok (.bool true)) [] rfl rfl
  · let answer := (Value.text v.typeName).eq [] (.text "function")
    exact quiet_of_eq (.ok (.bool answer)) [] rfl rfl

namespace Enforcer

/-- A type of all callables that accepts plain ones alone refuses what the inner contract has
enforced, so that the outer one fails with the type of the result, even if all of this happens in
one and the same world. -/
theorem not_forall_enforce_twice :
    ¬ ∀ (r : RegistryId) (signature : Value) (f : Function) (s : Signed) (w : World),
      (enforce r signature (.function f) .null w).outcome = .ok s →
        ∃ s', (enforce r signature (.function (.signed s)) .null w).outcome = .ok s' ∧
          ∀ calls : List Arguments,
            (∀ call ∈ calls, Call.hasKeyword receiverName call.2 = false) →
            Throughout (Registry.SideEffectFree r) (.function f) calls w →
            SameAlong r (.function f) (.function (.signed s)) (.function (.signed s')) calls w := by
  intro hall
  let f : Function := .operation 0 .isTypeOf
  let t : Tree := ⟨[[.ofName "*"], [.ofName "*"], [.ofName "*"]]⟩
  let target : Signed := .plain f t "* => * => *" .null true
  let once : Function := enforcedForm 0 f t "* => * => *" true
  let w := World.plainFunctions
  let args : List Value := [.text "*"]
  let tester : Function := .tester 0 (Registry.baseEntry ("*", .anything, "*")) (.ofName "*")
  let level : Value := .function (enforcedForm 0 tester t.remaining t.remaining.text false)
  have hquiet : Registry.SideEffectFree 0 w := Registry.sideEffectFree_plainFunctions
  have hparse : Tree.parse (some (w.registry 0).contains) "* => * => *" =
      .ok ⟨[[.ofName "*"], [.ofName "*"], [.ofName "*"]]⟩ := by rfl
  have henforce : (enforce 0 (.text "* => * => *") (.function f) .null w).outcome =
      .ok (.enforced target 0) := by
    rw [enforce_of_fits hparse (by rfl)]
  have hagain : (enforce 0 (.text "* => * => *") (.function once) .null w).outcome =
      .ok (.enforced (.plain once t "* => * => *" .null true) 0) := by
    rw [enforce_of_fits hparse (by rfl)]
  -- the callable that the first call returns is of the type, its enforced form is not
  have hplain : (Registry.isMember (invoke 3) 0 callableName (.function tester) w).outcome =
      .ok true := by rfl
  have henforced : (Registry.isMember (invoke 3) 0 callableName level w).outcome = .ok false := by
    rfl
  have hvalues : checkValues (invoke 2) 0 target args [] w = ⟨.ok (), w, []⟩ := by rfl
  have hcall : invoke 2 (.function f) args [] w = ⟨.ok (.function tester), w, []⟩ := by rfl
  replace hvalues := (rising_checkValues 0 target args []).settles_of_ok (n := 1) hvalues
  replace hcall := (rising_invoke _ _ _).settles_of_ok hcall
  obtain ⟨es, htraces, hpassed⟩ := exists_settles_of_outcome (n := 2)
    (rising_checkResult 0 target _) (checkResult_of_callable (by decide) hplain (by rfl)) (by simp)
    fun n => quiet_checkResult (hquiet.at _) _
  obtain ⟨es', htraces', hrefused⟩ := exists_settles_of_outcome (n := 2)
    (rising_checkResult 0 target _) (checkResult_of_not_member henforced) (by simp)
    fun n => quiet_checkResult (hquiet.at _) _
  have honce : Settles (fun n => invoke n (.function once) args []) w ⟨.ok level, w, es⟩ :=
    (settles_enforcedForm_iff rfl).2 (CallEnds.checked hvalues rfl hcall hpassed htraces).settles
  have htwice : Settles (fun n => invoke n (.function (enforcedForm 0 once t "* => * => *" true))
      args []) w ⟨.error (.fault (.returnType callableName level)), w, es ++ es'⟩ := by
    refine (settles_enforcedForm_iff rfl).2 ?_
    rw [checkedCall_enforcedForm]
    exact (CallEnds.checked hvalues rfl honce hrefused htraces').settles
  obtain ⟨s', hs', hsame⟩ := hall 0 _ f _ w henforce
  obtain rfl := Except.ok.inj (hagain.symm.trans hs')
  obtain ⟨hforward, -⟩ := hsame [(args, [])] (by simp [Call.hasKeyword]) <| by
    refine ⟨hquiet, fun u w' es h => ?_⟩
    obtain ⟨-, rfl, -⟩ : u = .function tester ∧ w' = w ∧ es = [] := by simpa using h.unique hcall
    exact ⟨hquiet, trivial⟩
  obtain ⟨res', hres', hmatches, -⟩ := hforward _
    (honce.bind (f := fun n u => callAlong (invoke n) u []) settles_callAlong_nil)
  obtain rfl := hres'.unique (htwice.bind_error (f := fun n u => callAlong (invoke n) u []))
  exact hmatches.outcome

end Enforcer

end CallContracts
