import CallContracts.Proofs.Enforcement.Levels
import CallContracts.Proofs.Enforcement.Moves
import CallContracts.Proofs.Registry.Membership
import CallContracts.Proofs.World.Matching

/-!
The currying law of enforced functions.

* `Signed.Alike`: two signed functions with one tree, one callable and the same calls;
* `Enforcer.Reached`: the enforced functions without a context at every curry level, in every later
  world, each with the text that its contract has there;
* `Enforcer.expected`: what a call of one is to do, said with `Enforcer.enforce` on the text behind
  the first arrow;
* `Enforcer.call_matches_expected`: at every level that is what a call does, and the type of a
  result resolves unless its name stands in brackets.
-/

namespace CallContracts

/-! ### Functions that differ in the text of their contract -/

/-- Signed functions with one tree, one callable and one context, whose calls are the same. -/
structure Signed.Alike (s s' : Signed) : Prop where
  tree : s.tree = s'.tree
  callable : s.callable = s'.callable
  context : s.context = s'.context
  parameters : s.parameters? = s'.parameters?
  isEnforced : s.isEnforced = s'.isEnforced
  calls : ∀ (n : Nat) (args : List Value) (kw : Call.Keywords Value),
    invoke n (.function (.signed s)) args kw = invoke n (.function (.signed s')) args kw

/-- The same value, or signed functions that are alike. -/
def Value.Alike (v v' : Value) : Prop :=
  v = v' ∨ ∃ s s', v = .function (.signed s) ∧ v' = .function (.signed s') ∧ s.Alike s'

namespace Enforcer

variable {r : RegistryId} {f : Function} {t : Tree} {raw raw' : String} {b b' : Bool}

lemma invoke_plain_congr (n : Nat) (args : List Value) (kw : Call.Keywords Value) :
    invoke n (.function (.signed (.plain f t raw .null b))) args kw =
      invoke n (.function (.signed (.plain f t raw' .null b'))) args kw := by
  cases n with
  | zero => rfl
  | succ n =>
    rw [invoke_succ, invoke_succ]
    simp [Value.apply, Function.apply, Signed.apply, Signed.receives, Value.isNull]

/-- Neither the text of a contract nor whether it binds a missing context shows in an enforced
function. -/
lemma alike_enforced :
    (Signed.enforced (.plain f t raw .null b) r).Alike
      (.enforced (.plain f t raw' .null b') r) where
  tree := rfl
  callable := rfl
  context := rfl
  parameters := by simp [Signed.parameters?, Signed.receives, Value.isNull]
  isEnforced := rfl
  calls := by
    intro n args kw
    cases n with
    | zero => rfl
    | succ n =>
      have hparameters : (Signed.plain f t raw .null b).parameters? =
          (Signed.plain f t raw' .null b').parameters? := by
        simp [Signed.parameters?, Signed.receives, Value.isNull]
      rw [invoke_succ, invoke_succ]
      simp only [Value.apply, Function.apply, Signed.apply, call, checkValues, hparameters,
        @invoke_plain_congr f t raw raw' b b' n]
      rfl

/-! ### Every level -/

/-- The enforced functions without a context in a world, with the text of the contract that is in
force: one that a text was enforced on, one from an earlier world, and one that a call returns with
the text behind the first arrow. -/
inductive Reached (r : RegistryId) : World → String → Signed → Prop
  | enforced {w : World} {text : String} {v : Value} {s : Signed} :
    (enforce r (.text text) v .null w).outcome = .ok s → Reached r w text s
  | later {w w' : World} {text : String} {s : Signed} :
    Reached r w text s → w.Extends w' → Reached r w' text s
  | curried {w : World} {text : String} {s s' : Signed} {n : Nat} {args : List Value}
    {kw : Call.Keywords Value} : Reached r w text s → 2 < s.tree.size →
      (invoke n (.function (.signed s)) args kw w).outcome = .ok (.function (.signed s')) →
        Reached r (invoke n (.function (.signed s)) args kw w).world
          (Signature.restText text) s'

/-- **At every level** the text in force reads as the tree of the function. -/
lemma Reached.exists_plain {w : World} {text : String} {s : Signed} (h : Reached r w text s) :
    ∃ f t raw b, s = .enforced (.plain f t raw .null b) r ∧
      Tree.parse (some (w.registry r).contains) text = .ok t := by
  induction h with
  | enforced h =>
    obtain ⟨text', f, t, htext, -, hparse, hs, -⟩ := exists_of_enforce h
    obtain rfl : _ = text' := by simpa using htext
    exact ⟨f, t, _, true, hs, hparse⟩
  | later _ hw ih =>
    obtain ⟨f, t, raw, b, hs, hparse⟩ := ih
    exact ⟨f, t, raw, b, hs, Tree.parse_mono (fun _ => hw.contains) hparse⟩
  | @curried w text s s' n args kw _ hsize h ih =>
    obtain ⟨f, t, raw, b, rfl, hparse⟩ := ih
    have hw := invoke_extends n (.function (.signed (.enforced (.plain f t raw .null b) r))) args
      kw w
    cases n with
    | zero => simp [invoke_zero, Act.exhausted] at h
    | succ n =>
      have hsize' : 2 < (Signed.plain f t raw .null b).tree.size := hsize
      obtain ⟨f', hs', -⟩ := exists_of_call hsize' (call_of_apply h)
      simp only [Value.function.injEq, Function.signed.injEq] at hs'
      exact ⟨f', t.remaining, _, false, hs',
        Tree.parse_mono (fun _ => hw.contains) (Tree.parse_rest hparse hsize)⟩

/-! ### The law -/

/-- Lays out the values of a call and checks them against the stage in force. -/
def verifyCall (invoke : Invoke) (r : RegistryId) (t : Tree)
    (ps? : Option (List (Parameter Value))) (args : List Value) (kw : Call.Keywords Value) :
    Act Unit := do
  let values ← positionalValues ps? args kw
  let _ ← verifyAgainst invoke r t values

/-- The written form of the return type. -/
def returnText (t : Tree) : String :=
  ((t.stages.getLast?.bind List.head?).map Descriptor.typeText).getD ""

/-- What is to become of a result. A callable result of a curried contract is enforced with the
text behind the first arrow; any other result is to be of the return type. -/
def expectedResult (invoke : Invoke) (r : RegistryId) (text : String) (t : Tree)
    (result : Value) : Act Value := do
  if 2 < t.size then
    if result.isCallable then
      return .function (.signed (← enforce r (.text (Signature.restText text)) result .null))
    else Act.throw (.returnType callableName result)
  else if ← Registry.isMember invoke r (returnText t) result then return result
  else Act.throw (.returnType (returnText t) result)

/-- What a call is to do: check its values, call the callable once with what it was given, and check
the result. -/
def expected (n : Nat) (r : RegistryId) (text : String) (t : Tree)
    (ps? : Option (List (Parameter Value))) (f : Function) (args : List Value)
    (kw : Call.Keywords Value) : Act Value := do
  verifyCall (invoke (n + 1)) r t ps? args kw
  let result ← invoke n (.function f) args kw
  expectedResult (invoke (n + 1)) r text t result

/-! ### The steps of a call -/

/-- A rejection is noted in the log before it passes on. -/
lemma checkValues_matches (invoke : Invoke) (s : Signed) (args : List Value)
    (kw : Call.Keywords Value) (w : World) :
    (checkValues invoke r s args kw w).Matches (fun _ _ => True)
      (verifyCall invoke r s.tree s.parameters? args kw w) := by
  refine Result.matches_bind (ρ := Eq) (Result.Matches.refl (fun _ => rfl) _) ?_
  rintro values _ - rfl
  refine Result.rethrow_matches ?_ ?_ _
  · exact fun _ _ => ⟨trivial, rfl, rfl⟩
  · intro e w
    cases hrejection : e.isRejection with
    | false =>
      simp only [hrejection]
      exact ⟨rfl, rfl, rfl⟩
    | true =>
      simp only [hrejection, if_true]
      exact ⟨rfl, rfl, rfl⟩

/-- A result is refused after a record in the log. -/
lemma refuse_matches {ρ : Value → Value → Prop} (record : Heap → Record) (f : Fault) (w : World) :
    ((do
      Act.log (record (← Act.heap))
      Act.throw f : Act Value) w).Matches ρ ((Act.throw f : Act Value) w) :=
  ⟨rfl, rfl, rfl⟩

lemma resultType_eq_returnText (hsize : t.size = 2) :
    resultType t.remaining = returnText t := by
  obtain ⟨s, s', hs⟩ := List.length_eq_two.1 hsize
  simp [resultType, returnText, Tree.remaining, Tree.size, hs]

/-- Signing with a contract that is read already, and enforcing the text that it was read from. -/
lemma signWith_matches {w : World} {text : String} {g : Function}
    (hparse : Tree.parse (some (w.registry r).contains) text = .ok t) :
    (signWith t raw (.function g) .null b w).Matches (fun s s' => (s.enforced r).Alike s')
      (enforce r (.text text) (.function g) .null w) := by
  have hcount : (Value.function (.signed (.plain g t raw .null b))).parameterCount =
      (Value.function (.signed (.plain g t text .null true))).parameterCount := by
    simp [Value.parameterCount, Value.parameters?, Function.parameters?, Signed.parameters?,
      Signed.receives, Value.isNull]
  rw [signWith_function, enforce_text hparse, hcount]
  cases Signature.checkCount t
      (Value.function (.signed (.plain g t text .null true))).parameterCount with
  | error e => exact ⟨rfl, rfl, rfl⟩
  | ok _ => exact ⟨alike_enforced, rfl, rfl⟩

/-- The result of a curried contract. -/
lemma checkResult_matches_of_curried {w : World} {text : String} (n : Nat) (result : Value)
    (hparse : Tree.parse (some (w.registry r).contains) text = .ok t)
    (hbase : Registry.HasBase (w.registry r)) (hsize : 2 < t.size) :
    (checkResult (invoke (n + 1)) r (.plain f t raw .null b) result w).Matches Value.Alike
      (expectedResult (invoke (n + 1)) r text t result w) := by
  have hremaining : 1 < t.remaining.size := by
    simp only [Tree.size, Tree.remaining, List.length_drop] at hsize ⊢
    omega
  have htype : resultType t.remaining = callableName := if_pos hremaining
  simp only [checkResult, expectedResult, Signed.tree, htype, hremaining, hsize, if_true]
  rw [Act.bind_of_pure (Registry.isMember_callable hbase n result)]
  cases result with
  | function g =>
    simp only [Value.isCallable]
    refine Result.matches_bind (signWith_matches (Tree.parse_rest hparse hsize)) ?_
    exact fun s s' _ hs => ⟨.inr ⟨_, _, rfl, rfl, hs⟩, rfl, rfl⟩
  | _ => exact refuse_matches _ _ _

/-- The result of the last call. -/
lemma checkResult_matches_of_last {w : World} {text : String} (invoke : Invoke) (result : Value)
    (hsize : t.size = 2) :
    (checkResult invoke r (.plain f t raw .null b) result w).Matches Value.Alike
      (expectedResult invoke r text t result w) := by
  have hremaining : ¬ 1 < t.remaining.size := by
    simp only [Tree.size, Tree.remaining, List.length_drop] at hsize ⊢
    omega
  have htype := resultType_eq_returnText hsize
  simp only [checkResult, expectedResult, Signed.tree, htype, hremaining, hsize, if_false,
    lt_irrefl]
  refine Result.matches_bind (ρ := Eq) (Result.Matches.refl (fun _ => rfl) _) ?_
  rintro member _ - rfl
  cases member with
  | false => exact refuse_matches _ _ _
  | true => exact Result.Matches.refl (fun _ => .inl rfl) _

/-- A call of an enforced function without a context. -/
lemma call_matches {w : World} {text : String} (n : Nat) (args : List Value)
    {kw : Call.Keywords Value} (hself : Call.hasKeyword receiverName kw = false)
    (hparse : Tree.parse (some (w.registry r).contains) text = .ok t)
    (hbase : Registry.HasBase (w.registry r)) :
    (call (invoke (n + 1)) r (.plain f t raw .null b) args kw w).Matches Value.Alike
      (expected n r text t (Signed.plain f t raw .null b).parameters? f args kw w) := by
  rw [call, expected]
  refine Result.matches_bind (checkValues_matches _ _ _ _ _) fun _ _ _ _ => ?_
  rw [invoke_plain n hself]
  refine Result.matches_bind (ρ := Eq) (Result.Matches.refl (fun _ => rfl) _) ?_
  rintro result _ - rfl
  -- the world has grown since the text was read
  have hw : w.Extends (invoke n (.function f) args kw (checkValues (invoke (n + 1)) r
      (.plain f t raw .null b) args kw w).world).world :=
    World.Extends.trans (moves_checkValues (moves_invoke _) _ _ _ _ _) (invoke_extends _ _ _ _ _)
  have hparse' := Tree.parse_mono (fun _ => hw.contains) hparse
  by_cases hsize : 2 < t.size
  · exact checkResult_matches_of_curried n result hparse' (hbase.extends hw) hsize
  · have hle : 2 ≤ t.size := (Tree.sound_of_parseForm (Tree.parse_eq_ok_iff.1 hparse).1).1.size
    exact checkResult_matches_of_last _ result (by omega)

/-- The return type of a contract that was read. -/
lemma exists_return {known : String → Bool} {text : String}
    (h : Tree.parse (some known) text = .ok t) :
    ∃ d : Descriptor, t.stages.getLast? = some [d] ∧ returnText t = d.typeText ∧ d.Sound ∧
      known d.name = true := by
  obtain ⟨hform, hcheck⟩ := Tree.parse_eq_ok_iff.1 h
  obtain ⟨htree, hsound⟩ := Tree.sound_of_parseForm hform
  obtain ⟨d, hd⟩ := htree.returns
  have hmem : [d] ∈ t.stages := List.mem_of_getLast? hd
  obtain ⟨-, hknown⟩ := Tree.checkNames_eq_ok_iff.1 (hcheck known rfl)
  exact ⟨d, hd, by simp [returnText, hd], hsound _ hmem _ (List.mem_singleton_self d),
    hknown d (List.mem_flatten.2 ⟨_, hmem, List.mem_singleton_self d⟩)⟩

/-- **The currying law.** At every level, with the base types registered, a call of an enforced
function without a context does what it is to do, up to records in the log: check the values, call
the callable once, and check the result, which a curried contract enforces with the text behind the
first arrow. In whatever world the result is checked, the test of the return type fails for the
type itself exactly if its name stands in brackets and what is read without them is not
registered. -/
theorem call_matches_expected {w : World} {text : String} {s : Signed} (hs : Reached r w text s)
    (hbase : Registry.HasBase (w.registry r)) (n : Nat) (args : List Value)
    (kw : Call.Keywords Value) (hself : Call.hasKeyword receiverName kw = false) :
    ∃ t d, Tree.parse (some (w.registry r).contains) text = .ok t ∧ s.tree = t ∧
      t.stages.getLast? = some [d] ∧ returnText t = d.typeText ∧
      (invoke (n + 2) (.function (.signed s)) args kw w).Matches Value.Alike
        (expected n r text t s.parameters? s.callable args kw w) ∧
      ∀ w', w.Extends w' → ∀ (test : Invoke) (v : Value),
        (∃ e, (Registry.isMember test r (returnText t) v w').outcome = .error (.fault e)) ↔
          d.LooksBracketed ∧ ∀ d', Descriptor.parse (returnText t) = .ok d' →
            (w'.registry r).contains d'.name = false := by
  obtain ⟨f, t, raw, b, rfl, hparse⟩ := hs.exists_plain
  obtain ⟨d, hd, htext, hsound, hname⟩ := exists_return hparse
  refine ⟨t, d, hparse, rfl, hd, htext, ?_, fun w' hw test v => ?_⟩
  · have hcall : invoke (n + 2) (.function (.signed (.enforced (.plain f t raw .null b) r))) args
        kw = call (invoke (n + 1)) r (.plain f t raw .null b) args kw := by
      rw [invoke_succ]
      simp [Value.apply, Function.apply, Signed.apply, hself]
    rw [hcall]
    exact call_matches n args hself hparse hbase
  · rw [htext]
    exact Registry.isMember_typeText_faults_iff hsound (hw.contains hname)

/-- A curried contract on an operation that returns a function. -/
theorem call_matches_expected_binder :
    let text := "string => string, function => undefined"
    let t : Tree := ⟨[[.ofName "string"], [.ofName "string", .ofName "function"],
      [.ofName "undefined"]]⟩
    let s : Signed := .enforced (.plain (.operation 0 .subtype) t text .null true) 0
    Reached 0 Registry.world text s ∧ Registry.HasBase (Registry.world.registry 0) ∧
      Call.hasKeyword receiverName ([] : Call.Keywords Value) = false ∧
      (invoke 3 (.function (.signed s)) [.text "number"] [] Registry.world).Matches Value.Alike
        (expected 1 0 text t s.parameters? s.callable [.text "number"] [] Registry.world) := by
  intro text t s
  have hparse : Tree.parse (some (Registry.world.registry 0).contains)
      "string => string, function => undefined" =
        .ok ⟨[[.ofName "string"], [.ofName "string", .ofName "function"],
          [.ofName "undefined"]]⟩ := by rfl
  have hreached : Reached 0 Registry.world text s := by
    have henforce : (enforce 0 (.text "string => string, function => undefined")
        (.function (.operation 0 .subtype)) .null Registry.world).outcome = .ok s := by
      rw [enforce_text hparse]
      rfl
    exact .enforced henforce
  have hbase : Registry.HasBase (Registry.world.registry 0) := Registry.hasBase_base
  obtain ⟨t', d, hparse', htree, -, -, hmatches, -⟩ :=
    call_matches_expected hreached hbase 1 [.text "number"] [] rfl
  obtain rfl : t = t' := htree
  exact ⟨hreached, hbase, rfl, hmatches⟩

end Enforcer

/-! ### A name in brackets -/

/-- The base types and a type of all values whose name stands in brackets. -/
def Registry.withBracketed : Registry :=
  ⟨Registry.base.entries ++ [Registry.baseEntry ("[x]", .anything, "* -> [x]")], by decide⟩

/-- A world with that registry alone. -/
def World.withBracketed : World := ⟨[Registry.withBracketed], [], [], 0, .standard⟩

namespace Enforcer

/-- A return type whose name stands in brackets is looked up without them, so that a result of that
type is not returned and no result is refused as one of another type. -/
theorem not_forall_result_checked :
    ¬ ∀ (r : RegistryId) (w : World) (text : String) (s : Signed) (n : Nat) (args : List Value)
      (kw : Call.Keywords Value) (t : Tree), Reached r w text s → Registry.HasBase (w.registry r) →
        Call.hasKeyword receiverName kw = false →
        Tree.parse (some (w.registry r).contains) text = .ok t → t.size = 2 →
        ∀ w₁ w₂ es₁ es₂ result,
          verifyCall (invoke (n + 1)) r t s.parameters? args kw w = ⟨.ok (), w₁, es₁⟩ →
          invoke n (.function s.callable) args kw w₁ = ⟨.ok result, w₂, es₂⟩ →
          (Registry.isMember (invoke (n + 1)) r (returnText t) result w₂).outcome ≠
            .error .exhausted →
          (invoke (n + 2) (.function (.signed s)) args kw w).outcome = .ok result ∨
            (invoke (n + 2) (.function (.signed s)) args kw w).outcome =
              .error (.fault (.returnType (returnText t) result)) := by
  intro hall
  let t : Tree := ⟨[[.ofName "*"], [⟨"[x]", .plain, true⟩]]⟩
  let s : Signed := .enforced (.plain (.intrinsic .callable) t "* => [[x]]" .null true) 0
  have hparse : Tree.parse (some (World.withBracketed.registry 0).contains) "* => [[x]]" =
      .ok ⟨[[.ofName "*"], [⟨"[x]", .plain, true⟩]]⟩ := by rfl
  have hreached : Reached 0 World.withBracketed "* => [[x]]" s := by
    have henforce : (enforce 0 (.text "* => [[x]]") (.function (.intrinsic .callable)) .null
        World.withBracketed).outcome = .ok s := by
      rw [enforce_text hparse]
      rfl
    exact .enforced henforce
  have hextends : Registry.world.Extends World.withBracketed := by
    intro r
    rcases r with _ | r
    · exact List.prefix_append _ _
    · exact List.prefix_refl _
  have hbase : Registry.HasBase (World.withBracketed.registry 0) :=
    Registry.HasBase.extends (w := Registry.world) Registry.hasBase_base hextends
  have hverify : verifyCall (invoke 3) 0 t s.parameters? [.int 1] [] World.withBracketed =
      ⟨.ok (), World.withBracketed, []⟩ := by rfl
  have hcallable : invoke 2 (.function s.callable) [.int 1] [] World.withBracketed =
      ⟨.ok (.bool false), World.withBracketed, []⟩ := by rfl
  have hmember : Registry.isMember (invoke 3) 0 "[x]" (.bool false) World.withBracketed =
      ⟨.error (.fault (.unknownType (.text "x"))), World.withBracketed, []⟩ := by
    have hresolve : Registry.resolve 0 (.text "[x]") World.withBracketed =
        ⟨.error (.fault (.unknownType (.text "x"))), World.withBracketed, []⟩ := by rfl
    exact Act.bind_of_error hresolve
  have hcall : invoke 4 (.function (.signed s)) [.int 1] [] World.withBracketed =
      ⟨.error (.fault (.unknownType (.text "x"))), World.withBracketed, []⟩ := by
    have hcheck : checkValues (invoke 3) 0 (.plain (.intrinsic .callable) t "* => [[x]]" .null true)
        [.int 1] [] World.withBracketed = ⟨.ok (), World.withBracketed, []⟩ := by rfl
    have hresult : invoke 3 (.function (.signed (.plain (.intrinsic .callable) t "* => [[x]]" .null
        true))) [.int 1] [] World.withBracketed = ⟨.ok (.bool false), World.withBracketed, []⟩ := by
      rfl
    exact (Act.bind_of_pure hcheck).trans ((Act.bind_of_pure hresult).trans
      (Act.bind_of_error hmember))
  have h := hall 0 _ _ s 2 [.int 1] [] t hreached hbase rfl hparse rfl _ _ _ _ _ hverify hcallable
    (by rw [show returnText t = "[x]" from rfl, hmember]; simp)
  rw [hcall] at h
  simp at h

end Enforcer

end CallContracts
