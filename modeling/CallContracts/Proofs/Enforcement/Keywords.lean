import CallContracts.Proofs.Call.Keywords
import CallContracts.Proofs.Enforcement.Levels
import CallContracts.Proofs.Registry.Base

/-!
Calls of functions that give some of their values by keyword.

* `Function.declared`: all parameters of a callable, those of its receivers included, and
  `Function.suffix_declared`: a caller sees the last of them;
* `Enforcer.positionalValues_spelling`: a check sees the same values in every spelling of a call;
* `invoke_spelling`: a call of any function is the call by position alone;
* `Enforcer.enforce_keywords`: **keywords and positions agree** for enforced functions.
-/

namespace CallContracts

/-! ### Declared parameters -/

/-- The parameters that the callable at the bottom of a function declares, those that its receivers
fill included. -/
def Function.declared (f : Function) : List (Parameter Value) :=
  match f.root with
  | .closure c | .method _ c => c.parameters
  | g => g.parameters?.getD []

lemma Parameter.suffix_of_dropReceiver? {δ : Type} {ps qs : List (Parameter δ)}
    (h : dropReceiver? ps = some qs) : qs <:+ ps := by
  rcases ps with _ | ⟨p, ps⟩
  · simp [dropReceiver?] at h
  · rcases hkind : p.kind <;> simp only [dropReceiver?, hkind, Option.some.injEq, reduceCtorEq] at h
    · exact h ▸ List.suffix_cons p ps
    · exact h ▸ List.suffix_cons p ps
    · exact h ▸ List.suffix_refl _

mutual

/-- A caller sees the last of the parameters that are declared. -/
lemma Function.suffix_declared {ps : List (Parameter Value)} :
    (f : Function) → f.parameters? = some ps → ps <:+ f.declared
  | .signed s, h => s.suffix_declared h
  | .closure c, h => by
    obtain rfl := Option.some.inj h
    exact List.suffix_refl _
  | .method _ c, h => Parameter.suffix_of_dropReceiver? h
  | .kind .., h | .predicate _, h | .tester .., h | .binder .., h | .operation .., h
  | .contract _, h | .decorator .., h => by
    obtain rfl := Option.some.inj h
    exact List.suffix_refl _
  | .intrinsic b, h => by
    have hdeclared : (Function.intrinsic b).declared = ps := by
      simp [Function.declared, Function.root, h]
    rw [hdeclared]

/-- So it is with signed functions. -/
lemma Signed.suffix_declared {ps : List (Parameter Value)} :
    (s : Signed) → s.parameters? = some ps → ps <:+ (Function.signed s).declared
  | .plain callable _ _ context binds, h => by
    rw [Signed.parameters?] at h
    split at h
    · obtain ⟨qs, hqs, hdrop⟩ := Option.bind_eq_some_iff.1 h
      exact (Parameter.suffix_of_dropReceiver? hdrop).trans (callable.suffix_declared hqs)
    · exact callable.suffix_declared h
  | .enforced target _, h => target.suffix_declared h

end

/-! ### Spellings of a call -/

section spelling

variable {ps qs tail : List (Parameter Value)} {us ws : List Value} {kw : Call.Keywords Value}
  {f : Function}

/-- A parameter that a receiver has filled. -/
lemma Call.Spelling.exists_of_dropReceiver? {all : List (Parameter Value)}
    (h : Call.Spelling ps qs us ws kw) (hqs : qs ≠ [])
    (hdrop : Parameter.dropReceiver? all = some (ps ++ (qs ++ tail))) :
    ∃ p, p.isPositional = true ∧ all = p :: ps ++ (qs ++ tail) := by
  rcases all with _ | ⟨p, all⟩
  · simp [Parameter.dropReceiver?] at hdrop
  · rcases hkind : p.kind <;>
      simp only [Parameter.dropReceiver?, hkind, Option.some.injEq, reduceCtorEq] at hdrop
    · exact ⟨p, by simp [Parameter.isPositional, hkind], by simp [hdrop]⟩
    · exact ⟨p, by simp [Parameter.isPositional, hkind], by simp [hdrop]⟩
    · -- the first parameter takes one position, so it does not take them all
      have hp : p.isPositional = true := by
        rcases ps with _ | ⟨q, ps⟩
        · rcases qs with _ | ⟨q, qs⟩
          · exact absurd rfl hqs
          · obtain rfl : p = q := (List.cons.inj hdrop).1
            rw [Parameter.isPositional, h.takes_keywords p List.mem_cons_self]
        · obtain rfl : p = q := (List.cons.inj hdrop).1
          exact h.takes_positions p List.mem_cons_self
      simp [Parameter.isPositional, hkind] at hp

/-- Parameters by position alone take no keywords. -/
lemma Call.Spelling.not_intrinsic {b : Intrinsic} (h : Call.Spelling ps qs us ws kw) (hqs : qs ≠ [])
    (hps : b.parameters? = some (ps ++ (qs ++ tail))) : False := by
  have hall : ∀ p ∈ ps ++ (qs ++ tail), p.kind = .positionalOnly := by
    cases b <;> simp only [Intrinsic.parameters?, Option.some.injEq, reduceCtorEq] at hps
    all_goals
      rw [← hps]
      simp [Parameter.byPosition]
  obtain ⟨q, hq⟩ := List.exists_mem_of_ne_nil qs hqs
  have hkind := hall q (by simp [hq])
  rw [h.takes_keywords q hq] at hkind
  simp at hkind

/-- A check sees the values in the order of the parameters. -/
lemma Enforcer.positionalValues_spelling (h : Call.Spelling ps qs us ws kw) (hqs : qs ≠ [])
    (hnames : ((ps ++ (qs ++ tail)).map Parameter.name).Nodup) :
    positionalValues (some (ps ++ (qs ++ tail))) us kw = pure (us ++ ws) := by
  obtain ⟨slots, hslots, hlayout⟩ := Call.layout_spelling h hnames .absent
  have hkw : kw.isEmpty = false := by
    obtain ⟨q, hq⟩ := List.exists_mem_of_ne_nil qs hqs
    have hname := h.hasKeyword_iff.2 ⟨q, hq, rfl⟩
    cases kw with
    | nil => simp [Call.hasKeyword] at hname
    | cons _ _ => rfl
  simp only [positionalValues, hkw, hslots, Act.orMishap, Act.pure_bind, hlayout]
  rfl

/-- A call gets the same values in every spelling. -/
lemma Call.values_spelling (h : Call.Spelling ps qs us ws kw)
    (hnames : ((ps ++ (qs ++ tail)).map Parameter.name).Nodup) :
    Call.values (ps ++ (qs ++ tail)) us kw = Call.values (ps ++ (qs ++ tail)) (us ++ ws) [] := by
  rw [Call.values, Call.values, Call.bind_spelling h hnames]

/-- **A call of any function is the call by position alone**, in whatever order its keywords stand,
if the function declares each name once and the keywords are the names of parameters that come next
after those filled by position. -/
lemma invoke_spelling (h : Call.Spelling ps qs us ws kw) (hqs : qs ≠ [])
    (hself : ∀ q ∈ qs, q.name ≠ receiverName)
    (hps : f.parameters? = some (ps ++ (qs ++ tail)))
    (hnames : (f.declared.map Parameter.name).Nodup) (n : ℕ) :
    invoke n (.function f) us kw = invoke n (.function f) (us ++ ws) [] := by
  have hreceiver : Call.hasKeyword receiverName kw = false := by
    rw [← Bool.not_eq_true, h.hasKeyword_iff]
    rintro ⟨q, hq, hname⟩
    exact hself q hq hname
  -- each level of depth hands the call on, with one more receiver in front or with none
  induction n generalizing f ps us with
  | zero => rfl
  | succ n ih =>
    have hseen : ((ps ++ (qs ++ tail)).map Parameter.name).Nodup :=
      hnames.sublist ((f.suffix_declared hps).sublist.map _)
    rw [invoke_succ, invoke_succ, Value.apply, Value.apply]
    cases f with
    | closure c =>
      obtain hc : c.parameters = ps ++ (qs ++ tail) := Option.some.inj hps
      simp only [Function.apply, Closure.run, hc, Call.values_spelling h hseen]
    | method receiver c =>
      obtain ⟨p, hp, hc⟩ := h.exists_of_dropReceiver? hqs hps
      have hall : ((p :: ps ++ (qs ++ tail)).map Parameter.name).Nodup := hc ▸ hnames
      have hvalues := Call.values_spelling (h.cons hp receiver) hall
      simp only [Function.apply, Closure.run, hc, hvalues]
      rfl
    | kind serial name parameters =>
      obtain rfl : parameters = ps ++ (qs ++ tail) := Option.some.inj hps
      simp only [Function.apply, Call.values_spelling h hseen]
    | intrinsic b => exact (h.not_intrinsic hqs hps).elim
    | predicate p =>
      obtain hp : p.parameters = ps ++ (qs ++ tail) := Option.some.inj hps
      simp only [Function.apply, hp, Call.values_spelling h hseen]
    | operation r op =>
      obtain hop : op.parameters = ps ++ (qs ++ tail) := Option.some.inj hps
      simp only [Function.apply, hop, Call.values_spelling h hseen]
    | tester r e d =>
      simp only [Function.apply, hps, Option.getD_some, Call.values_spelling h hseen]
    | binder r parent =>
      simp only [Function.apply, hps, Option.getD_some, Call.values_spelling h hseen]
    | contract enforce =>
      simp only [Function.apply, hps, Option.getD_some, Call.values_spelling h hseen]
    | decorator enforce signature context =>
      simp only [Function.apply, hps, Option.getD_some, Call.values_spelling h hseen]
    | signed s =>
      have hnone : Call.hasKeyword receiverName ([] : Call.Keywords Value) = false := rfl
      simp only [Function.apply, Signed.apply, hreceiver, hnone, Bool.false_eq_true, if_false]
      cases s with
      | plain callable t raw context binds =>
        rw [Function.parameters?, Signed.parameters?] at hps
        simp only
        split_ifs at hps ⊢
        · obtain ⟨all, hall, hdrop⟩ := Option.bind_eq_some_iff.1 hps
          obtain ⟨p, hp, rfl⟩ := h.exists_of_dropReceiver? hqs hdrop
          exact ih (h.cons hp context) hall hnames
        · exact ih h hps hnames
      | enforced target r =>
        have hps' : target.parameters? = some (ps ++ (qs ++ tail)) := hps
        have hvalues := Enforcer.positionalValues_spelling h hqs hseen
        have hpositions : Enforcer.positionalValues (some (ps ++ (qs ++ tail))) (us ++ ws) [] =
            pure (us ++ ws) := rfl
        have hcall : invoke n (.function (.signed target)) us kw =
            invoke n (.function (.signed target)) (us ++ ws) [] := ih h hps' hnames
        simp only [Enforcer.call, Enforcer.checkValues, hps', hvalues, hpositions, hcall]

end spelling

/-! ### Enforced functions -/

namespace Enforcer

/-- The parts of a call that gives the first `k` of the values by position. -/
lemma spelling_of_perm {ps : List (Parameter Value)} {vs : List Value}
    {kw : Call.Keywords Value} {m k : ℕ} (hm : m ≤ ps.length) (hvs : vs.length ≤ m)
    (hpositional : ∀ p ∈ ps.take m, p.kind = .positional)
    (hkw : kw.Perm (((ps.map Parameter.name).zip vs).drop k)) (hk : k < vs.length) :
    Call.Spelling (ps.take k) ((ps.take vs.length).drop k) (vs.take k) (vs.drop k) kw where
  takes_positions p hp := by
    have hmem : p ∈ ps.take m := List.take_subset_take_left ps (by omega) hp
    rw [Parameter.isPositional, hpositional p hmem]
  length_positions := by simp; omega
  takes_keywords p hp :=
    hpositional p (List.take_subset_take_left ps hvs (List.mem_of_mem_drop hp))
  length_keywords := by simp; omega
  keywords := by
    have hzip : (ps.map Parameter.name).zip vs =
        ((ps.take vs.length).map Parameter.name).zip vs := by
      rw [List.zip_eq_zip_take_min, List.length_map, Nat.min_eq_right (hvs.trans hm),
        List.take_length, List.map_take]
    rw [hzip, List.zip, List.drop_zipWith, ← List.map_drop] at hkw
    exact hkw

/-- **Keyword and positional spelling of a call agree.** Let a contract be enforced on a callable
that declares each name once, and let the first `m` parameters of the enforced function take
keywords, none of them called `self`. A call that gives at most `m` values, some of the first by
position and the others by keyword in any order, shows the check the same values, binds them to the
same parameters, calls the callable in the same way, and does and returns what the call with all
values by position does. -/
theorem enforce_keywords {r : RegistryId} {signature context : Value} {fn : Function} {s : Signed}
    {w : World} {ps : List (Parameter Value)} {m k : ℕ} {vs : List Value}
    {kw : Call.Keywords Value}
    (h : (enforce r signature (.function fn) context w).outcome = .ok s)
    (hnames : (fn.declared.map Parameter.name).Nodup) (hps : s.parameters? = some ps)
    (hm : m ≤ ps.length)
    (hpositional : ∀ p ∈ ps.take m, p.kind = .positional ∧ p.name ≠ receiverName)
    (hvs : vs.length ≤ m) (hk : k < vs.length)
    (hkw : kw.Perm (((ps.map Parameter.name).zip vs).drop k)) :
    positionalValues s.parameters? (vs.take k) kw = pure vs ∧
      Call.bind ps (vs.take k) kw = Call.bind ps vs [] ∧
      (∀ n, invoke n (.function (.signed s)) (vs.take k) kw =
        invoke n (.function (.signed s)) vs []) ∧
      ∀ n, let received := if Signed.receives context true then [context] else []
        invoke n (.function fn) (received ++ vs.take k) kw =
          invoke n (.function fn) (received ++ vs) [] := by
  obtain ⟨text, f, t, -, hfn, -, rfl, -⟩ := exists_of_enforce h
  obtain rfl : fn = f := Value.function.inj hfn
  have hspelling := spelling_of_perm hm hvs (fun p hp => (hpositional p hp).1) hkw hk
  have hqs : (ps.take vs.length).drop k ≠ [] := by
    rw [← List.length_pos_iff, hspelling.length_keywords]
    simpa using hk
  have hself : ∀ q ∈ (ps.take vs.length).drop k, q.name ≠ receiverName := fun q hq =>
    (hpositional q (List.take_subset_take_left ps hvs (List.mem_of_mem_drop hq))).2
  have hsplit : ps.take k ++ ((ps.take vs.length).drop k ++ ps.drop vs.length) = ps := by
    have htake : ps.take k = (ps.take vs.length).take k := by
      rw [List.take_take, Nat.min_eq_left hk.le]
    rw [htake, ← List.append_assoc, List.take_append_drop, List.take_append_drop]
  rw [← hsplit] at hps
  have hseen : ((ps.take k ++ ((ps.take vs.length).drop k ++ ps.drop vs.length)).map
      Parameter.name).Nodup := hnames.sublist ((Signed.suffix_declared _ hps).sublist.map _)
  refine ⟨?_, ?_, fun n => ?_, fun n => ?_⟩
  · rw [hps, positionalValues_spelling hspelling hqs hseen, List.take_append_drop]
  · have hbind := Call.bind_spelling hspelling hseen
    rwa [hsplit, List.take_append_drop] at hbind
  · have hcall := invoke_spelling (f := .signed (.enforced (.plain fn t text context true) r))
      hspelling hqs hself hps hnames n
    rwa [List.take_append_drop] at hcall
  · rw [Signed.parameters?, Signed.parameters?] at hps
    split_ifs at hps ⊢
    · obtain ⟨all, hall, hdrop⟩ := Option.bind_eq_some_iff.1 hps
      obtain ⟨p, hp, rfl⟩ := hspelling.exists_of_dropReceiver? hqs hdrop
      have hcall := invoke_spelling (hspelling.cons hp context) hqs hself hall hnames n
      rwa [List.cons_append, List.take_append_drop] at hcall
    · have hcall := invoke_spelling hspelling hqs hself hps hnames n
      rwa [List.take_append_drop] at hcall

/-- A call of a function of three values, the last two by keyword and in the other order. -/
theorem enforce_keywords_swapped :
    let fn : Function := .closure ⟨0, .function, "third", [.plain "a", .plain "b", .plain "c"],
      .variable "c", []⟩
    let s : Signed := .enforced (.plain fn ⟨[[.ofName "number", .ofName "string",
      .ofName "boolean"], [.ofName "boolean"]]⟩ "number, string, boolean => boolean" .null true) 0
    let vs : List Value := [.int 1, .text "x", .bool true]
    let kw : Call.Keywords Value := [("c", .bool true), ("b", .text "x")]
    (enforce 0 (.text "number, string, boolean => boolean") (.function fn) .null
        Registry.world).outcome = .ok s ∧
      (fn.declared.map Parameter.name).Nodup ∧
      s.parameters? = some [.plain "a", .plain "b", .plain "c"] ∧
      kw.Perm ((["a", "b", "c"].zip vs).drop 1) ∧
      invoke 5 (.function (.signed s)) [.int 1] kw = invoke 5 (.function (.signed s)) vs [] := by
  intro fn s vs kw
  have hparse : Tree.parse (some (Registry.world.registry 0).contains)
      "number, string, boolean => boolean" = .ok ⟨[[.ofName "number", .ofName "string",
        .ofName "boolean"], [.ofName "boolean"]]⟩ := by rfl
  have henforce : (enforce 0 (.text "number, string, boolean => boolean") (.function fn) .null
      Registry.world).outcome = .ok s := by
    rw [enforce_text hparse]
    rfl
  have hnames : (fn.declared.map Parameter.name).Nodup := by
    show ["a", "b", "c"].Nodup
    decide
  have hpositional : ∀ p ∈ ([.plain "a", .plain "b", .plain "c"] : List (Parameter Value)).take 3,
      p.kind = .positional ∧ p.name ≠ receiverName := by
    simp [Parameter.plain, receiverName]
  have hkw : kw.Perm ((["a", "b", "c"].zip vs).drop 1) := List.Perm.swap _ _ _
  exact ⟨henforce, hnames, rfl, hkw,
    (enforce_keywords (k := 1) henforce hnames rfl (m := 3) (by simp) hpositional (by simp [vs])
      (by simp [vs]) hkw).2.2.1 5⟩

end Enforcer

end CallContracts
