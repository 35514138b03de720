import CallContracts.Proofs.Call.Values
import CallContracts.Proofs.Enforcement.Moves
import CallContracts.Proofs.Registry.Base

/-!
What registering a type does.

There are three ways to register a type: as a base type, as a refinement and as another name for a
type expression. They check different things in different orders, but each ends in one of two ways.

* `Registry.Registers`: the functions that register types with a registry;
* `Registry.Adds`: the entry that each of them adds;
* `Registry.registers_cases`: **registering is atomic**: it ends with a fault or for lack of depth
  and leaves the world as it is, or it adds that entry at the end of its registry and nothing else;
  `Registry.Registers.exists_adds`, what a call that returns has added.
-/

namespace CallContracts.Registry

variable {r : RegistryId} {w : World}

/-! ### One entry -/

/-- The entry of a new type below an ancestry. -/
def newEntry (parent name : String) (predicate : Value) : Entry :=
  ⟨name, predicate, chainBelow parent name, predicate.predicateArity⟩

/-- A registration leaves the world as it is, or adds one entry. -/
lemma registerBelow_cases (r : RegistryId) (parent : String) (name predicate : Value) (w : World) :
    (∃ f, registerBelow r parent name predicate w = ⟨.error (.fault f), w, []⟩) ∨
    ∃ s reg, name = .text s ∧ Text.isBlankText s = false ∧ predicate.isCallable = true ∧
      (w.registry r).insert? (newEntry parent s predicate) = some reg ∧
      registerBelow r parent name predicate w =
        ⟨.ok (), w.setRegistry r reg, [.record (.registered s (chainBelow parent s))]⟩ := by
  rcases htext : name.text? with _ | s
  · exact .inl ⟨.refusal .blankName, by
      simp [registerBelow, register, htext, Act.refuse, Act.throw]⟩
  obtain rfl := Value.eq_text_of_text? htext
  cases hblank : Text.isBlankText s with
  | true =>
    exact .inl ⟨.refusal .blankName, by
      simp [registerBelow, register, htext, hblank, Act.refuse, Act.throw]⟩
  | false =>
    cases hcallable : predicate.isCallable with
    | false =>
      exact .inl ⟨.refusal (.predicateNotCallable s), by
        simp [registerBelow, register, htext, hblank, hcallable, Act.refuse, Act.throw]⟩
    | true =>
      rcases hreg : (w.registry r).insert? (newEntry parent s predicate) with _ | reg
      · rw [newEntry] at hreg
        exact .inl ⟨.duplicateType s, by
          simp [registerBelow, register, htext, hblank, hcallable, hreg, Act.throw, Act.world,
            Bind.bind, Act.bind]⟩
      · exact .inr ⟨s, reg, rfl, hblank, rfl, hreg, register_fresh hblank hcallable hreg⟩

/-- A base type is registered under a fresh name. -/
lemma exists_extend {r : RegistryId} {w : World} {name : String} {predicate : Value}
    (hname : Text.isBlankText name = false) (hcallable : predicate.isCallable = true)
    (hfree : (w.registry r).find? name = none) :
    ∃ reg, (w.registry r).insert? (newEntry topName name predicate) = some reg ∧
      (extend r (.text name) predicate).Returns w () (w.setRegistry r reg) := by
  obtain ⟨reg, hreg⟩ : ∃ reg, (w.registry r).insert? (newEntry topName name predicate) =
      some reg := by
    rw [← Option.isSome_iff_exists, insert?_isSome]
    simp [contains, newEntry, hfree]
  exact ⟨reg, hreg, Act.returns_of_eq (register_fresh hname hcallable hreg)⟩

/-! ### Three ways -/

/-- The functions that register types with a registry. -/
inductive Registers (r : RegistryId) : Function → Prop
  | base : Registers r (.operation r .extend)
  | synonym : Registers r (.operation r .alias)
  | refinement (parent : String) : Registers r (.binder r parent)

/-- The entry that each of them adds in a world, when its call gives a name and a second value. -/
inductive Adds (r : RegistryId) (w : World) : Function → String → Value → Entry → Prop
  /-- A base type has the predicate that was given. -/
  | base (name : String) (predicate : Value) :
    Adds r w (.operation r .extend) name predicate (newEntry topName name predicate)
  /-- Another name for a type expression has its membership test. -/
  | synonym (name : String) {expression : Value} {e : Entry} {d : Descriptor} :
    (resolve r expression w).outcome = .ok (e, d) →
      Adds r w (.operation r .alias) name expression
        (newEntry ((w.registry r).typeChain d.name) name (.function (.tester r e d)))
  /-- A refinement has the predicate that was given, enforced against the parent. -/
  | refinement (parent name : String) {predicate : Value} {s : Signed} :
    (Enforcer.enforce r (.text (refinementContract parent)) predicate .null w).outcome = .ok s →
      Adds r w (.binder r parent) name predicate
        (newEntry ((w.registry r).typeChain parent) name (.function (.signed s)))

/-- How a call of a registering function with a name and a second value ends. -/
inductive Registering (r : RegistryId) (w : World) (f : Function) (name v : Value) :
    Result Value → Prop
  /-- It stops and leaves the world as it is. -/
  | stopped {stop : Stop} {es : List Event} : Registering r w f name v ⟨.error stop, w, es⟩
  /-- It adds one entry at the end of its registry and nothing else. -/
  | added {s : String} {e : Entry} {reg : Registry} {es : List Event} :
    name = .text s → Text.isBlankText s = false → Adds r w f s v e →
      (w.registry r).insert? e = some reg →
        Registering r w f name v ⟨.ok .null, w.setRegistry r reg, es⟩

section cases

variable {f : Function} {name v predicate : Value} {parent s : String} {e : Entry}

lemma Adds.name_eq (h : Adds r w f s v e) : e.name = s := by
  cases h <;> rfl

/-- Any step in front that leaves the world as it is makes no difference. -/
lemma registering_bind {α : Type} {x : Act α} {g : α → Act Value} (hx : (x w).world = w)
    (hg : ∀ a, (x w).outcome = .ok a → Registering r w f name v (g a w)) :
    Registering r w f name v ((x >>= g) w) := by
  rcases hxw : x w with ⟨stop | a, w', es⟩
  · obtain rfl : w' = w := by simpa [hxw] using hx
    rw [Act.bind_of_error hxw]
    exact .stopped
  · obtain rfl : w' = w := by simpa [hxw] using hx
    have hrest := hg a (by rw [hxw])
    rw [Act.bind_of_ok hxw]
    generalize g a w' = res at hrest
    cases hrest with
    | stopped => exact .stopped
    | added hname hblank hadds hreg => exact .added hname hblank hadds hreg

lemma registering_below (h : ∀ s, Adds r w f s v (newEntry parent s predicate)) :
    Registering r w f name v
      ((registerBelow r parent name predicate >>= fun _ => pure Value.null) w) := by
  rcases registerBelow_cases r parent name predicate w with
    ⟨e, he⟩ | ⟨s, reg, hname, hblank, -, hreg, hok⟩
  · rw [Act.bind_of_error he]
    exact .stopped
  · rw [Act.bind_of_ok hok]
    exact .added hname hblank (h s) hreg

/-- What a registering function does with a name and a second value. -/
lemma registering_apply (hf : Registers r f) (invoke : Invoke) {args : List Value}
    {kw : Call.Keywords Value}
    (hbind : Call.bind (f.parameters?.getD []) args kw = some [.given name, .given v]) :
    Registering r w f name v (f.apply invoke args kw w) := by
  have hvalues : Call.values (f.parameters?.getD []) args kw w = ⟨.ok [name, v], w, []⟩ :=
    Call.values_of_bind (by simpa using hbind)
  cases hf with
  | base =>
    have happly : (Function.operation r .extend).apply invoke args kw w =
        (registerBelow r topName name v >>= fun _ => pure Value.null) w :=
      Act.bind_of_pure hvalues
    rw [happly]
    exact registering_below fun s => .base s v
  | synonym =>
    have happly : (Function.operation r .alias).apply invoke args kw w =
        (addAlias r name v >>= fun _ => pure Value.null) w := Act.bind_of_pure hvalues
    rw [happly, addAlias, Act.bind_assoc]
    refine registering_bind ((steady_resolve r v).world w) fun ⟨e, d⟩ hresolve => ?_
    rw [Act.bind_assoc]
    refine registering_bind rfl fun reg hreg => ?_
    obtain rfl : w.registry r = reg := Except.ok.inj hreg
    exact registering_below fun s => .synonym s hresolve
  | refinement parent =>
    have happly : (Function.binder r parent).apply invoke args kw w =
        (Registry.bind r parent name v >>= fun _ => pure Value.null) w := by
      rw [Function.apply, Act.bind_of_pure hvalues]
      rfl
    rw [happly, Registry.bind, Act.bind_assoc]
    refine registering_bind ((Enforcer.steady_enforce r (.text (refinementContract parent)) v
      .null).world w) fun signed hsigned => ?_
    rw [Act.bind_assoc]
    refine registering_bind rfl fun reg hreg => ?_
    obtain rfl : w.registry r = reg := Except.ok.inj hreg
    exact registering_below fun s => .refinement parent s hsigned

end cases

/-! ### Calls -/

lemma Registers.plain {f : Function} (hf : Registers r f) :
    Call.Plain (f.parameters?.getD []) ∧ (f.parameters?.getD []).length = 2 := by
  cases hf <;> exact ⟨by simp [Call.Plain, Function.parameters?, Operation.parameters,
    Parameter.plain], rfl⟩

/-- **Registering is atomic.** However a registering function is called, it stops and leaves the
world as it is, or it adds the entry of the requested name at the end of its registry and nothing
else. -/
lemma registers_cases {f : Function} (hf : Registers r f) (n : Nat) (args : List Value)
    (kw : Call.Keywords Value) (w : World) :
    (∃ stop es, invoke n (.function f) args kw w = ⟨.error stop, w, es⟩) ∨
    ∃ v e reg es,
      Call.bind (f.parameters?.getD []) args kw = some [.given (.text e.name), .given v] ∧
      Text.isBlankText e.name = false ∧ Adds r w f e.name v e ∧
      (w.registry r).insert? e = some reg ∧
      invoke n (.function f) args kw w = ⟨.ok .null, w.setRegistry r reg, es⟩ := by
  rcases n with _ | n
  · exact .inl ⟨.exhausted, [], rfl⟩
  rw [invoke_succ, Value.apply]
  obtain ⟨hplain, hlength⟩ := hf.plain
  rcases Call.values_plain hplain args kw w with ⟨vs, hvs, hbind, -⟩ | ⟨-, hvalues⟩
  · rw [hlength, List.length_eq_two] at hvs
    obtain ⟨name, v, rfl⟩ := hvs
    have hcases := registering_apply hf (invoke n) (w := w) hbind
    generalize f.apply (invoke n) args kw w = res at hcases
    cases hcases with
    | @stopped stop es => exact .inl ⟨stop, es, rfl⟩
    | @added s e reg es hname hblank hadds hreg =>
      obtain rfl := hadds.name_eq
      rw [hname] at hbind
      exact .inr ⟨v, e, reg, es, hbind, hblank, hadds, hreg, rfl⟩
  · refine .inl ⟨.fault (.mishap .type), [], ?_⟩
    cases hf <;> exact Act.bind_of_error hvalues

/-- A call of a registering function that returns has added the entry for what it was given. -/
lemma Registers.exists_adds {f : Function} {n : ℕ} {args : List Value} {kw : Call.Keywords Value}
    {name : String} {v u : Value} {w' : World} (hf : Registers r f)
    (hgiven : Call.bind (f.parameters?.getD []) args kw = some [.given (.text name), .given v])
    (h : (invoke n (.function f) args kw).Returns w u w') :
    ∃ e reg, Adds r w f name v e ∧ (w.registry r).insert? e = some reg ∧
      w' = w.setRegistry r reg := by
  obtain ⟨houtcome, rfl⟩ := h
  rcases registers_cases hf n args kw w with
    ⟨stop, es, hstop⟩ | ⟨v', e, reg, es, hbind, -, hadds, hreg, hok⟩
  · simp [hstop] at houtcome
  · obtain ⟨rfl, rfl⟩ : name = e.name ∧ v = v' := by simpa using hgiven.symm.trans hbind
    exact ⟨e, reg, hadds, hreg, by rw [hok]⟩

end CallContracts.Registry
