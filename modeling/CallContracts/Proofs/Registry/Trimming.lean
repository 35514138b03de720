import CallContracts.Proofs.Call.Positions
import CallContracts.Proofs.Registry.Refining

/-!
As many arguments as a predicate takes.

A predicate is asked about a value, a descriptor and the membership test. It is given the first of
them, as many as its parameters tell.

* `Registry.bareEntry`: a predicate that is registered as it is;
* `Entry.EntersIff`: asking gets to the body of a function exactly under a condition, and
  `Entry.entersIff_of_bind`: it does if the arguments bind;
* `Registry.RegisteredBy`: a registering function registered a type, at some time before, and
  `Registry.RegisteredBy.exists_adds`: the entry that it added is found under the name ever since;
* `Registry.ask_enforced`: an enforced predicate hands on what the bare one is given;
* `Registry.asks_with_arity`: **no predicate is given too many arguments**, and one is given too few
  only if it requires more than there are.
-/

namespace CallContracts

/-! ### Asking a function -/

/-- Asking an entry about a value gets to the body of a function exactly under a condition. Under it
the arguments bind and the body is evaluated with a value for each parameter; otherwise they do not
bind and the call fails without a trace. -/
structure Entry.EntersIff (e : Entry) (c : Closure) (r : RegistryId) (v d : Value)
    (condition : Prop) : Prop where
  binds : (Call.bind c.parameters (e.arguments r v d) []).isSome = true ↔ condition
  enters : condition → ∀ n w, ∃ vs w',
    Call.values c.parameters (e.arguments r v d) [] w = ⟨.ok vs, w', []⟩ ∧
    e.ask (invoke (n + 1)) r v d w =
      c.body.eval (invoke n) ((c.parameters.map (·.name)).zip vs ++ c.scope) w'
  fails : ¬ condition → ∀ n w,
    e.ask (invoke (n + 1)) r v d w = ⟨.error (.fault (.mishap .type)), w, []⟩

/-- Asking gets to the body exactly if the arguments bind. -/
lemma Entry.entersIff_of_bind {e : Entry} {c : Closure} {r : RegistryId} {v d : Value}
    {condition : Prop} (he : e.predicate = .function (.closure c))
    (h : (Call.bind c.parameters (e.arguments r v d) []).isSome = true ↔ condition) :
    e.EntersIff c r v d condition := by
  have hask : ∀ n, e.ask (invoke (n + 1)) r v d = c.run (invoke n) (e.arguments r v d) [] := by
    intro n
    rw [Entry.ask, he]
    rfl
  refine ⟨h, fun hcondition n w => ?_, fun hcondition n w => ?_⟩
  · obtain ⟨slots, hslots⟩ := Option.isSome_iff_exists.1 (h.2 hcondition)
    obtain ⟨vs, w', hvalues⟩ := Call.exists_values hslots w
    refine ⟨vs, w', hvalues, ?_⟩
    rw [hask, Closure.run, Act.bind_of_ok hvalues]
    simp
  · rw [← h, Option.not_isSome_iff_eq_none] at hcondition
    rw [hask, Closure.run, Act.bind_of_error (Call.values_of_not_bind hcondition)]

namespace Registry

variable {r : RegistryId} {w : World} {f : Function} {name : String} {v d : Value} {c : Closure}

/-- The entry of a predicate that is registered as it is. -/
def bareEntry (name : String) (f : Function) : Entry := newEntry topName name (.function f)

/-! ### Registered types -/

/-- A type was registered with a registry that is there, at some time before: a call of a
registering function with the name and a second value returned. -/
def RegisteredBy (f : Function) (r : RegistryId) (name : String) (v : Value) (w : World) : Prop :=
  ∃ (n : ℕ) (args : List Value) (kw : Call.Keywords Value) (u : Value) (w₀ w₁ : World),
    r < w₀.registries.length ∧
    Call.bind (f.parameters?.getD []) args kw = some [.given (.text name), .given v] ∧
    (invoke n (.function f) args kw).Returns w₀ u w₁ ∧ w₁.History w

/-- The entry that a registering function adds is found under its name ever since. -/
lemma RegisteredBy.exists_adds (hf : Registers r f) (h : RegisteredBy f r name v w) :
    ∃ w₀ e, Adds r w₀ f name v e ∧ (w.registry r).find? name = some e := by
  obtain ⟨n, args, kw, u, w₀, w₁, hr, hgiven, hcall, hlater⟩ := h
  obtain ⟨e, reg, hadds, hreg, rfl⟩ := hf.exists_adds hgiven hcall
  refine ⟨w₀, e, hadds, hlater.extends.find? ?_⟩
  rw [World.registry_setRegistry, if_pos ⟨rfl, hr⟩, find?_insert? hreg, if_pos hadds.name_eq.symm]

/-! ### Arguments of predicates -/

section arguments

variable {t : Tree} {raw chain : String}

/-- Enforcement does not change what a predicate is given. -/
lemma arguments_enforced :
    (newEntry chain name
        (.function (.signed (.enforced (.plain f t raw .null true) r)))).arguments r v d =
      (bareEntry name f).arguments r v d := by
  rw [Entry.arguments, Entry.arguments, bareEntry, newEntry, newEntry, predicateArity_enforced]

/-- An enforced predicate hands on what the bare one is given, once that has passed its check. -/
lemma ask_enforced (n : ℕ) :
    (newEntry chain name
        (.function (.signed (.enforced (.plain f t raw .null true) r)))).ask (invoke (n + 2)) r v
          d =
      (do
        Enforcer.checkValues (invoke (n + 1)) r (.plain f t raw .null true)
          ((bareEntry name f).arguments r v d) []
        let answer ← (bareEntry name f).ask (invoke n) r v d
        Enforcer.checkResult (invoke (n + 1)) r (.plain f t raw .null true) answer) := by
  have hask : (bareEntry name f).ask (invoke n) r v d =
      invoke n (.function f) ((bareEntry name f).arguments r v d) [] := rfl
  rw [Entry.ask, arguments_enforced, newEntry, Enforcer.invoke_enforced (n + 1) rfl, Enforcer.call,
    Enforcer.invoke_plain n rfl, hask]

end arguments

/-- **No predicate is given too many arguments**, and one is given too few only if it requires more
than there are. Let a function have any parameters. If it is registered as a base type, it is asked
with the first of the value, the descriptor and the membership test, and this call gets to its body
exactly if at most three of the parameters that a position can fill have no default and each
parameter by keyword alone has one. If it is registered as a refinement, it is asked with the same
arguments, between the check of these and the check of its answer. -/
theorem asks_with_arity (hps : Parameter.Declarable c.parameters)
    (hdefaults : Parameter.DefaultsLast c.parameters) :
    (∀ r name v d, (bareEntry name (.closure c)).EntersIff c r v d
      (Parameter.requiredCount c.parameters ≤ 3 ∧
        ∀ p ∈ c.parameters, p.kind = .keywordOnly → p.default?.isSome = true)) ∧
    (∀ r name f w, RegisteredBy (.operation r .extend) r name (.function f) w →
      (w.registry r).find? name = some (bareEntry name f)) ∧
    ∀ r parent name f w, RegisteredBy (.binder r parent) r name (.function f) w →
      ∃ e target, (w.registry r).find? name = some e ∧
        e.predicate = .function (.signed (.enforced target r)) ∧ target.callable = f ∧
        ∀ v d, e.arguments r v d = (bareEntry name f).arguments r v d ∧
          ∀ n, e.ask (invoke (n + 2)) r v d = (do
            Enforcer.checkValues (invoke (n + 1)) r target (e.arguments r v d) []
            let answer ← (bareEntry name f).ask (invoke n) r v d
            Enforcer.checkResult (invoke (n + 1)) r target answer) := by
  refine ⟨fun r name v d => Entry.entersIff_of_bind rfl ?_, ?_, ?_⟩
  · exact Call.isSome_bind_take_iff hps.ordered hdefaults rfl
  · intro r name f w h
    obtain ⟨w₀, e, hadds, hfind⟩ := h.exists_adds .base
    cases hadds
    exact hfind
  · intro r parent name f w h
    obtain ⟨w₀, e, hadds, hfind⟩ := h.exists_adds (.refinement parent)
    cases hadds with
    | refinement _ _ hs =>
      obtain ⟨raw, f', t, -, hf, -, rfl, -⟩ := Enforcer.exists_of_enforce hs
      obtain rfl : f = f' := by simpa using hf
      refine ⟨_, .plain f t raw .null true, hfind, rfl, rfl, fun v d => ⟨arguments_enforced, ?_⟩⟩
      intro n
      rw [ask_enforced, arguments_enforced]

/-- Parameters of all kinds, in a base type and in a refinement of the numbers. -/
theorem asks_with_arity_mixed :
    let c : Closure := ⟨0, .function, "mixed", [⟨"value", .positionalOnly, none⟩,
      ⟨"descriptor", .positional, none⟩, ⟨"test", .positional, some .null⟩,
      ⟨"rest", .variadic, none⟩, ⟨"strict", .keywordOnly, some (.bool true)⟩,
      ⟨"more", .keywords, none⟩], .literal (.scalar (.bool true)), []⟩
    Parameter.Declarable c.parameters ∧ Parameter.DefaultsLast c.parameters ∧
      ∃ w w', RegisteredBy (.operation 0 .extend) 0 "wide" (.function (.closure c)) w ∧
        RegisteredBy (.binder 0 "number") 0 "narrow" (.function (.closure c)) w' ∧
        (w.registry 0).find? "wide" = some (bareEntry "wide" (.closure c)) ∧
        (∀ v d, (Call.bind c.parameters
          ((bareEntry "wide" (.closure c)).arguments 0 v d) []).isSome = true) ∧
        ∃ e, (w'.registry 0).find? "narrow" = some e ∧
          ∀ v d, e.arguments 0 v d = [v, d, membershipTest 0] := by
  intro c
  have hps : Parameter.Declarable c.parameters := ⟨by decide, by decide⟩
  have hdefaults : Parameter.DefaultsLast c.parameters := by decide
  obtain ⟨henters, hbase, hrefinement⟩ := asks_with_arity hps hdefaults
  have hwide : RegisteredBy (.operation 0 .extend) 0 "wide" (.function (.closure c)) _ :=
    ⟨1, [.text "wide", .function (.closure c)], [], .null, world, _, by decide, rfl, ⟨rfl, rfl⟩,
      .refl⟩
  obtain ⟨reg, hreg⟩ : ∃ reg, (world.registry 0).insert? (newEntry
      ((world.registry 0).typeChain "number") "narrow"
        (refinementPredicate 0 "number" (.closure c))) = some reg := by
    rw [← Option.isSome_iff_exists, insert?_isSome]
    rfl
  have hnumber : Descriptor.PlainName "number" := ⟨by decide, by simp, by decide⟩
  have hreturns : (Registry.bind 0 "number" (.text "narrow") (.function (.closure c))).Returns world
      () (world.setRegistry 0 reg) :=
    returns_bind_fresh (hnumber.canonical (by decide)).readable hnumber.ne_unit hasBase_base rfl rfl
      rfl hreg
  have hnarrow : RegisteredBy (.binder 0 "number") 0 "narrow" (.function (.closure c))
      (world.setRegistry 0 reg) :=
    ⟨1, _, [], .null, world, _, by decide, rfl, returns_binder_iff.2 hreturns, .refl⟩
  obtain ⟨e, target, hfind, -, -, hask⟩ := hrefinement _ _ _ _ _ hnarrow
  refine ⟨hps, hdefaults, _, _, hwide, hnarrow, hbase _ _ _ _ hwide, fun v d => ?_, e, hfind,
    fun v d => (hask v d).1⟩
  exact (henters 0 "wide" v d).binds.2 ⟨by decide, by decide⟩

end Registry

end CallContracts
