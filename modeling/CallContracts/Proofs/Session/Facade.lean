import CallContracts.Proofs.Enforcement.Mirror
import CallContracts.Proofs.Registry.History
import CallContracts.Session.Environment

/-!
The facade of an environment.

* `Operation.Yields` and `Operation.yields_of_run`: what an operation returns;
* `Environment.published` and `Environment.parse_contract`: what the contracts read as, which speak
  of base types alone;
* `Environment.eq_of_returns_facade`: an environment with a facade offers each operation of its
  registry, enforced with the contract that it publishes, and its registry holds the base types;
* `Environment.StandsFor`: a result of an operation and the result that its facade gives instead;
* `Environment.facade_transparent`: **the facade is transparent**: where the contract of an
  operation accepts the values of a call, the call is as good as one of the operation, and where it
  does not, it is rejected and changes nothing.
-/

namespace CallContracts

namespace Registry

lemma basic_install (r : RegistryId) : Act.Basic (install r) :=
  Act.basic_bind (Act.basic_each (fun _ => Act.basic_bind (steady_entry r _).basic fun _ =>
    basic_bind_refinement _ _ _ _) _) fun _ => basic_extend _ _ _

end Registry

/-! ### What operations return -/

/-- What an operation returns. -/
def Operation.Yields (r : RegistryId) : Operation → Value → Prop
  | .sign, u | .enforce, u | .wrap, u => ∃ s, u = .function (.signed s)
  | .subtype, u => ∃ parent, u = .function (.binder r parent)
  | .isTypeOf, u => ∃ e d, u = .function (.tester r e d)
  | .extend, u | .alias, u | .verify, u => u = .null
  | .typeChain, u => ∃ text, u = .text text
  | .lookup, u => ∃ e, u = .entry e
  | .matches, _ => True

lemma Operation.yields_of_run {invoke : Invoke} {r : RegistryId} {op : Operation}
    {values : List Value} {w : World} {u : Value} (h : (op.run invoke r values w).outcome = .ok u) :
    op.Yields r u := by
  unfold Operation.run at h
  split at h
  case h_1 | h_3 | h_9 =>
    obtain ⟨_, rfl⟩ := Act.exists_of_bind_pure_ok h
    rfl
  case h_2 =>
    obtain ⟨e, rfl⟩ := Act.exists_of_bind_pure_ok h
    exact ⟨e.name, rfl⟩
  case h_4 =>
    obtain ⟨⟨e, d⟩, rfl⟩ := Act.exists_of_bind_pure_ok h
    exact ⟨e, d, rfl⟩
  case h_5 | h_6 | h_8 | h_10 | h_11 =>
    obtain ⟨a, rfl⟩ := Act.exists_of_bind_pure_ok h
    exact ⟨a, rfl⟩
  case h_7 => trivial
  case h_12 => simp [Act.mishap, Act.throw] at h

section calls

variable {n : Nat} {r : RegistryId} {args : List Value} {w w' : World} {u : Value}
  {es : List Event}

/-- What a call of an operation returns. -/
lemma Operation.yields_of_invoke {op : Operation}
    (h : invoke n (.function (.operation r op)) args [] w = ⟨.ok u, w', es⟩) :
    op.Yields r u := by
  rcases n with _ | n
  · simp [invoke_zero, Act.exhausted] at h
  · obtain ⟨values, w₁, es₁, -, hrun, -⟩ := Act.exists_of_bind_ok (congrArg Result.outcome h)
    exact yields_of_run hrun

/-- A tester returns a truth value. -/
lemma isBool_of_tester {e : Entry} {d : Descriptor}
    (h : invoke n (.function (.tester r e d)) args [] w = ⟨.ok u, w', es⟩) : u.isBool = true := by
  rcases n with _ | n
  · simp [invoke_zero, Act.exhausted] at h
  · obtain ⟨values, w₁, es₁, -, hrun, -⟩ := Act.exists_of_bind_ok (congrArg Result.outcome h)
    obtain ⟨b, rfl⟩ := Act.exists_of_bind_pure_ok hrun
    rfl

/-- What registers refinements returns nothing. -/
lemma isNull_of_binder {parent : String}
    (h : invoke n (.function (.binder r parent)) args [] w = ⟨.ok u, w', es⟩) :
    u.isNull = true := by
  rcases n with _ | n
  · simp [invoke_zero, Act.exhausted] at h
  · obtain ⟨values, w₁, es₁, -, hrun, -⟩ := Act.exists_of_bind_ok (congrArg Result.outcome h)
    obtain ⟨_, rfl⟩ := Act.exists_of_bind_pure_ok hrun
    rfl

end calls

/-! ### Environments -/

namespace Environment

open Enforcer

/-- What the contract of an operation of a facade reads as. -/
def published : Operation → Tree
  | .sign | .enforce =>
    ⟨[[.ofName "string", .ofName "function", ⟨"object", .plain, true⟩], [.ofName "function"]]⟩
  | .verify => ⟨[[.ofName "function", .ofName "array"], [.ofName "undefined"]]⟩
  | .extend => ⟨[[.ofName "string", .ofName "function"], [.ofName "undefined"]]⟩
  | .subtype =>
    ⟨[[.ofName "string"], [.ofName "string", .ofName "function"], [.ofName "undefined"]]⟩
  | .alias => ⟨[[.ofName "string", .ofName "string"], [.ofName "undefined"]]⟩
  | .isTypeOf => ⟨[[.ofName "string"], [.ofName "*"], [.ofName "boolean"]]⟩
  | .typeChain => ⟨[[.ofName "string"], [.ofName "string"]]⟩
  | .lookup | .matches | .wrap => ⟨[]⟩

/-- An operation enforced with its contract. -/
def enforced (r : RegistryId) (op : Operation) (contract : String) : Signed :=
  .enforced (.plain (.operation r op) (published op) contract .null true) r

variable {r : RegistryId} {w w' : World} {c : Operation × String}

/-- Contracts speak of base types alone, without labels or arguments. -/
lemma plain_published (op : Operation) : ∀ s ∈ (published op).stages, s ≠ [] ∧
    ∀ d ∈ s, d.detail = .plain ∧ d.name ≠ unitName ∧ ∃ t ∈ Registry.baseTypes, d.name = t.1 := by
  cases op <;> decide

/-- A contract is the written form of what it reads as. -/
lemma text_published (hc : c ∈ contracts) : (published c.1).text = c.2 := by
  have hall : ∀ c ∈ contracts, (published c.1).text = c.2 := by decide
  exact hall c hc

lemma size_published (hc : c ∈ contracts) : 2 ≤ (published c.1).size := by
  have hall : ∀ c ∈ contracts, 2 ≤ (published c.1).size := by decide
  exact hall c hc

lemma canonical_published (hc : c ∈ contracts) : (published c.1).Canonical where
  size := size_published hc
  stages s hs := by
    obtain ⟨hne, hplain⟩ := plain_published c.1 s hs
    refine .inr ⟨hne, fun d hd => ?_⟩
    obtain ⟨hdetail, hunit, hbase⟩ := hplain d hd
    exact Registry.canonical_of_base hdetail hunit hbase
  returns := by
    simp only [contracts, List.mem_cons, List.not_mem_nil, or_false] at hc
    rcases hc with rfl | rfl | rfl | rfl | rfl | rfl | rfl | rfl <;> exact ⟨_, rfl⟩

/-- A contract has the form of a signature. -/
lemma parse_contract (hc : c ∈ contracts) : Tree.parse none c.2 = .ok (published c.1) := by
  rw [← text_published hc]
  exact (canonical_published hc).parse_written

/-- A contract reads wherever there are the base types. -/
lemma parse_contract_of_hasBase {reg : Registry} (hc : c ∈ contracts)
    (hbase : Registry.HasBase reg) :
    Tree.parse (some reg.contains) c.2 = .ok (published c.1) := by
  refine Tree.parse_eq_ok_iff.2 ⟨(Tree.parse_eq_ok_iff.1 (parse_contract hc)).1, ?_⟩
  rintro known hknown
  obtain rfl := Option.some.inj hknown
  have hplain : ∀ d ∈ (published c.1).stages.flatten, d.detail = .plain ∧
      ∃ t ∈ Registry.baseTypes, d.name = t.1 := by
    intro d hd
    obtain ⟨s, hs, hd⟩ := List.mem_flatten.1 hd
    obtain ⟨hdetail, -, hname⟩ := (plain_published c.1 s hs).2 d hd
    exact ⟨hdetail, hname⟩
  refine Tree.checkNames_eq_ok_iff.2 ⟨fun d hd hlabel => ?_, fun d hd => ?_⟩
  · simp [Descriptor.label?, (hplain d hd).1] at hlabel
  · obtain ⟨-, t, ht, hname⟩ := hplain d hd
    rw [hname, Registry.contains, hbase t ht]
    rfl

/-- Each operation can take the first stage of its contract. -/
lemma fits_contract (hc : c ∈ contracts) :
    Fits (.plain (.operation r c.1) (published c.1) c.2 .null true) := by
  simp only [contracts, List.mem_cons, List.not_mem_nil, or_false] at hc
  rcases hc with rfl | rfl | rfl | rfl | rfl | rfl | rfl | rfl <;> rfl

/-- An operation is offered as it stands, enforced with its contract. -/
lemma returns_offer (hc : c ∈ contracts) (hbase : Registry.HasBase (w.registry r)) :
    (offer r c.1 c.2).Returns w (c.1, enforced r c.1 c.2) w := by
  rw [offer, Act.returns_bind_iff]
  exact ⟨_, w, Act.returns_of_eq
    (enforce_of_fits (parse_contract_of_hasBase hc hbase) (fits_contract hc)),
    Act.returns_pure_iff.2 ⟨rfl, rfl⟩⟩

/-- Steps that change nothing, one after the other. -/
lemma returns_each {α β : Type} {f : α → Act β} {g : α → β} (as : List α)
    (h : ∀ a ∈ as, (f a).Returns w (g a) w) : (Act.each f as).Returns w (as.map g) w := by
  induction as with
  | nil => exact Act.returns_pure_iff.2 ⟨rfl, rfl⟩
  | cons a as ih =>
    rw [Act.each, Act.returns_bind_iff]
    refine ⟨_, w, h a (by simp), ?_⟩
    rw [Act.returns_bind_iff]
    exact ⟨_, w, ih fun a ha => h a (by simp [ha]), Act.returns_pure_iff.2 ⟨rfl, rfl⟩⟩

/-- What is left of building an environment once its registry is there. -/
def furnish (s : Setup) (r : RegistryId) : Act Environment := do
  let _ ← Act.each (fun (a : String × String) => Registry.addAlias r (.text a.1) (.text a.2))
    s.aliases
  let facade ← Act.each (fun c : Operation × String => offer r c.1 c.2) contracts
  Act.log (.ready (← Act.registry r).entries.length s.aliases.length)
  return ⟨r, facade⟩

lemma withFacade_eq (s : Setup) : withFacade s = Registry.create true >>= fun r =>
    if s.extendedTypes then Registry.install r >>= fun _ => furnish s r else furnish s r := rfl

/-- A new registry leaves the host as it is. -/
lemma sameHost_create : Act.Moves World.SameHost (Registry.create true) := by
  intro w
  let w₁ : World := { w with registries := w.registries ++ [.empty] }
  have hworld : Act.world w = ⟨.ok w, w, []⟩ := rfl
  have hset : Act.setWorld w₁ w = ⟨.ok (), w₁, []⟩ := rfl
  rw [Registry.create, Act.bind_of_pure hworld, Act.bind_of_ok hset]
  exact Act.moves_bind (R := World.SameHost)
    ((Act.basic_each (fun _ => Registry.basic_register _ _ _ _) _).moves _)
    (fun _ => (Act.steady_pure _).moves) w₁

lemma steady_offer (r : RegistryId) (op : Operation) (contract : String) :
    Act.Steady (offer r op contract) :=
  Act.steady_bind (Enforcer.steady_enforce _ _ _ _) fun _ => Act.steady_pure _

/-- **Building an environment leaves the host as it is.** -/
lemma host_withFacade (s : Setup) (w : World) : (withFacade s w).world.host = w.host := by
  have hfurnish : ∀ r, Act.Moves World.SameHost (furnish s r) := fun r =>
    Act.moves_bind ((Act.basic_each (fun _ => Registry.basic_addAlias _ _ _) _).moves _) fun _ =>
      Act.moves_bind ((Act.basic_each (fun _ => (steady_offer r _ _).basic) _).moves _) fun _ =>
        Act.moves_bind (fun _ => rfl) fun _ =>
          Act.moves_bind (Act.steady_log _).moves fun _ => (Act.steady_pure _).moves
  rw [withFacade_eq]
  refine Act.moves_bind (R := World.SameHost) sameHost_create (fun r => ?_) w
  split
  · exact Act.moves_bind ((Registry.basic_install r).moves _) fun _ => hfurnish r
  · exact hfurnish r

/-- Furnishing an environment offers the facade and leaves the base types. -/
lemma eq_of_returns_furnish {s : Setup} {env : Environment}
    (h : (furnish s r).Returns w env w') (hbase : Registry.HasBase (w.registry r)) :
    Registry.HasBase (w'.registry env.registry) ∧
      env.facade = contracts.map fun c => (c.1, enforced env.registry c.1 c.2) := by
  obtain ⟨_, w₁, heach, h⟩ := Act.returns_bind_iff.1 h
  have hextends : w.Extends w₁ := by
    have hmoves := (Act.basic_each (f := fun a : String × String =>
      Registry.addAlias r (.text a.1) (.text a.2)) (fun _ => Registry.basic_addAlias _ _ _)
      s.aliases).moves World.Extends w
    rwa [heach.2] at hmoves
  obtain ⟨facade, w₂, hoffers, h⟩ := Act.returns_bind_iff.1 h
  have hoffers' := returns_each (f := fun c : Operation × String => offer r c.1 c.2)
    (g := fun c => (c.1, enforced r c.1 c.2)) (w := w₁) contracts
    fun c hc => returns_offer hc (hbase.extends hextends)
  obtain rfl := Except.ok.inj (hoffers.1.symm.trans hoffers'.1)
  have hworld : w₁ = w₂ := hoffers'.2.symm.trans hoffers.2
  subst hworld
  obtain ⟨reg, w₃, hregistry, h⟩ := Act.returns_bind_iff.1 h
  obtain rfl : w₁ = w₃ := hregistry.2
  obtain ⟨_, w₄, hlog, h⟩ := Act.returns_bind_iff.1 h
  obtain rfl : w₁ = w₄ := hlog.2
  obtain ⟨rfl, rfl⟩ := Act.returns_pure_iff.1 h
  exact ⟨hbase.extends hextends, rfl⟩

/-- **An environment with a facade** offers each operation as it stands, enforced with its contract,
and its registry holds the base types. -/
lemma eq_of_returns_facade {w₀ w₁ : World} {s : Setup} {env : Environment}
    (h : (withFacade s).Returns w₀ env w₁) :
    Registry.HasBase (w₁.registry env.registry) ∧
      env.facade = contracts.map fun c => (c.1, enforced env.registry c.1 c.2) := by
  rw [withFacade_eq] at h
  obtain ⟨r, w₂, hcreate, h⟩ := Act.returns_bind_iff.1 h
  have hbase : Registry.HasBase (w₂.registry r) := by
    obtain ⟨w', es, hcreate', hreg⟩ := Registry.registry_create w₀
    obtain ⟨hr, rfl⟩ := hcreate
    rw [hcreate'] at hr ⊢
    obtain rfl : w₀.registries.length = r := Except.ok.inj hr
    rw [hreg]
    exact Registry.hasBase_base
  split at h
  · obtain ⟨_, w₃, hinstall, h⟩ := Act.returns_bind_iff.1 h
    have hextends : w₂.Extends w₃ := by
      have hmoves := (Registry.basic_install r).moves World.Extends w₂
      rwa [hinstall.2] at hmoves
    exact eq_of_returns_furnish h (hbase.extends hextends)
  · exact eq_of_returns_furnish h hbase

/-! ### Transparency -/

/-- The result that a facade gives for the result of an operation: the same, or for a function that
is called in turn one that stands for it, then and in all later worlds. -/
def StandsFor (r : RegistryId) (t : Tree) (w : World) (u v : Value) : Prop :=
  if 2 < t.size then
    ∃ g s, u = .function g ∧ v = .function (.signed s) ∧ s.tree = t.remaining ∧
      ∀ w', w.History w' → Mirrors r s g Eq w'
  else u = v

/-- The operation that a facade offers. -/
lemma operation?_eq {env : Environment} {op : Operation} {contract : String}
    (h : env.facade = contracts.map fun c => (c.1, enforced env.registry c.1 c.2))
    (hop : (op, contract) ∈ contracts) :
    env.operation? op = some (.function (.signed (enforced env.registry op contract))) := by
  rw [operation?, h]
  simp only [contracts, List.mem_cons, List.not_mem_nil, or_false, Prod.mk.injEq] at hop
  rcases hop with h | h | h | h | h | h | h | h <;> obtain ⟨rfl, rfl⟩ := h <;> rfl

/-- A function whose results are of the type that its contract promises. -/
lemma mirrors_last {f : Function} {t : Tree} {raw : String} {b : Bool} {stage : Stage}
    (hsize : t.size = 2) (hstage : t.parameters? = some stage) (hne : stage ≠ [])
    (hbasic : ∀ d ∈ stage, d.IsBasic) (hbase : Registry.HasBase (w.registry r))
    (hresult : ∀ n args u w' es, invoke n (.function f) args [] w = ⟨.ok u, w', es⟩ → ∀ m,
      Registry.HasBase (w'.registry r) →
        Registry.isMember (invoke (m + 1)) r (resultType t.remaining) u w' = ⟨.ok true, w', []⟩) :
    Mirrors r (.enforced (.plain f t raw .null b) r) f Eq w := by
  refine mirrors_of_basic hstage hne hbasic hbase fun n args u w' es h m => ⟨u, ?_, rfl⟩
  have hextends := invoke_extends n (.function f) args [] w
  rw [h] at hextends
  exact checkResult_last hsize (hresult n args u w' es h m (hbase.extends hextends))

/-- What registers refinements returns nothing, as its contract says. -/
lemma mirrors_binder {parent : String} (hbase : Registry.HasBase (w.registry r)) :
    Mirrors r (.enforced (.plain (.binder r parent) (published .subtype).remaining
      (published .subtype).remaining.text .null false) r) (.binder r parent) Eq w := by
  refine mirrors_last rfl rfl (by simp) (by decide) hbase fun n args u w' es h m hbase' => ?_
  rw [← isNull_of_binder h]
  exact Registry.isMember_undefined hbase' m u

/-- A tester returns a truth value, as its contract says. -/
lemma mirrors_tester {e : Entry} {d : Descriptor} (hbase : Registry.HasBase (w.registry r)) :
    Mirrors r (.enforced (.plain (.tester r e d) (published .isTypeOf).remaining
      (published .isTypeOf).remaining.text .null false) r) (.tester r e d) Eq w := by
  refine mirrors_last rfl rfl (by simp) (by decide) hbase fun n args u w' es h m hbase' => ?_
  rw [← isBool_of_tester h]
  exact Registry.isMember_boolean hbase' m u

/-- The first stage of each contract is of base types. -/
lemma exists_stage (hc : c ∈ contracts) : ∃ stage,
    (published c.1).parameters? = some stage ∧ stage ≠ [] ∧ ∀ d ∈ stage, d.IsBasic := by
  obtain ⟨stage, stages, hstages⟩ : ∃ stage stages, (published c.1).stages = stage :: stages :=
    List.exists_cons_of_length_pos (Nat.lt_of_lt_of_le Nat.two_pos (size_published hc))
  obtain ⟨hne, hplain⟩ := plain_published c.1 stage (by simp [hstages])
  refine ⟨stage, by rw [Tree.parameters?, hstages]; rfl, hne, fun d hd => ?_⟩
  obtain ⟨hdetail, -, hname⟩ := hplain d hd
  exact ⟨by rw [Descriptor.arguments?, hdetail], hname⟩

/-- **An operation of the facade stands for the operation.** -/
lemma mirrors_operation {op : Operation} {contract : String} (hop : (op, contract) ∈ contracts)
    (hbase : Registry.HasBase (w.registry r)) :
    Mirrors r (enforced r op contract) (.operation r op) (StandsFor r (published op) w) w := by
  obtain ⟨stage, hstage, hne, hbasic⟩ := exists_stage hop
  refine mirrors_of_basic hstage hne hbasic hbase fun n args u w' es h m => ?_
  have hextends := invoke_extends n (.function (.operation r op)) args [] w
  rw [h] at hextends
  have hbase' := hbase.extends hextends
  have hyields := Operation.yields_of_invoke h
  -- the result of an operation that is not curried is of the type that its contract promises
  have hlast : (published op).size = 2 → Registry.isMember (invoke (m + 1)) r
      (resultType (published op).remaining) u w' = ⟨.ok true, w', []⟩ →
      ∃ v, checkResult (invoke (m + 1)) r (.plain (.operation r op) (published op) contract .null
        true) u w' = ⟨.ok v, w', []⟩ ∧ StandsFor r (published op) w u v := by
    intro hsize hmember
    refine ⟨u, checkResult_last hsize hmember, ?_⟩
    rw [StandsFor, if_neg (by omega)]
  cases op with
  | extend =>
    obtain rfl : u = .null := hyields
    exact hlast rfl (Registry.isMember_undefined hbase' m _)
  | «alias» =>
    obtain rfl : u = .null := hyields
    exact hlast rfl (Registry.isMember_undefined hbase' m _)
  | verify =>
    obtain rfl : u = .null := hyields
    exact hlast rfl (Registry.isMember_undefined hbase' m _)
  | typeChain =>
    obtain ⟨text, rfl⟩ := hyields
    exact hlast rfl (Registry.isMember_string hbase' m _)
  | sign =>
    obtain ⟨s, rfl⟩ := hyields
    exact hlast rfl (Registry.isMember_callable hbase' m _)
  | enforce =>
    obtain ⟨s, rfl⟩ := hyields
    exact hlast rfl (Registry.isMember_callable hbase' m _)
  | subtype =>
    obtain ⟨parent, rfl⟩ := hyields
    have hsize : 2 < (published .subtype).size := by decide
    refine ⟨_, checkResult_curried hsize hbase' rfl, ?_⟩
    rw [StandsFor, if_pos hsize]
    exact ⟨_, _, rfl, rfl, rfl, fun w'' hw => mirrors_binder (hbase.extends hw.extends)⟩
  | isTypeOf =>
    obtain ⟨e, d, rfl⟩ := hyields
    have hsize : 2 < (published .isTypeOf).size := by decide
    refine ⟨_, checkResult_curried hsize hbase' rfl, ?_⟩
    rw [StandsFor, if_pos hsize]
    exact ⟨_, _, rfl, rfl, rfl, fun w'' hw => mirrors_tester (hbase.extends hw.extends)⟩
  | lookup => simp [contracts] at hop
  | «matches» => simp [contracts] at hop
  | wrap => simp [contracts] at hop

/-- **The facade is transparent.** In every world that a program can reach from one where an
environment was built, whatever its setup, each operation of the facade is checked against the
contract that it publishes. Where the first stage of the contract accepts the values of a call, the
call ends as a call of the operation itself does, with the same result or the same fault and the
same effects; what `subtype` and `isTypeOf` return stands in the same way for what the operation
returns. Where it does not, the call is rejected for its values and changes nothing. -/
theorem facade_transparent {setup : Setup} {env : Environment} {w₀ w₁ : World}
    (h : (withFacade setup).Returns w₀ env w₁) (hw : w₁.History w) {op : Operation}
    {contract : String} (hop : (op, contract) ∈ contracts) :
    ∃ s, env.operation? op = some (.function (.signed s)) ∧
      Tree.parse none contract = .ok s.tree ∧
      Mirrors env.registry s (.operation env.registry op) (StandsFor env.registry s.tree w) w := by
  obtain ⟨hbase, hfacade⟩ := eq_of_returns_facade h
  exact ⟨enforced env.registry op contract, operation?_eq hfacade hop,
    parse_contract (c := (op, contract)) hop, mirrors_operation hop (hbase.extends hw.extends)⟩

/-- An environment of the base types alone can be built anywhere. -/
lemma exists_returns_facade (w₀ : World) : ∃ env w₁,
    (withFacade { extendedTypes := false, aliases := [] }).Returns w₀ env w₁ := by
  obtain ⟨w₁, es, hcreate, hreg⟩ := Registry.registry_create w₀
  have hbase : Registry.HasBase (w₁.registry w₀.registries.length) := by
    rw [hreg]
    exact Registry.hasBase_base
  have hoffers := returns_each (f := fun c : Operation × String =>
    offer w₀.registries.length c.1 c.2) (g := fun c => (c.1, enforced w₀.registries.length c.1 c.2))
    (w := w₁) contracts fun c hc => returns_offer hc hbase
  refine ⟨⟨w₀.registries.length, contracts.map fun c =>
    (c.1, enforced w₀.registries.length c.1 c.2)⟩, w₁, ?_⟩
  rw [withFacade_eq, Act.returns_bind_iff]
  refine ⟨_, w₁, Act.returns_of_eq hcreate, ?_⟩
  rw [if_neg (by simp), furnish, Act.returns_bind_iff]
  refine ⟨[], w₁, ⟨rfl, rfl⟩, ?_⟩
  rw [Act.returns_bind_iff]
  exact ⟨_, w₁, hoffers, rfl, rfl⟩

/-- In an environment of the base types, `extend` is checked and otherwise as it is. -/
theorem facade_transparent_extend : ∃ env w₁,
    (withFacade { extendedTypes := false, aliases := [] }).Returns .empty env w₁ ∧
    w₁.History w₁ ∧ (.extend, "string, function => undefined") ∈ contracts ∧
    ∃ s, env.operation? .extend = some (.function (.signed s)) ∧
      Tree.parse none "string, function => undefined" = .ok s.tree ∧
      Mirrors env.registry s (.operation env.registry .extend)
        (StandsFor env.registry s.tree w₁) w₁ := by
  obtain ⟨env, w₁, h⟩ := exists_returns_facade .empty
  exact ⟨env, w₁, h, .refl, by decide, facade_transparent h .refl (by decide)⟩

end Environment

end CallContracts
