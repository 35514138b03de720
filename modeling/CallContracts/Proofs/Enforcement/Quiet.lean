import CallContracts.Proofs.Enforcement.Depth
import CallContracts.Proofs.Enforcement.Traits
import CallContracts.Proofs.Registry.Refining

/-!
Checks without side effects.

* `Act.Quiet`: from one world, a computation leaves that world and shows nothing, a trait;
* `Registry.SideEffectFree`: so do the predicates of a registry, whatever they are asked about;
* `Enforcer.quiet_checkValues`, `Enforcer.quiet_checkResult`: then so do the checks of a call;
* `Registry.sideEffectFree_of_harmless`: by induction on the depth, a registry has no side effects
  if its predicates come from the library or never have any.
-/

namespace CallContracts

/-! ### Quiet computations -/

namespace Act

variable {α β : Type} {x y : Act α} {f : α → Act β} {w : World}

/-- From this world a computation leaves the world as it is and shows nothing, unless it runs out of
depth; it may write to the log. -/
def Quiet (x : Act α) (w : World) : Prop :=
  (x w).outcome ≠ .error .exhausted →
    (x w).world = w ∧ (x w).events.filterMap Event.traced? = []

lemma quiet_of_eq (outcome : Except Stop α) (es : List Event) (h : x w = ⟨outcome, w, es⟩)
    (hes : es.filterMap Event.traced? = []) : x.Quiet w := by
  intro _
  rw [h]
  exact ⟨rfl, hes⟩

lemma quiet_exhausted : (exhausted : Act α).Quiet w := fun hne => absurd rfl hne

/-- A quiet computation that returns does so in the world that it started from. -/
lemma Quiet.world_eq {a : α} {w' : World} (hx : x.Quiet w) (h : x.Returns w a w') : w' = w :=
  h.2.symm.trans (hx (by simp [h.1])).1

/-- A sequence is quiet if its first step is, and its second one after what the first returns. -/
lemma Quiet.bind (hx : x.Quiet w) (hf : ∀ a, (x w).outcome = .ok a → (f a).Quiet w) :
    (x >>= f).Quiet w := by
  intro hne
  rcases hxw : x w with ⟨stop | a, w', es⟩
  · rw [bind_of_error hxw] at hne ⊢
    have hquiet := hx (by simpa [hxw] using hne)
    rwa [hxw] at hquiet
  · have hquiet := hx (by simp [hxw])
    rw [hxw] at hquiet
    obtain ⟨rfl, hes⟩ : w' = w ∧ es.filterMap Event.traced? = [] := hquiet
    rw [bind_of_ok hxw] at hne ⊢
    obtain ⟨hworld, hes'⟩ := hf a (by rw [hxw]) hne
    exact ⟨hworld, by simp [hes, hes']⟩

lemma Quiet.attempt (hx : x.Quiet w) : (attempt x).Quiet w := by
  intro hne
  rcases hxw : x w with ⟨(e | -) | a, w', es⟩
  · have hquiet := hx (by simp [hxw])
    rw [hxw] at hquiet
    rwa [attempt_of_fault hxw]
  · exact absurd (by rw [attempt_of_exhausted hxw]) hne
  · have hquiet := hx (by simp [hxw])
    rw [hxw] at hquiet
    rwa [attempt_of_ok hxw]

instance : Trait @Quiet where
  of_eq heq h := by
    rw [Quiet, ← heq]
    exact h
  of_ends _ es h hes := quiet_of_eq _ es h hes
  bind := Quiet.bind
  attempt := Quiet.attempt

lemma Inspects.quiet (h : Inspects x) : x.Quiet w := h.trait

lemma quiet_heap : heap.Quiet w := trait_heap

/-- What is quiet at some depth is quiet at every smaller one. -/
lemma Quiet.of_approximates (hy : y.Quiet w) (hxy : x.Approximates y) : x.Quiet w := by
  intro hne
  have heq : x w = y w := (hxy w).resolve_left hne
  rw [heq] at hne ⊢
  exact hy hne

end Act

/-! ### Asking a registry -/

namespace Registry

open Act

variable {r : RegistryId} {w : World} {n : ℕ} {text : String} {v : Value}

/-- The predicates of a registry have no side effects in a world: asked for a registered type about
whatever value, they leave the world as it is and show nothing. The heap and the serial numbers
count: a predicate that builds a list or a function, if only for itself, leaves something behind,
and what is built after it has another place in the world. -/
def SideEffectFree (r : RegistryId) (w : World) : Prop :=
  ∀ d e, (w.registry r).find? d.name = some e →
    ∀ n v, (e.ask (invoke n) r v (.descriptor d)).Quiet w

/-- The same for predicates that are asked at one depth. -/
def SideEffectFreeAt (r : RegistryId) (w : World) (n : ℕ) : Prop :=
  ∀ d e, (w.registry r).find? d.name = some e →
    ∀ v, (e.ask (invoke n) r v (.descriptor d)).Quiet w

lemma SideEffectFree.at (h : SideEffectFree r w) (n : ℕ) : SideEffectFreeAt r w n :=
  fun d e he => h d e he n

/-- An entry whose predicate has no side effects. -/
lemma quiet_holds {e : Entry} {d : Descriptor} {v : Value}
    (h : (e.ask (invoke n) r v (.descriptor d)).Quiet w) :
    (Registry.holds (invoke n) r e d v).Quiet w := trait_holds h

lemma quiet_resolve : (resolve r (.text text)).Quiet w := trait_resolve

namespace SideEffectFreeAt

/-- Without depth nothing happens. -/
lemma zero : SideEffectFreeAt r w 0 := fun _ _ _ _ => quiet_exhausted

variable (h : SideEffectFreeAt r w n)

include h

lemma asked (d : Descriptor) : Asked @Quiet r w n d := h d

lemma tested (text : String) : Tested @Quiet r w n text := fun d _ => h d

lemma «matches» (d : Descriptor) (v : Value) :
    (Registry.matches (invoke n) r (.descriptor d) v).Quiet w := trait_matches (h.asked d)

lemma accepts (d : Descriptor) (v : Value) : (Registry.accepts (invoke n) r d v).Quiet w :=
  trait_accepts (h.asked d)

lemma isMember (text : String) (v : Value) : (Registry.isMember (invoke n) r text v).Quiet w :=
  trait_isMember (h.tested text)

end SideEffectFreeAt

end Registry

/-! ### Checks of calls -/

open Act

namespace Enforcer

variable {r : RegistryId} {w : World} {n : ℕ} {target : Signed} {args : List Value}
  {kw : Call.Keywords Value}

/-- The check of a call's values has no side effects. -/
lemma quiet_checkValues (h : Registry.SideEffectFreeAt r w n) :
    (checkValues (invoke n) r target args kw).Quiet w := trait_checkValues fun d _ => h.asked d

/-- The check of a call's result has no side effects. -/
lemma quiet_checkResult (h : Registry.SideEffectFreeAt r w n) (result : Value) :
    (checkResult (invoke n) r target result).Quiet w := trait_checkResult (h.tested _) result

end Enforcer

/-! ### The library -/

section library

open Registry

variable {r : RegistryId} {w : World} {n : ℕ} {d : Descriptor} {v : Value}

namespace NativePredicate

/-- The depth that is left for the parts of a value: without any, calls end as they do at the next
one, unless they run out of depth. -/
lemma exists_lower (h : ∀ m < n, SideEffectFreeAt r w m) :
    ∃ m, SideEffectFreeAt r w m ∧ Invoke.Related Approximates (invoke n) (invoke (m + 1)) := by
  rcases n with _ | n
  · exact ⟨0, .zero, invoke_approximates (Nat.zero_le 1)⟩
  · exact ⟨n, h n n.lt_succ_self, invoke_approximates le_rfl⟩

/-- Testing a part of a value asks the registry at a lower depth. -/
lemma quiet_test (h : ∀ m < n, SideEffectFreeAt r w m) (text : String) (v : Value) :
    (test (invoke n) (membershipTest r) text v).Quiet w := by
  obtain ⟨m, hm, hrelated⟩ := exists_lower h
  exact Quiet.of_approximates (trait_test (hm.tested text)) (congr_test hrelated _ _ _)

lemma quiet_truth {x : Act Value} (h : x.Quiet w) : (truth x).Quiet w := trait_truth h

/-- The predicates of the library have no side effects if the types that they test parts for have
none. -/
lemma quiet_answer (h : ∀ m < n, SideEffectFreeAt r w m) (p : NativePredicate) :
    (p.answer (invoke n) v (.descriptor d) (membershipTest r)).Quiet w := by
  obtain ⟨m, hm, hrelated⟩ := exists_lower h
  exact Quiet.of_approximates (trait_answer p fun t _ => hm.tested t)
    (congr_answer hrelated _ _ _ _)

end NativePredicate

namespace Registry

/-- A predicate that has no side effects in any world. -/
def Inert (r : RegistryId) (p : Value) : Prop :=
  ∀ n v d w, (invoke n p ([v, .descriptor d, membershipTest r].take p.predicateArity) []).Quiet w

/-- A predicate of the library, or one that never has side effects. -/
def Harmless (r : RegistryId) (p : Value) : Prop := (∃ q, p = predicate q) ∨ Inert r p

/-- Entries with a harmless predicate, as it is or enforced with a contract. -/
inductive HarmlessEntry (r : RegistryId) : Entry → Prop
  | plain (name chain : String) {p : Value} : Harmless r p →
    HarmlessEntry r ⟨name, p, chain, p.predicateArity⟩
  | enforced (name chain raw : String) (t : Tree) {f : Function} : Harmless r (.function f) →
    HarmlessEntry r (newEntry chain name
      (.function (.signed (.enforced (.plain f t raw .null true) r))))

/-- A harmless predicate is given as many arguments as it takes. -/
lemma quiet_harmless (h : ∀ m < n, SideEffectFreeAt r w m) {p : Value} (hp : Harmless r p) :
    (invoke n p ([v, .descriptor d, membershipTest r].take p.predicateArity) []).Quiet w := by
  rcases hp with ⟨q, rfl⟩ | hp
  · rcases n with _ | n
    · exact quiet_exhausted
    · rw [invoke_predicate]
      exact q.quiet_answer fun m hm => h m (Nat.lt_succ_of_lt hm)
  · exact hp n v d w

/-- An enforced predicate is checked and called at lower depths. -/
lemma quiet_enforced (h : ∀ m < n, SideEffectFreeAt r w m) {f : Function}
    (hf : Harmless r (.function f)) (t : Tree) (raw : String) :
    (invoke n (.function (.signed (.enforced (.plain f t raw .null true) r)))
      ([v, .descriptor d, membershipTest r].take (Value.function f).predicateArity) []).Quiet
        w := by
  rcases n with _ | n
  · exact quiet_exhausted
  have hn : SideEffectFreeAt r w n := h n n.lt_succ_self
  refine Enforcer.trait_enforced (fun d _ => hn.asked d) (hn.tested _) ?_
  rcases n with _ | n
  · exact quiet_exhausted
  · rw [Enforcer.invoke_plain n rfl]
    exact quiet_harmless (fun m hm => h m (by omega)) hf

/-- **A registry of harmless predicates has no side effects.** -/
lemma sideEffectFree_of_harmless (h : ∀ e ∈ (w.registry r).entries, HarmlessEntry r e) :
    SideEffectFree r w := by
  suffices hat : ∀ n, SideEffectFreeAt r w n from fun d e he n => hat n d e he
  intro n
  -- by induction on the depth: a composite type asks for the types of the parts at a lower one
  induction n using Nat.strong_induction_on with
  | _ n ih =>
    intro d e he v
    cases h e (List.mem_of_find?_eq_some he) with
    | plain name chain hp => exact quiet_harmless ih hp
    | enforced name chain raw t hf =>
      rw [Entry.ask, Entry.arguments, newEntry, predicateArity_enforced]
      exact quiet_enforced ih hf t raw

/-- Entries with a predicate of the library, as it is or enforced against a parent. -/
inductive Stock (r : RegistryId) : Entry → Prop
  | native (name chain : String) (p : NativePredicate) :
    Stock r ⟨name, predicate p, chain, (predicate p).predicateArity⟩
  | refinement (chain name parent : String) (p : NativePredicate) :
    Stock r (newEntry chain name (refinementPredicate r parent (.predicate p)))

lemma Stock.harmless {e : Entry} (h : Stock r e) : HarmlessEntry r e := by
  cases h with
  | native name chain p => exact .plain name chain (.inl ⟨p, rfl⟩)
  | refinement chain name parent p => exact .enforced name chain _ _ (.inl ⟨p, rfl⟩)

/-- **The types of the library have no side effects.** -/
lemma sideEffectFree_of_stock (h : ∀ e ∈ (w.registry r).entries, Stock r e) :
    SideEffectFree r w :=
  sideEffectFree_of_harmless fun e he => (h e he).harmless

/-- The base types have no side effects. -/
lemma sideEffectFree_of_base (hbase : w.registry r = base) : SideEffectFree r w := by
  refine sideEffectFree_of_stock fun e he => ?_
  rw [hbase] at he
  obtain ⟨t, -, rfl⟩ := List.mem_map.1 he
  exact .native _ _ _

end Registry

end library

end CallContracts
