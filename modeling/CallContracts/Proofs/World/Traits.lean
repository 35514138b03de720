import CallContracts.Proofs.World.Matching
import CallContracts.Proofs.World.Moves

/-!
Traits of computations.

What is known of a computation from one world is often found step by step: it holds of whatever
leaves the world as it is and shows nothing, and it holds of a sequence if it holds of the steps.

* `Act.Trait`: the laws of such a property;
* `Act.Inspects.trait`: what looks at the heap and the host alone has every trait;
* `Act.trait_all` and `Act.trait_any`: so has a question about the items of a list, if the question
  about each item has it.
-/

namespace CallContracts

/-- A property of computations from one world that all ways to build a computation keep. -/
class Act.Trait (P : ∀ ⦃α : Type⦄, Act α → World → Prop) : Prop where
  /-- It depends on what the computation does in this world alone. -/
  of_eq {α : Type} {x y : Act α} {w : World} : x w = y w → P x w → P y w
  /-- It holds of what ends in the same world, whatever is written to the log. -/
  of_ends {α : Type} {x : Act α} {w : World} (ends : Except Fault α) (es : List Event) :
    x w = ⟨ends.mapError .fault, w, es⟩ → es.filterMap Event.traced? = [] → P x w
  /-- A second step is only asked after what the first one returns. -/
  bind {α β : Type} {x : Act α} {f : α → Act β} {w : World} :
    P x w → (∀ a, (x w).outcome = .ok a → P (f a) w) → P (x >>= f) w
  attempt {α : Type} {x : Act α} {w : World} : P x w → P (attempt x) w

namespace Act

section traits

variable {P : ∀ ⦃α : Type⦄, Act α → World → Prop} [Trait P] {α β : Type} {x : Act α}
  {f : α → Act β} {g : α → Act Bool} {w : World} {as : List α}

lemma trait_pure (a : α) : P (pure a) w := Trait.of_ends (.ok a) [] rfl rfl

lemma trait_throw (e : Fault) : P (throw e : Act α) w := Trait.of_ends (.error e) [] rfl rfl

lemma trait_log (e : Record) : P (log e) w := Trait.of_ends (.ok ()) [.record e] rfl rfl

/-- What looks at the heap and the host alone. -/
lemma Inspects.trait (h : Inspects x) : P x w := by
  obtain ⟨ends, hends⟩ := h
  exact Trait.of_ends (ends w.host w.heap) [] (hends w) rfl

lemma trait_heap : P heap w := inspects_heap.trait

lemma trait_bind (hx : P x w) (hf : ∀ a, (x w).outcome = .ok a → P (f a) w) : P (x >>= f) w :=
  Trait.bind hx hf

lemma trait_attempt (hx : P x w) : P (attempt x) w := Trait.attempt hx

/-- Something is asked of the items of a list, up to the first that it does not hold of. -/
lemma trait_all (h : ∀ a ∈ as, P (g a) w) : P (all g as) w := by
  induction as with
  | nil => exact trait_pure true
  | cons a as ih =>
    rw [List.forall_mem_cons] at h
    refine trait_bind h.1 fun b _ => ?_
    split_ifs
    · exact ih h.2
    · exact trait_pure false

/-- The same up to the first item that it holds of. -/
lemma trait_any (h : ∀ a ∈ as, P (g a) w) : P (any g as) w := by
  induction as with
  | nil => exact trait_pure false
  | cons a as ih =>
    rw [List.forall_mem_cons] at h
    refine trait_bind h.1 fun b _ => ?_
    split_ifs
    · exact trait_pure true
    · exact ih h.2

end traits

end Act

end CallContracts
