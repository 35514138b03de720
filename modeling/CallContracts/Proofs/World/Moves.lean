import CallContracts.Proofs.World.Agreement

/-!
What a computation can do to a world.

* `Act.Steady x`: from every world, the computation `x` ends in the world that it started from, and
  it cannot tell in which order types were registered;
* `Act.Inspects x`: the computation `x` looks at the heap and asks the host, and shows nothing;
* `World.IsMove R`: the relation `R` holds across every change of the heap, the variables and the
  serial numbers, across every registration, and across nothing and one change after another;
* `Act.Moves R x`: from every world, the computation `x` ends in a world that `R` relates to it;
* `Act.Basic x`: the computation `x` moves worlds along each such relation, and cannot tell in which
  order types were registered;
* `Act.Congruence S`: the relation `S` between computations holds of every basic computation and
  itself, and all ways to build a computation keep it. Moving along `R` is such a relation, and so
  is agreement, so what is proved of calls for each of them is proved of both;
* `World.Extends`, the registries only grow, is a move, and `World.Extends.find?` says that what was
  registered stays; so is `World.SameHost`, the host stays as it is.
-/

namespace CallContracts

/-! ### Relations between worlds -/

/-- A relation that holds across everything a computation can do to a world. -/
class World.IsMove (R : World → World → Prop) : Prop where
  refl (w : World) : R w w
  trans {w w' w'' : World} : R w w' → R w' w'' → R w w''
  /-- The registries and the host stay as they are. -/
  frame {w w' : World} : w'.registries = w.registries → w'.host = w.host → R w w'
  /-- One registry gets one more entry. -/
  register {w : World} {r : RegistryId} {e : Entry} {reg : Registry} :
    (w.registry r).insert? e = some reg → R w (w.setRegistry r reg)

/-- A computation leaves a world that is related to the one it started from. -/
def Act.Moves (R : World → World → Prop) {α : Type} (x : Act α) : Prop := ∀ w, R w (x w).world

/-- A computation leaves the world that it started from, and asks for types by their names only. -/
structure Act.Steady {α : Type} (x : Act α) : Prop where
  world : ∀ w, (x w).world = w
  agree : Agree x x

/-- A computation looks at the heap and asks the host, which decide with what result or fault it
ends; it leaves the world as it is and shows nothing. -/
def Act.Inspects {α : Type} (x : Act α) : Prop :=
  ∃ ends : Host → Heap → Except Fault α, ∀ w, x w = ⟨(ends w.host w.heap).mapError .fault, w, []⟩

/-- A computation does to a world what all computations do, and asks for types by their names
only. -/
structure Act.Basic {α : Type} (x : Act α) : Prop where
  moves (R : World → World → Prop) [World.IsMove R] : Act.Moves R x
  agree : Agree x x

/-- A relation between computations that all ways to build a computation keep. -/
class Act.Congruence (S : ∀ ⦃α : Type⦄, Act α → Act α → Prop) : Prop where
  /-- What makes no call is related to itself. -/
  refl_of_basic {α : Type} {x : Act α} : Act.Basic x → S x x
  bind {α β : Type} {x y : Act α} {f g : α → Act β} :
    S x y → (∀ a, S (f a) (g a)) → S (x >>= f) (y >>= g)
  attempt {α : Type} {x y : Act α} : S x y → S (attempt x) (attempt y)

namespace Act

open World

variable {α β : Type}

/-! ### Steady computations -/

/-- What asks nothing of a world and leaves it as it is. -/
lemma steady_of_const {x : Act α} {o : Except Stop α} {es : List Event}
    (h : ∀ w, x w = ⟨o, w, es⟩) : Steady x where
  world w := by rw [h]
  agree := agree_of_const h

lemma steady_pure (a : α) : Steady (pure a : Act α) := steady_of_const fun _ => rfl

lemma steady_throw (f : Fault) : Steady (throw f : Act α) := steady_of_const fun _ => rfl

lemma steady_mishap (m : Mishap) : Steady (mishap m : Act α) := steady_throw _

lemma steady_refuse (e : Refusal) : Steady (refuse e : Act α) := steady_throw _

lemma steady_exhausted : Steady (exhausted : Act α) := steady_of_const fun _ => rfl

lemma steady_emit (e : Event) : Steady (emit e) := steady_of_const fun _ => rfl

lemma steady_log (e : Record) : Steady (log e) := steady_emit _

lemma world_bind {x : Act α} {f : α → Act β} (hx : ∀ w, (x w).world = w)
    (hf : ∀ a w, (f a w).world = w) (w : World) : ((x >>= f) w).world = w := by
  have hw := hx w
  simp only [bind, Act.bind]
  split
  · exact hw
  · rw [hf _ _]
    exact hw

lemma steady_bind {x : Act α} {f : α → Act β} (hx : Steady x) (hf : ∀ a, Steady (f a)) :
    Steady (x >>= f) where
  world := world_bind hx.world fun a => (hf a).world
  agree := hx.agree.bind fun a => (hf a).agree

lemma steady_orSignatureFault (a : Except SignatureFault α) : Steady (orSignatureFault a) := by
  cases a with
  | error e => exact steady_throw _
  | ok a => exact steady_pure a

/-- What reads a variable of the session. -/
lemma steady_bindings_bind {f : List (String × Value) → Act β} (hf : ∀ bs, Steady (f bs)) :
    Steady (world >>= fun w => f w.bindings) where
  world := world_bind (fun _ => rfl) fun w => (hf w.bindings).world
  agree := agree_world_bind fun w w' hw => by
    rw [hw.bindings]
    exact (hf _).agree w w' hw

/-- What looks types up by their names. -/
lemma steady_registry_bind {r : RegistryId} {f : Registry → Act β}
    (h : ∀ reg reg', (∀ name, reg.find? name = reg'.find? name) → f reg = f reg')
    (hf : ∀ reg, Steady (f reg)) : Steady (registry r >>= f) where
  world := world_bind (fun _ => rfl) fun reg => (hf reg).world
  agree := agree_registry_bind h fun reg => (hf reg).agree

/-! ### Computations that look at the heap and the host alone -/

section inspects

lemma inspects_pure (a : α) : Inspects (pure a : Act α) := ⟨fun _ _ => .ok a, fun _ => rfl⟩

lemma inspects_throw (f : Fault) : Inspects (throw f : Act α) :=
  ⟨fun _ _ => .error f, fun _ => rfl⟩

lemma inspects_mishap (m : Mishap) : Inspects (mishap m : Act α) := inspects_throw _

lemma inspects_refuse (e : Refusal) : Inspects (refuse e : Act α) := inspects_throw _

lemma inspects_heap : Inspects heap := ⟨fun _ => .ok, fun _ => rfl⟩

lemma inspects_host : Inspects host := ⟨fun o _ => .ok o, fun _ => rfl⟩

lemma inspects_bind {x : Act α} {f : α → Act β} (hx : Inspects x) (hf : ∀ a, Inspects (f a)) :
    Inspects (x >>= f) := by
  obtain ⟨ends, hends⟩ := hx
  choose next hnext using hf
  refine ⟨fun o h => ends o h >>= fun a => next a o h, fun w => ?_⟩
  simp only [bind, Act.bind, hends]
  cases ends w.host w.heap with
  | error f => rfl
  | ok a => simp [hnext, Except.bind, Except.mapError]

lemma inspects_orMishap (m : Mishap) (a? : Option α) : Inspects (orMishap m a?) := by
  cases a? with
  | none => exact inspects_mishap m
  | some a => exact inspects_pure a

lemma Inspects.steady {x : Act α} (h : Inspects x) : Steady x where
  world w := by
    obtain ⟨ends, hends⟩ := h
    rw [hends]
  agree w w' hw := by
    obtain ⟨ends, hends⟩ := h
    rw [hends, hends, hw.heap, hw.host]
    exact ⟨rfl, hw, rfl⟩

lemma steady_heap : Steady heap := inspects_heap.steady

lemma steady_orMishap (m : Mishap) (a? : Option α) : Steady (orMishap m a?) :=
  (inspects_orMishap m a?).steady

end inspects

/-! ### Computations that move worlds -/

section moves

variable {R : World → World → Prop} [IsMove R]

lemma Steady.moves {x : Act α} (h : Steady x) : Moves R x := by
  intro w
  rw [h.world w]
  exact IsMove.refl w

lemma moves_bind {x : Act α} {f : α → Act β} (hx : Moves R x) (hf : ∀ a, Moves R (f a)) :
    Moves R (x >>= f) := by
  intro w
  simp only [bind, Act.bind]
  split
  · exact hx w
  · exact IsMove.trans (hx w) (hf _ _)

omit [IsMove R] in
lemma moves_attempt {x : Act α} (hx : Moves R x) : Moves R (attempt x) := by
  intro w
  simp only [attempt]
  split <;> exact hx w

instance : Congruence fun _ x _ => Moves R x where
  refl_of_basic h := h.moves R
  bind := moves_bind
  attempt := moves_attempt

end moves

instance : Congruence Agree where
  refl_of_basic h := h.agree
  bind := Agree.bind
  attempt := Agree.attempt

/-! ### Basic computations -/

lemma Steady.basic {x : Act α} (h : Steady x) : Basic x where
  moves _ _ := h.moves
  agree := h.agree

lemma basic_bind {x : Act α} {f : α → Act β} (hx : Basic x) (hf : ∀ a, Basic (f a)) :
    Basic (x >>= f) where
  moves R _ := moves_bind (hx.moves R) fun a => (hf a).moves R
  agree := hx.agree.bind fun a => (hf a).agree

lemma basic_ite {c : Prop} [Decidable c] {x y : Act α} (hx : Basic x) (hy : Basic y) :
    Basic (if c then x else y) := by
  split
  · exact hx
  · exact hy

/-- What looks types up by their names. -/
lemma basic_registry_bind {r : RegistryId} {f : Registry → Act β}
    (h : ∀ reg reg', (∀ name, reg.find? name = reg'.find? name) → f reg = f reg')
    (hf : ∀ reg, Basic (f reg)) : Basic (registry r >>= f) where
  moves R _ := moves_bind (fun w => IsMove.refl w) fun reg => (hf reg).moves R
  agree := agree_registry_bind h fun reg => (hf reg).agree

lemma basic_allocate (c : Cell) : Basic (allocate c) where
  moves _ _ _ := IsMove.frame rfl rfl
  agree := agree_world_bind fun w w' hw => by
    rw [hw.heap]
    exact ⟨rfl, ⟨hw.length, hw.find?, rfl, hw.bindings, hw.serial, hw.host⟩, rfl⟩

lemma basic_newList (items : List Value) : Basic (newList items) :=
  basic_bind (basic_allocate _) fun _ => (steady_pure _).basic

lemma basic_newDict (entries : List (Value × Value)) : Basic (newDict entries) :=
  basic_bind steady_heap.basic fun _ => basic_bind (basic_allocate _) fun _ =>
    (steady_pure _).basic

lemma basic_fresh : Basic fresh where
  moves _ _ _ := IsMove.frame rfl rfl
  agree := agree_world_bind fun w w' hw => by
    rw [hw.serial]
    exact ⟨rfl, ⟨hw.length, hw.find?, hw.heap, hw.bindings, rfl, hw.host⟩, rfl⟩

lemma basic_each {f : α → Act β} (hf : ∀ a, Basic (f a)) (as : List α) : Basic (each f as) := by
  induction as with
  | nil => exact (steady_pure _).basic
  | cons a as ih =>
    exact basic_bind (hf a) fun _ => basic_bind ih fun _ => (steady_pure _).basic

/-! ### Congruences -/

section congruences

variable {S : ∀ ⦃α : Type⦄, Act α → Act α → Prop} [Congruence S]

lemma Basic.congr {x : Act α} (h : Basic x) : S x x := Congruence.refl_of_basic h

lemma Steady.congr {x : Act α} (h : Steady x) : S x x := h.basic.congr

lemma congr_bind {x y : Act α} {f g : α → Act β} (hx : S x y) (hf : ∀ a, S (f a) (g a)) :
    S (x >>= f) (y >>= g) := Congruence.bind hx hf

lemma congr_attempt {x y : Act α} (h : S x y) : S (attempt x) (attempt y) := Congruence.attempt h

omit [Congruence S] in
lemma congr_ite {c : Prop} [Decidable c] {x y x' y' : Act α} (hx : S x x') (hy : S y y') :
    S (if c then x else y) (if c then x' else y') := by
  split
  · exact hx
  · exact hy

lemma congr_all {f g : α → Act Bool} (h : ∀ a, S (f a) (g a)) (as : List α) :
    S (all f as) (all g as) := by
  induction as with
  | nil => exact (steady_pure _).congr
  | cons a as ih =>
    refine congr_bind (h a) fun b => ?_
    cases b with
    | false => exact (steady_pure _).congr
    | true => exact ih

lemma congr_any {f g : α → Act Bool} (h : ∀ a, S (f a) (g a)) (as : List α) :
    S (any f as) (any g as) := by
  induction as with
  | nil => exact (steady_pure _).congr
  | cons a as ih =>
    refine congr_bind (h a) fun b => ?_
    cases b with
    | false => exact ih
    | true => exact (steady_pure _).congr

end congruences

end Act

/-! ### Growth -/

namespace World

/-- Every registry keeps its entries in their places and gets more at most at the end. -/
def Extends (w w' : World) : Prop :=
  ∀ r, (w.registry r).entries <+: (w'.registry r).entries

lemma registry_setRegistry (w : World) (r r' : RegistryId) (reg : Registry) :
    (w.setRegistry r reg).registry r' =
      if r = r' ∧ r < w.registries.length then reg else w.registry r' := by
  simp only [setRegistry, registry]
  by_cases hr : r = r'
  · subst hr
    by_cases hlt : r < w.registries.length
    · simp [hlt]
    · simp [hlt]
  · simp [hr, List.getElem?_set_ne hr]

instance : IsMove Extends where
  refl w r := List.prefix_refl _
  trans h h' r := (h r).trans (h' r)
  frame h _ r := by simp [registry, h]
  register {w r e reg} h r' := by
    rw [registry_setRegistry]
    split
    · next hr =>
      rw [← hr.1, Registry.entries_insert? h]
      exact List.prefix_append _ _
    · exact List.prefix_refl _

lemma Extends.refl (w : World) : w.Extends w := IsMove.refl w

lemma Extends.trans {w w' w'' : World} (h : w.Extends w') (h' : w'.Extends w'') :
    w.Extends w'' := IsMove.trans h h'

/-- What was registered stays, with the same entry. -/
lemma Extends.find? {w w' : World} (h : w.Extends w') {r : RegistryId} {name : String}
    {e : Entry} (he : (w.registry r).find? name = some e) :
    (w'.registry r).find? name = some e := by
  obtain ⟨es, hes⟩ := h r
  rw [Registry.find?] at he ⊢
  rw [← hes, List.find?_append, he]
  rfl

lemma Extends.contains {w w' : World} (h : w.Extends w') {r : RegistryId} {name : String}
    (hname : (w.registry r).contains name = true) :
    (w'.registry r).contains name = true := by
  obtain ⟨e, he⟩ := Option.isSome_iff_exists.1 hname
  exact Option.isSome_iff_exists.2 ⟨e, h.find? he⟩

/-! ### The host -/

/-- The host stays as it is. -/
def SameHost (w w' : World) : Prop := w'.host = w.host

instance : IsMove SameHost where
  refl _ := rfl
  trans h h' := h'.trans h
  frame _ h := h
  register _ := rfl

end World

end CallContracts
