import CallContracts.Proofs.World.Outcomes

/-!
Worlds that differ in the order of registrations alone.

* `World.Agrees`: two worlds hold the same types under the same names, and all else is the same;
* `Act.Agree`: from worlds that agree, two computations end the same way, show the same and leave
  worlds that agree; `Act.Agree.bind` and `Act.Agree.attempt`, all ways to build a computation keep
  this;
* `Act.agree_registry_bind`: what looks types up by their names cannot tell such worlds apart.
-/

namespace CallContracts

/-! ### Registries that hold the same types -/

namespace Registry

variable {reg reg' : Registry}

lemma contains_congr (h : ∀ name, reg.find? name = reg'.find? name) :
    reg.contains = reg'.contains := by
  funext name
  rw [contains, contains, h]

lemma typeChain_congr (h : ∀ name, reg.find? name = reg'.find? name) :
    reg.typeChain = reg'.typeChain := by
  funext name
  rw [typeChain, typeChain, h]

/-- A type is registered in two registries that hold the same types, or in neither. -/
lemma insert?_congr {reg reg' : Registry} (h : ∀ name, reg.find? name = reg'.find? name)
    (e : Entry) : reg.insert? e = none ∧ reg'.insert? e = none ∨
      ∃ s s', reg.insert? e = some s ∧ reg'.insert? e = some s' ∧
        ∀ name, s.find? name = s'.find? name := by
  have hsome : (reg.insert? e).isSome = (reg'.insert? e).isSome := by
    rw [insert?_isSome, insert?_isSome, contains_congr h]
  rcases hs : reg.insert? e with _ | s
  · rw [hs, Option.isSome_none, eq_comm, Option.isSome_eq_false_iff, Option.isNone_iff_eq_none]
      at hsome
    exact .inl ⟨rfl, hsome⟩
  · rw [hs, Option.isSome_some, eq_comm, Option.isSome_iff_exists] at hsome
    obtain ⟨s', hs'⟩ := hsome
    refine .inr ⟨s, s', rfl, hs', fun name => ?_⟩
    rw [find?_insert? hs, find?_insert? hs', h]

end Registry

/-! ### Agreement -/

/-- Two worlds that differ in the order of registrations alone. -/
structure World.Agrees (w w' : World) : Prop where
  length : w.registries.length = w'.registries.length
  find? : ∀ r name, (w.registry r).find? name = (w'.registry r).find? name
  heap : w.heap = w'.heap
  bindings : w.bindings = w'.bindings
  serial : w.serial = w'.serial
  host : w.host = w'.host

/-- Two results that differ in the order of registrations alone. -/
structure Result.Agrees {α : Type} (x y : Result α) : Prop where
  outcome : x.outcome = y.outcome
  world : x.world.Agrees y.world
  events : x.events = y.events

/-- From worlds that agree, two computations have results that agree. -/
def Act.Agree ⦃α : Type⦄ (x y : Act α) : Prop := ∀ w w', w.Agrees w' → (x w).Agrees (y w')

namespace World.Agrees

variable {w w' : World}

/-- The same type is registered in both. -/
lemma setRegistry (h : w.Agrees w') {r : RegistryId} {reg reg' : Registry}
    (hreg : ∀ name, reg.find? name = reg'.find? name) :
    (w.setRegistry r reg).Agrees (w'.setRegistry r reg') where
  length := by simpa [World.setRegistry] using h.length
  find? r' name := by
    simp only [World.registry, World.setRegistry]
    by_cases hr : r = r'
    · subst hr
      by_cases hlt : r < w.registries.length
      · simp [hlt, h.length ▸ hlt, hreg]
      · simp [hlt, h.length ▸ hlt]
    · rw [List.getElem?_set_ne hr, List.getElem?_set_ne hr]
      exact h.find? r' name
  heap := h.heap
  bindings := h.bindings
  serial := h.serial
  host := h.host

end World.Agrees

namespace Act

variable {α β : Type} {x y : Act α} {f g : α → Act β}

/-- What asks nothing of a world and leaves it as it is. -/
lemma agree_of_const {o : Except Stop α} {es : List Event} (h : ∀ w, x w = ⟨o, w, es⟩) :
    Agree x x := by
  intro w w' hw
  rw [h, h]
  exact ⟨rfl, hw, rfl⟩

lemma Agree.bind (hxy : Agree x y) (hfg : ∀ a, Agree (f a) (g a)) :
    Agree (x >>= f) (y >>= g) := by
  intro w w' hw
  obtain ⟨houtcome, hworld, hevents⟩ := hxy w w' hw
  rcases hx : x w with ⟨stop | a, w₁, es⟩
  · rcases hy : y w' with ⟨stop' | b, w₂, es'⟩
    · rw [bind_of_error hx, bind_of_error hy]
      rw [hx, hy] at houtcome hworld hevents
      exact ⟨congrArg Except.error (Except.error.inj houtcome), hworld, hevents⟩
    · rw [hx, hy] at houtcome
      simp at houtcome
  · rcases hy : y w' with ⟨stop' | b, w₂, es'⟩
    · rw [hx, hy] at houtcome
      simp at houtcome
    · rw [hx, hy] at houtcome hworld hevents
      obtain rfl : a = b := Except.ok.inj houtcome
      obtain rfl : es = es' := hevents
      obtain ⟨houtcome', hworld', hevents'⟩ := hfg a w₁ w₂ hworld
      rw [bind_of_ok hx, bind_of_ok hy]
      exact ⟨houtcome', hworld', congrArg (es ++ ·) hevents'⟩

lemma Agree.attempt (hxy : Agree x y) : Agree (attempt x) (attempt y) := by
  intro w w' hw
  obtain ⟨houtcome, hworld, hevents⟩ := hxy w w' hw
  rcases hx : x w with ⟨(e | -) | a, w₁, es⟩
  · rcases hy : y w' with ⟨_, w₂, es'⟩
    rw [hx, hy] at houtcome hworld hevents
    obtain rfl := houtcome
    rw [attempt_of_fault hx, attempt_of_fault hy]
    exact ⟨rfl, hworld, hevents⟩
  · rcases hy : y w' with ⟨_, w₂, es'⟩
    rw [hx, hy] at houtcome hworld hevents
    obtain rfl := houtcome
    rw [attempt_of_exhausted hx, attempt_of_exhausted hy]
    exact ⟨rfl, hworld, hevents⟩
  · rcases hy : y w' with ⟨_, w₂, es'⟩
    rw [hx, hy] at houtcome hworld hevents
    obtain rfl := houtcome
    rw [attempt_of_ok hx, attempt_of_ok hy]
    exact ⟨rfl, hworld, hevents⟩

/-- What reads the world as it is, and agrees on worlds that agree. -/
lemma agree_world_bind {f : World → Act β}
    (h : ∀ w w', w.Agrees w' → (f w w).Agrees (f w' w')) : Agree (world >>= f) (world >>= f) := by
  intro w w' hw
  have hworld : ∀ w, world w = ⟨.ok w, w, []⟩ := fun _ => rfl
  rw [bind_of_pure (hworld w), bind_of_pure (hworld w')]
  exact h w w' hw

/-- What looks types up by their names cannot tell worlds apart that agree. -/
lemma agree_registry_bind {r : RegistryId} {f : Registry → Act β}
    (h : ∀ reg reg', (∀ name, reg.find? name = reg'.find? name) → f reg = f reg')
    (hf : ∀ reg, Agree (f reg) (f reg)) : Agree (registry r >>= f) (registry r >>= f) := by
  intro w w' hw
  have hregistry : ∀ w, registry r w = ⟨.ok (w.registry r), w, []⟩ := fun _ => rfl
  rw [bind_of_pure (hregistry w), bind_of_pure (hregistry w'), h _ _ (hw.find? r)]
  exact hf _ w w' hw

end Act

end CallContracts
