import CallContracts.Proofs.Registry.Registering

/-!
Registries over time.

* `World.History`: the worlds that a program can reach from one, by any calls and by any changes to
  everything but the registries;
* `World.History.extends`: along a history registries only grow, by induction on it;
* `Registry.Taken`: a name that no registering function can register any more;
* `Registry.append_only`: **registries are append-only and registering is atomic**.
-/

namespace CallContracts

namespace World

/-! ### Histories -/

/-- The worlds that a program can reach: it calls whatever it likes, and in between anything may
change but the registries that are there. -/
inductive History : World → World → Prop
  | refl {w : World} : History w w
  | call {w w' : World} (n : Nat) (v : Value) (args : List Value) (kw : Call.Keywords Value) :
    History w w' → History w (invoke n v args kw w').world
  | other {w w' w'' : World} :
    History w w' → w'.registries <+: w''.registries → History w w''

/-- No registry goes away. -/
def Keeps (w w' : World) : Prop := w.registries.length ≤ w'.registries.length

instance : IsMove Keeps where
  refl _ := Nat.le_refl _
  trans h h' := Nat.le_trans h h'
  frame h _ := Nat.le_of_eq (congrArg List.length h).symm
  register _ := Nat.le_of_eq (Registry.length_setRegistry _ _ _).symm

variable {w w' : World}

lemma extends_of_registries (h : w.registries <+: w'.registries) : w.Extends w' := by
  obtain ⟨more, hmore⟩ := h
  intro r
  by_cases hr : r < w.registries.length
  · simp [registry, ← hmore, List.getElem?_append_left hr]
  · have hnone : w.registries[r]? = none := List.getElem?_eq_none (Nat.le_of_not_lt hr)
    simp [registry, hnone, Registry.empty]

/-- **Along a history registries only grow.** -/
lemma History.extends (h : w.History w') : w.Extends w' := by
  induction h with
  | refl => exact .refl _
  | call n v args kw _ ih => exact ih.trans (invoke_extends n v args kw _)
  | other _ hprefix ih => exact ih.trans (extends_of_registries hprefix)

lemma History.trans {w'' : World} (h : w.History w') (h' : w'.History w'') : w.History w'' := by
  induction h' with
  | refl => exact h
  | call n v args kw _ ih => exact ih.call n v args kw
  | other _ hprefix ih => exact ih.other hprefix

lemma History.keeps (h : w.History w') : w.Keeps w' := by
  induction h with
  | refl => exact IsMove.refl _
  | call n v args kw _ ih => exact IsMove.trans ih (moves_invoke n v args kw _)
  | other _ hprefix ih => exact IsMove.trans ih hprefix.length_le

/-- One registry has one more entry at its end, and the others are as they were. -/
structure AddsOne (r : RegistryId) (e : Entry) (w w' : World) : Prop where
  entries : (w'.registry r).entries = (w.registry r).entries ++ [e]
  others : ∀ r', r' ≠ r → w'.registry r' = w.registry r'

lemma addsOne_setRegistry {r : RegistryId} {e : Entry} {reg : Registry}
    (hr : r < w.registries.length) (hreg : (w.registry r).insert? e = some reg) :
    w.AddsOne r e (w.setRegistry r reg) where
  entries := by rw [registry_setRegistry, if_pos ⟨rfl, hr⟩, Registry.entries_insert? hreg]
  others r' hr' := by rw [registry_setRegistry, if_neg fun h => hr' h.1.symm]

end World

namespace Registry

open World

variable {r : RegistryId} {w w' : World} {name : String}

/-! ### Names that are taken -/

/-- The name that a call of a registering function asks for. -/
def requestedName? (f : Function) (args : List Value) (kw : Call.Keywords Value) :
    Option String :=
  match Call.bind (f.parameters?.getD []) args kw with
  | some (.given name :: _) => name.text?
  | _ => none

/-- A name that no registering function registers any more. -/
def Taken (r : RegistryId) (name : String) (w : World) : Prop :=
  ∀ w', w.History w' → ∀ f, Registers r f → ∀ n args kw v, requestedName? f args kw = some name →
    (invoke n (.function f) args kw w').outcome ≠ .ok v

lemma requestedName?_of_bind {f : Function} {args : List Value} {kw : Call.Keywords Value}
    {slots : List (Slot Value)}
    (h : Call.bind (f.parameters?.getD []) args kw = some (.given (.text name) :: slots)) :
    requestedName? f args kw = some name := by
  rw [requestedName?, h]
  rfl

/-- A name that is registered is taken. -/
lemma taken_of_contains (h : (w.registry r).contains name = true) : Taken r name w := by
  intro w' hw f hf n args kw v hname hok
  rcases registers_cases hf n args kw w' with
    ⟨stop, es, hstop⟩ | ⟨_, e, reg, es, hbind, -, -, hreg, -⟩
  · rw [hstop] at hok
    simp at hok
  · have hfree := insert?_isSome (r := w'.registry r) (e := e)
    obtain rfl : e.name = name :=
      Option.some.inj ((requestedName?_of_bind hbind).symm.trans hname)
    rw [hreg, hw.extends.contains h] at hfree
    simp at hfree

/-! ### The law -/

/-- **Registries are append-only and registering is atomic.** Along every history an entry keeps its
place and is found under its name. A registering function, in whichever way it registers, leaves the
world as it is if it stops; if it returns, it has added one entry at the end of its registry, under
the requested name, and from then on no registering function returns for this name. -/
theorem append_only (h : w.History w') (hr : r < w.registries.length) :
    (∀ (i : Nat) e, (w.registry r).entries[i]? = some e → (w'.registry r).entries[i]? = some e) ∧
    (∀ name e, (w.registry r).find? name = some e → (w'.registry r).find? name = some e) ∧
    ∀ f, Registers r f → ∀ n args kw,
      (∀ stop, (invoke n (.function f) args kw w').outcome = .error stop →
        (invoke n (.function f) args kw w').world = w') ∧
      ∀ v, (invoke n (.function f) args kw w').outcome = .ok v →
        ∃ e, requestedName? f args kw = some e.name ∧
          w'.AddsOne r e (invoke n (.function f) args kw w').world ∧
          Taken r e.name (invoke n (.function f) args kw w').world := by
  refine ⟨fun i e hi => ?_, fun name e => h.extends.find?, fun f hf n args kw => ?_⟩
  · obtain ⟨more, hmore⟩ := h.extends r
    obtain ⟨hlt, -⟩ := List.getElem?_eq_some_iff.1 hi
    rw [← hmore, List.getElem?_append_left hlt, hi]
  · rcases registers_cases hf n args kw w' with
      ⟨stop, es, hstop⟩ | ⟨_, e, reg, es, hbind, -, -, hreg, hok⟩
    · rw [hstop]
      exact ⟨fun _ _ => rfl, by simp⟩
    · rw [hok]
      refine ⟨by simp, fun v _ => ⟨e, requestedName?_of_bind hbind, ?_, ?_⟩⟩
      · exact addsOne_setRegistry (Nat.lt_of_lt_of_le hr h.keeps) hreg
      · refine taken_of_contains ?_
        have hr' : r < w'.registries.length := Nat.lt_of_lt_of_le hr h.keeps
        rw [registry_setRegistry, if_pos ⟨rfl, hr'⟩, contains, find?_insert? hreg, if_pos rfl]
        rfl

/-- A base type that is registered is the last entry, and nobody registers its name again. -/
theorem append_only_extend :
    0 < world.registries.length ∧
      ∃ e, e.name = "x" ∧
        world.AddsOne 0 e (invoke 1 (.function (.operation 0 .extend))
          [.text "x", predicate .isNone] [] world).world ∧
        Taken 0 "x" (invoke 1 (.function (.operation 0 .extend))
          [.text "x", predicate .isNone] [] world).world := by
  obtain ⟨-, -, hstep⟩ := append_only (r := 0) (w := world) .refl (by decide)
  obtain ⟨-, hok⟩ := hstep _ .base 1 [.text "x", predicate .isNone] []
  obtain ⟨e, hname, hadds, htaken⟩ := hok .null rfl
  have hx : e.name = "x" := (Option.some.inj hname).symm
  exact ⟨by decide, e, hx, hadds, hx ▸ htaken⟩

end Registry

end CallContracts
