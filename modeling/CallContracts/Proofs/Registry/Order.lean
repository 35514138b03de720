import CallContracts.Proofs.Enforcement.Levels
import CallContracts.Proofs.Registry.History
import CallContracts.Proofs.Registry.Membership

/-!
The order of registrations does not matter.

* `Registration`: a type that a program registers, in one of three ways, and
  `Registration.carryOut`, the calls that it makes for that;
* `Registration.added?`: the entry that a registration adds, as a function of the types that are
  found, which more of them do not change (`Registration.added?_mono`);
* `Registration.exists_of_returns`: a registration that succeeds adds this entry and nothing else;
* `Registration.Holds` and `Registration.included_of_run`: a run of registrations adds nothing but
  what a registry holds that has seen them all, by induction on the run;
* `Registry.order_irrelevant`: **two orders in which all registrations succeed** leave the same
  types under the same names, and no test tells them apart.
-/

namespace CallContracts

/-- A type that a program registers: a base type, another name for a type expression, or a
refinement of a type. -/
inductive Registration where
  | base (name : String) (predicate : Value)
  | synonym (name expression : String)
  | refinement (parent name : String) (predicate : Value)

namespace Registration

/-- The name that is registered. -/
def name : Registration → String
  | .base name _ => name
  | .synonym name _ => name
  | .refinement _ name _ => name

/-- The predicate that is registered. -/
def predicate? : Registration → Option Value
  | .base _ predicate => some predicate
  | .synonym _ _ => none
  | .refinement _ _ predicate => some predicate

/-- The calls that register a type: one operation of the registry, or for a refinement the operation
and what it returns. -/
def carryOut (n : Nat) (r : RegistryId) : Registration → Act Value
  | .base name predicate =>
    invoke n (.function (.operation r .extend)) [.text name, predicate] []
  | .synonym name expression =>
    invoke n (.function (.operation r .alias)) [.text name, .text expression] []
  | .refinement parent name predicate => do
    let binder ← invoke n (.function (.operation r .subtype)) [.text parent] []
    invoke n binder [.text name, predicate] []

/-- The entry that a registration adds, given what is found under the names that it looks up. -/
def added? (r : RegistryId) (find? : String → Option Entry) : Registration → Option Entry
  | .base name predicate => some (Registry.newEntry Registry.topName name predicate)
  | .synonym name expression =>
    match Descriptor.parse expression with
    | .error _ => none
    | .ok d => (find? d.name).map fun e =>
      Registry.newEntry e.chain name (.function (.tester r e d))
  | .refinement parent name predicate =>
    match predicate, Tree.parse none (Registry.refinementContract parent) with
    | .function f, .ok t => (find? parent).map fun e =>
      Registry.newEntry e.chain name (.function (.signed (.enforced
        (.plain f t (Registry.refinementContract parent) .null true) r)))
    | _, _ => none

variable {r : RegistryId} {o : Registration} {e : Entry} {w w' : World} {u : Value} {n : Nat}

/-- More types do not change what a registration adds. -/
lemma added?_mono {find? find?' : String → Option Entry}
    (h : ∀ name e, find? name = some e → find?' name = some e)
    (he : o.added? r find? = some e) : o.added? r find?' = some e := by
  cases o with
  | base name predicate => exact he
  | synonym name expression =>
    simp only [added?] at he ⊢
    split at he
    · simp at he
    · next d _ =>
      obtain ⟨p, hp, rfl⟩ := Option.map_eq_some_iff.1 he
      rw [h _ _ hp]
      rfl
  | refinement parent name predicate =>
    simp only [added?] at he ⊢
    split at he
    · obtain ⟨p, hp, rfl⟩ := Option.map_eq_some_iff.1 he
      rw [h _ _ hp]
      rfl
    · simp at he

lemma name_eq_of_added? {find? : String → Option Entry} (he : o.added? r find? = some e) :
    e.name = o.name := by
  cases o with
  | base name predicate =>
    obtain rfl := Option.some.inj he
    rfl
  | synonym name expression =>
    simp only [added?] at he
    split at he
    · simp at he
    · obtain ⟨p, -, rfl⟩ := Option.map_eq_some_iff.1 he
      rfl
  | refinement parent name predicate =>
    simp only [added?] at he
    split at he
    · obtain ⟨p, -, rfl⟩ := Option.map_eq_some_iff.1 he
      rfl
    · simp at he

/-- What a registering function adds if it returns. -/
lemma exists_adds {f : Function} {s : String} {v : Value} (hf : Registry.Registers r f)
    (h : (invoke n (.function f) [.text s, v] []).Returns w u w') : ∃ e reg,
    Registry.Adds r w f s v e ∧ (w.registry r).insert? e = some reg ∧ w' = w.setRegistry r reg := by
  have hpair : Call.bind (f.parameters?.getD []) [.text s, v] [] =
      some [.given (.text s), .given v] := by cases hf <;> rfl
  exact hf.exists_adds hpair h

/-- What `subtype` returns is the function that registers refinements of a registered type. -/
lemma exists_of_returns_subtype {parent : String}
    (h : (invoke n (.function (.operation r .subtype)) [.text parent] []).Returns w u w') :
    ∃ e, (w.registry r).find? parent = some e ∧ u = .function (.binder r parent) ∧ w' = w := by
  rcases n with _ | n
  · exact absurd h Act.not_returns_exhausted
  obtain ⟨hcontains, rfl, rfl⟩ := Registry.returns_subtype_iff.1 h
  obtain ⟨e, he⟩ := Option.isSome_iff_exists.1 hcontains
  exact ⟨e, he, rfl, rfl⟩

/-- **A registration that succeeds** adds its entry and nothing else. -/
lemma exists_of_returns (h : (o.carryOut n r).Returns w u w') : ∃ e reg,
    o.added? r (w.registry r).find? = some e ∧ (w.registry r).insert? e = some reg ∧
      w' = w.setRegistry r reg := by
  cases o with
  | base name predicate =>
    obtain ⟨e, reg, hadds, hreg, hw⟩ := exists_adds .base h
    cases hadds with
    | base => exact ⟨_, reg, rfl, hreg, hw⟩
  | synonym name expression =>
    obtain ⟨e, reg, hadds, hreg, hw⟩ := exists_adds .synonym h
    cases hadds with
    | @synonym _ _ p d hresolve =>
      obtain ⟨hparse, hp⟩ := Registry.parse_of_resolve hresolve
      exact ⟨_, reg, by simp [added?, hparse, hp, Registry.typeChain], hreg, hw⟩
  | refinement parent name predicate =>
    obtain ⟨binder, w₁, hsubtype, hbinder⟩ := Act.returns_bind_iff.1 h
    obtain ⟨p, hp, rfl, rfl⟩ := exists_of_returns_subtype hsubtype
    obtain ⟨e, reg, hadds, hreg, hw⟩ := exists_adds (.refinement parent) hbinder
    cases hadds with
    | refinement _ _ henforce =>
      obtain ⟨text, f, t, htext, rfl, hparse, rfl, -⟩ := Enforcer.exists_of_enforce henforce
      obtain rfl : Registry.refinementContract parent = text := by simpa using htext
      have hform : Tree.parse none (Registry.refinementContract parent) = .ok t :=
        Tree.parse_eq_ok_iff.2 ⟨(Tree.parse_eq_ok_iff.1 hparse).1, by simp⟩
      refine ⟨_, reg, ?_, hreg, hw⟩
      simp [added?, hform, hp, Registry.typeChain]

/-! ### Runs -/

/-- A registry has seen a registration: it holds the entry that the registration adds. -/
def Holds (o : Registration) (r : RegistryId) (reg : Registry) : Prop :=
  ∃ e, o.added? r reg.find? = some e ∧ reg.find? o.name = some e

lemma Holds.extends (h : o.Holds r (w.registry r)) (hw : w.Extends w') :
    o.Holds r (w'.registry r) := by
  obtain ⟨e, hentry, hfind⟩ := h
  exact ⟨e, added?_mono (fun _ _ => hw.find?) hentry, hw.find? hfind⟩

/-- Right after a registration its registry holds its entry. -/
lemma holds_setRegistry {reg : Registry} (hr : r < w.registries.length)
    (he : o.added? r (w.registry r).find? = some e) (hreg : (w.registry r).insert? e = some reg) :
    o.Holds r ((w.setRegistry r reg).registry r) := by
  have hextends : w.Extends (w.setRegistry r reg) := World.IsMove.register hreg
  refine ⟨e, added?_mono (fun _ _ => hextends.find?) he, ?_⟩
  rw [World.registry_setRegistry, if_pos ⟨rfl, hr⟩, Registry.find?_insert? hreg,
    if_pos (name_eq_of_added? he).symm]

/-- Two worlds that differ in one registry alone. -/
structure Beside (r : RegistryId) (w w' : World) : Prop where
  length : w'.registries.length = w.registries.length
  others : ∀ r', r' ≠ r → w'.registry r' = w.registry r'
  heap : w'.heap = w.heap
  bindings : w'.bindings = w.bindings
  serial : w'.serial = w.serial
  host : w'.host = w.host

lemma Beside.trans {w'' : World} (h : Beside r w w') (h' : Beside r w' w'') : Beside r w w'' where
  length := h'.length.trans h.length
  others r' hr' := (h'.others r' hr').trans (h.others r' hr')
  heap := h'.heap.trans h.heap
  bindings := h'.bindings.trans h.bindings
  serial := h'.serial.trans h.serial
  host := h'.host.trans h.host

lemma beside_setRegistry (w : World) (r : RegistryId) (reg : Registry) :
    Beside r w (w.setRegistry r reg) where
  length := Registry.length_setRegistry w r reg
  others r' hr' := by rw [World.registry_setRegistry, if_neg fun h => hr' h.1.symm]
  heap := rfl
  bindings := rfl
  serial := rfl
  host := rfl

variable {os os' : List Registration} {us us' : List Value}

/-- The first registration of a run, and the others. -/
lemma exists_of_returns_cons (h : (Act.each (carryOut n r) (o :: os)).Returns w us w') :
    ∃ u us' w₁, (o.carryOut n r).Returns w u w₁ ∧
      (Act.each (carryOut n r) os).Returns w₁ us' w' := by
  obtain ⟨u, w₁, hfirst, h⟩ := Act.returns_bind_iff.1 h
  obtain ⟨us', w₂, hrest, hpure⟩ := Act.returns_bind_iff.1 h
  obtain ⟨-, rfl⟩ := Act.returns_pure_iff.1 hpure
  exact ⟨u, us', w₁, hfirst, hrest⟩

/-- **After a run** the registry holds the entry of each registration, and nothing else has changed
but by growth. -/
lemma holds_of_run (h : (Act.each (carryOut n r) os).Returns w us w')
    (hr : r < w.registries.length) :
    w.Extends w' ∧ Beside r w w' ∧ ∀ o ∈ os, o.Holds r (w'.registry r) := by
  induction os generalizing w us with
  | nil =>
    obtain ⟨-, rfl⟩ := Act.returns_pure_iff.1 h
    exact ⟨.refl w, ⟨rfl, fun _ _ => rfl, rfl, rfl, rfl, rfl⟩, by simp⟩
  | cons o os ih =>
    obtain ⟨u, us', w₁, hfirst, hrest⟩ := exists_of_returns_cons h
    obtain ⟨e, reg, hentry, hreg, rfl⟩ := exists_of_returns hfirst
    have hbeside := beside_setRegistry w r reg
    obtain ⟨hextends, hbeside', hholds⟩ := ih hrest (hbeside.length ▸ hr)
    refine ⟨.trans (World.IsMove.register hreg) hextends, hbeside.trans hbeside', ?_⟩
    rw [List.forall_mem_cons]
    exact ⟨(holds_setRegistry hr hentry hreg).extends hextends, hholds⟩

/-- **What a run leaves behind.** A property of entries that more types do not take away holds of
all entries after a run if it does before, and of the entry that each registration adds. -/
lemma forall_entries_of_run {P : Registry → Entry → Prop}
    (hmono : ∀ reg reg' e, (∀ name e', reg.find? name = some e' → reg'.find? name = some e') →
      P reg e → P reg' e)
    (hadded : ∀ o ∈ os, ∀ reg e, o.added? r reg.find? = some e → P reg e)
    (hr : r < w.registries.length) (hbefore : ∀ e ∈ (w.registry r).entries, P (w.registry r) e)
    (h : (Act.each (carryOut n r) os).Returns w us w') :
    ∀ e ∈ (w'.registry r).entries, P (w'.registry r) e := by
  induction os generalizing w us with
  | nil =>
    obtain ⟨-, rfl⟩ := Act.returns_pure_iff.1 h
    exact hbefore
  | cons o os ih =>
    rw [List.forall_mem_cons] at hadded
    obtain ⟨u, us', w₁, hfirst, hrest⟩ := exists_of_returns_cons h
    obtain ⟨e, reg, hentry, hreg, rfl⟩ := exists_of_returns hfirst
    have hkeeps : w.Extends (w.setRegistry r reg) := World.IsMove.register hreg
    refine ih hadded.2 ((beside_setRegistry w r reg).length ▸ hr) (fun e' he' => ?_) hrest
    rw [World.registry_setRegistry, if_pos ⟨rfl, hr⟩, Registry.entries_insert? hreg,
      List.mem_append, List.mem_singleton] at he'
    refine hmono (w.registry r) _ e' (fun _ _ => hkeeps.find?) ?_
    rcases he' with he' | rfl
    · exact hbefore e' he'
    · exact hadded.1 _ _ hentry

/-- **A run adds nothing but what a registry holds** that holds the entries of its registrations
besides what was there before. -/
lemma included_of_run {reg' : Registry} (h : (Act.each (carryOut n r) os).Returns w us w')
    (hr : r < w.registries.length) (hholds : ∀ o ∈ os, o.Holds r reg')
    (hbefore : ∀ name e, (w.registry r).find? name = some e → reg'.find? name = some e) :
    ∀ name e, (w'.registry r).find? name = some e → reg'.find? name = some e := by
  induction os generalizing w us with
  | nil =>
    obtain ⟨-, rfl⟩ := Act.returns_pure_iff.1 h
    exact hbefore
  | cons o os ih =>
    obtain ⟨u, us', w₁, hfirst, hrest⟩ := exists_of_returns_cons h
    obtain ⟨e, reg, hentry, hreg, rfl⟩ := exists_of_returns hfirst
    refine ih hrest ((beside_setRegistry w r reg).length ▸ hr) (fun o ho => hholds o (by simp [ho]))
      fun name e' he' => ?_
    rw [World.registry_setRegistry, if_pos ⟨rfl, hr⟩, Registry.find?_insert? hreg] at he'
    split at he'
    · next hname =>
      -- what is found now is the new entry, which is a function of what was found before
      obtain rfl := Option.some.inj he'
      obtain ⟨e'', hentry', hfind⟩ := hholds o (by simp)
      rw [added?_mono hbefore hentry] at hentry'
      rw [hname, name_eq_of_added? hentry, hfind, ← hentry']
    · exact hbefore name e' he'

end Registration

namespace Registry

/-- An entry is found under its name. -/
lemma find?_of_mem {reg : Registry} {e : Entry} (h : e ∈ reg.entries) :
    reg.find? e.name = some e := by
  have hsome : (reg.find? e.name).isSome = true :=
    List.find?_isSome.2 ⟨e, h, beq_self_eq_true e.name⟩
  obtain ⟨e', he'⟩ := Option.isSome_iff_exists.1 hsome
  rw [he', List.inj_on_of_nodup_map reg.nodup (List.mem_of_find?_eq_some he') h (find?_name he')]

/-- Registries that hold the same types differ in their order alone. -/
lemma entries_perm {reg reg' : Registry} (h : ∀ name, reg.find? name = reg'.find? name) :
    reg.entries.Perm reg'.entries := by
  refine (List.perm_ext_iff_of_nodup reg.nodup.of_map reg'.nodup.of_map).2 fun e => ⟨fun he => ?_,
    fun he => ?_⟩
  · exact List.mem_of_find?_eq_some ((h e.name).symm.trans (find?_of_mem he))
  · exact List.mem_of_find?_eq_some ((h e.name).trans (find?_of_mem he))

variable {r : RegistryId} {w w₁ w₂ : World} {os os' : List Registration} {us us' : List Value}
  {n n' : Nat}

/-- **The order of registrations does not matter.** If the same registrations, in whatever way each
registers its type, all succeed in two orders, then the same types are found under the same names,
with the same predicates, ancestries and numbers of arguments; the registries differ in the order of
their entries alone, and so no call can tell the two worlds apart: whatever is called, to whatever
depth, ends in the same way. In particular every type expression is tested alike for every value. -/
theorem order_irrelevant (hr : r < w.registries.length) (hos : os.Perm os')
    (h : (Act.each (Registration.carryOut n r) os).Returns w us w₁)
    (h' : (Act.each (Registration.carryOut n' r) os').Returns w us' w₂) :
    (∀ name, (w₁.registry r).find? name = (w₂.registry r).find? name) ∧
    (w₁.registry r).entries.Perm (w₂.registry r).entries ∧
    (∀ m v args kw, (invoke m v args kw w₁).Agrees (invoke m v args kw w₂)) ∧
    ∀ m text v,
      (NativePredicate.test (invoke m) (membershipTest r) text v w₁).Agrees
        (NativePredicate.test (invoke m) (membershipTest r) text v w₂) := by
  obtain ⟨hextends, hbeside, hholds⟩ := Registration.holds_of_run h hr
  obtain ⟨hextends', hbeside', hholds'⟩ := Registration.holds_of_run h' hr
  have hfind : ∀ name, (w₁.registry r).find? name = (w₂.registry r).find? name := by
    intro name
    refine Option.ext fun e => ⟨?_, ?_⟩
    · exact Registration.included_of_run h hr (fun o ho => hholds' o (hos.mem_iff.1 ho))
        (fun _ _ => hextends'.find?) name e
    · exact Registration.included_of_run h' hr (fun o ho => hholds o (hos.mem_iff.2 ho))
        (fun _ _ => hextends.find?) name e
  have hagrees : w₁.Agrees w₂ := by
    refine ⟨hbeside.length.trans hbeside'.length.symm, fun r' name => ?_,
      hbeside.heap.trans hbeside'.heap.symm, hbeside.bindings.trans hbeside'.bindings.symm,
      hbeside.serial.trans hbeside'.serial.symm, hbeside.host.trans hbeside'.host.symm⟩
    by_cases hr' : r' = r
    · rw [hr']
      exact hfind name
    · rw [hbeside.others r' hr', hbeside'.others r' hr']
  exact ⟨hfind, entries_perm hfind, fun m v args kw => agree_invoke m v args kw w₁ w₂ hagrees,
    fun m text v => NativePredicate.congr_test (agree_invoke m) _ text v w₁ w₂ hagrees⟩

/-- A base type and another name for arrays of it, in either order. -/
theorem order_irrelevant_array :
    let a : Registration := .base "a" (predicate .isNumber)
    let b : Registration := .synonym "b" "array<a>"
    let w₁ := (Act.each (Registration.carryOut 1 0) [a, b] world).world
    let w₂ := (Act.each (Registration.carryOut 1 0) [b, a] world).world
    0 < world.registries.length ∧ [a, b].Perm [b, a] ∧
      (Act.each (Registration.carryOut 1 0) [a, b]).Returns world [.null, .null] w₁ ∧
      (Act.each (Registration.carryOut 1 0) [b, a]).Returns world [.null, .null] w₂ ∧
      (w₁.registry 0).names ≠ (w₂.registry 0).names ∧
      (∀ name, (w₁.registry 0).find? name = (w₂.registry 0).find? name) ∧
      ∀ m text v,
        (NativePredicate.test (invoke m) (membershipTest 0) text v w₁).Agrees
          (NativePredicate.test (invoke m) (membershipTest 0) text v w₂) := by
  intro a b w₁ w₂
  have h₁ : (Act.each (Registration.carryOut 1 0) [a, b]).Returns world [.null, .null] w₁ :=
    ⟨rfl, rfl⟩
  have h₂ : (Act.each (Registration.carryOut 1 0) [b, a]).Returns world [.null, .null] w₂ :=
    ⟨rfl, rfl⟩
  have hperm : [a, b].Perm [b, a] := .swap b a []
  obtain ⟨hfind, -, -, htest⟩ := order_irrelevant (by decide) hperm h₁ h₂
  exact ⟨by decide, hperm, h₁, h₂, by decide, hfind, htest⟩

end Registry

end CallContracts
