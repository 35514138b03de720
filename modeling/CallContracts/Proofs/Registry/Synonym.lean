import CallContracts.Proofs.Registry.Growth

/-!
Other names for type expressions.

A name that is registered for a type expression keeps the tester of the expression as it was at that
time: the entry that its own name had, and its arguments as text.

* `Registry.exists_of_returns_alias`: what a call that registers a name for an expression does;
* `Registry.Aliased`: a name was registered for a type expression, at some time before, and
  `Registry.Aliased.exists_entry`: the entry that this leaves behind;
* `Registry.Aliased.isMember_eq` and `Registry.Aliased.matches_eq`: a test or a check against the
  name is the test of the expression, one call deeper;
* `Registry.Renames`: an expression that reads as such a name, whatever its label or arguments;
* `Registry.tests_aliased`: **another name for a type expression means the expression**, and, by
  induction on a chain of names, the last expression of the chain.
-/

namespace CallContracts.Registry

variable {r : RegistryId} {w w' : World} {name text t last chain : String} {d d' : Descriptor}
  {e : Entry} {v descriptor : Value} {b : Bool} {n : ℕ}

/-! ### What registering takes, and what it leaves behind -/

/-- A fresh name is registered for an expression that resolves. -/
lemma exists_alias (hknown : Known r text w) (hname : Text.isBlankText name = false)
    (hfree : (w.registry r).contains name = false) :
    ∃ w', (invoke 1 (.function (.operation r .alias)) [.text name, .text text] []).Returns w .null
      w' := by
  obtain ⟨d, e, hparse, he⟩ := known_iff.1 hknown
  let predicate : Value := .function (.tester r e d)
  obtain ⟨reg, hreg⟩ : ∃ reg, (w.registry r).insert? (newEntry ((w.registry r).typeChain d.name)
      name predicate) = some reg := by
    rw [← Option.isSome_iff_exists, insert?_isSome]
    simpa [newEntry] using hfree
  have hregistry : Act.registry r w = ⟨.ok (w.registry r), w, []⟩ := rfl
  have hvalues : Call.values Operation.alias.parameters [.text name, .text text] [] w =
      ⟨.ok [.text name, .text text], w, []⟩ := rfl
  refine ⟨w.setRegistry r reg, (returns_operation_iff hvalues).2 ?_⟩
  refine Act.returns_bind_pure_iff.2 ?_
  rw [addAlias, Act.returns_bind_of_pure (resolve_of_parse hparse he),
    Act.returns_bind_of_pure hregistry]
  exact Act.returns_of_eq (register_fresh hname rfl hreg)

/-- A name was registered for a type expression, at some time before: a call of `alias` with the
name and the expression returned. -/
def Aliased (r : RegistryId) (name text : String) (w : World) : Prop :=
  ∃ (n : ℕ) (args : List Value) (kw : Call.Keywords Value) (u : Value) (w₀ w₁ : World),
    Call.bind Operation.alias.parameters args kw =
        some [.given (.text name), .given (.text text)] ∧
      (invoke n (.function (.operation r .alias)) args kw).Returns w₀ u w₁ ∧ w₁.History w

/-- **What a call of `alias` does**: the expression resolves, and the name gets its tester for a
predicate. -/
lemma exists_of_returns_alias {args : List Value} {kw : Call.Keywords Value} {u : Value}
    (hgiven : Call.bind Operation.alias.parameters args kw =
      some [.given (.text name), .given (.text text)])
    (h : (invoke n (.function (.operation r .alias)) args kw).Returns w u w') :
    ∃ d e chain, Descriptor.parse text = .ok d ∧ (w.registry r).find? d.name = some e ∧
      ∀ other, (w'.registry r).find? other =
        if other = name then some (newEntry chain name (.function (.tester r e d)))
        else (w.registry r).find? other := by
  obtain ⟨added, reg, hadds, hreg, rfl⟩ := Registers.synonym.exists_adds hgiven h
  cases hadds with
  | @synonym _ _ e d hresolve =>
    obtain ⟨hparse, he⟩ := parse_of_resolve hresolve
    have hr : r < w.registries.length := lt_length_of_contains (contains_of_find? he)
    refine ⟨d, e, (w.registry r).typeChain d.name, hparse, he, fun other => ?_⟩
    rw [World.registry_setRegistry, if_pos ⟨rfl, hr⟩, find?_insert? hreg]
    rfl

/-- **What another name leaves behind**: the expression resolves, and the name has its tester for a
predicate. -/
lemma Aliased.exists_entry (h : Aliased r name text w) :
    ∃ d e chain, Descriptor.parse text = .ok d ∧ (w.registry r).find? d.name = some e ∧
      (w.registry r).find? name = some (newEntry chain name (.function (.tester r e d))) := by
  obtain ⟨n, args, kw, u, w₀, w₁, hgiven, hreturns, hlater⟩ := h
  obtain ⟨d, e, chain, hparse, he, hentries⟩ := exists_of_returns_alias hgiven hreturns
  have hkeeps : w₀.Extends w₁ := hreturns.2 ▸ invoke_extends n _ _ _ w₀
  refine ⟨d, e, chain, hparse, (hkeeps.trans hlater.extends).find? he, ?_⟩
  refine hlater.extends.find? ?_
  rw [hentries, if_pos rfl]

/-! ### One name -/

/-- The predicate of another name holds where that of the expression does. -/
lemma holds_tester :
    holds (invoke (n + 1)) r (newEntry chain name (.function (.tester r e d))) d' v w =
      holds (invoke n) r e d v w := by
  have hask : (newEntry chain name (.function (.tester r e d))).ask (invoke (n + 1)) r v
      (.descriptor d') = holds (invoke n) r e d v >>= fun b => pure (.bool b) := invoke_tester
  rw [holds]
  rcases hholds : holds (invoke n) r e d v w with ⟨(f | -) | b, w', es⟩
  · exact absurd (congrArg Result.outcome hholds) holds_ne_fault
  · rw [Act.bind_of_error (Act.attempt_of_exhausted (hask ▸ Act.bind_of_error hholds))]
  · have hanswer : (holds (invoke n) r e d v >>= fun b => pure (Value.bool b)) w =
        ⟨.ok (.bool b), w', es⟩ := by
      rw [Act.bind_of_ok hholds]
      simp [pure, Act.pure]
    rw [Act.bind_of_ok (Act.attempt_of_ok (hask ▸ hanswer))]
    simp [Act.heap, Act.world, Value.truth, Scalar.truth, Bind.bind, Act.bind, pure, Act.pure]

/-- **A test for another name** is the test for its expression, one call deeper. -/
lemma Aliased.isMember_eq (h : Aliased r name text w) (hparse : Descriptor.parse t = .ok d)
    (hname : d.name = name) :
    isMember (invoke (n + 1)) r t v w = isMember (invoke n) r text v w := by
  obtain ⟨d', e, chain, hparse', he, hentry⟩ := h.exists_entry
  rw [isMember_of_parse hparse (hname ▸ hentry), isMember_of_parse hparse' he, holds_tester]

/-- A check of anything with the name is that test too. -/
lemma Aliased.matches_eq (h : Aliased r name text w)
    (hname : descriptor.attribute? "name" = some (.text name)) :
    «matches» (invoke (n + 1)) r descriptor v w =
      (isMember (invoke n) r text v >>= fun b => pure (.bool b)) w := by
  obtain ⟨d, e, chain, hparse, he, hentry⟩ := h.exists_entry
  have hask : (newEntry chain name (.function (.tester r e d))).ask (invoke (n + 1)) r v
      descriptor = holds (invoke n) r e d v >>= fun b => pure (.bool b) := invoke_tester
  rw [matches_of_name hname hentry, hask, isMember, Act.bind_assoc,
    Act.bind_of_pure (resolve_of_parse hparse he)]

/-! ### Chains of names -/

/-- An expression reads as a name that was registered for another expression. -/
def Renames (r : RegistryId) (w : World) (t text : String) : Prop :=
  ∃ d, Descriptor.parse t = .ok d ∧ Aliased r d.name text w

lemma Aliased.known (h : Aliased r name text w) : Known r text w := by
  obtain ⟨d, e, chain, hparse, he, -⟩ := h.exists_entry
  exact known_iff.2 ⟨d, e, hparse, he⟩

namespace Renames

lemma known (h : Renames r w t text) : Known r t w := by
  obtain ⟨d, hparse, halias⟩ := h
  obtain ⟨d', e, chain, -, -, hentry⟩ := halias.exists_entry
  exact known_iff.2 ⟨d, _, hparse, hentry⟩

lemma tests_iff (h : Renames r w t text) : Tests r t v w b w' ↔ Tests r text v w b w' := by
  obtain ⟨d, hparse, halias⟩ := h
  rw [tests_iff_isMember, tests_iff_isMember, ← Act.Yields, ← Act.Yields,
    ← Act.yields_shift_iff (rising_isMember r t v) 1]
  simp only [Act.Yields, Act.Returns, halias.isMember_eq hparse rfl]

/-- Along a chain of names nothing changes. -/
lemma tests_iff_of_chain (h : Relation.TransGen (Renames r w) t last) :
    Tests r t v w b w' ↔ Tests r last v w b w' := by
  induction h with
  | single hstep => exact hstep.tests_iff
  | tail _ hstep ih => exact ih.trans hstep.tests_iff

end Renames

/-! ### The law -/

/-- A check of anything with the name of another one for an expression does not fault. -/
lemma Aliased.matches_ne_fault (h : Aliased r name text w)
    (hname : descriptor.attribute? "name" = some (.text name)) (f : Fault) :
    («matches» (invoke n) r descriptor v w).outcome ≠ .error (.fault f) := by
  obtain ⟨d, e, chain, hparse, he, hentry⟩ := h.exists_entry
  rcases n with _ | n
  · rw [matches_of_name hname hentry]
    simp [Entry.ask, invoke_zero, Act.exhausted]
  · rw [h.matches_eq hname, Act.outcome_bind]
    rcases hmember : (isMember (invoke n) r text v w).outcome with (f' | -) | b
    · rw [isMember_fault_iff, resolve_of_parse hparse he] at hmember
      simp at hmember
    · simp [Bind.bind, Except.bind]
    · simp [Bind.bind, Except.bind, pure, Act.pure]

/-- It yields what the test of the expression answers. -/
lemma Aliased.yields_matches_iff (h : Aliased r name text w)
    (hname : descriptor.attribute? "name" = some (.text name)) {u : Value} :
    Act.Yields (fun n => «matches» (invoke n) r descriptor v) w u w' ↔
      ∃ b, u = .bool b ∧ Tests r text v w b w' := by
  obtain ⟨d, e, chain, -, -, hentry⟩ := h.exists_entry
  constructor
  · rintro ⟨n, hn⟩
    rcases n with _ | n
    · exact absurd (hn.of_eq (matches_of_name hname hentry).symm) Act.not_returns_exhausted
    · obtain ⟨b, w₁, hb, hpure⟩ := Act.returns_bind_iff.1 (hn.of_eq (h.matches_eq hname).symm)
      obtain ⟨rfl, rfl⟩ := Act.returns_pure_iff.1 hpure
      exact ⟨b, rfl, tests_iff_isMember.2 ⟨n, hb⟩⟩
  · rintro ⟨b, rfl, htests⟩
    obtain ⟨n, hb⟩ := tests_iff_isMember.1 htests
    have hwrapped : (isMember (invoke n) r text v >>= fun b => pure (Value.bool b)).Returns w
        (.bool b) w' := Act.returns_bind_iff.2 ⟨b, w', hb, Act.returns_pure_iff.2 ⟨rfl, rfl⟩⟩
    exact ⟨n + 1, hwrapped.of_eq (h.matches_eq hname)⟩

/-- **Another name for a type expression means the expression, for ever.** At any later time, every
expression that reads as the name, with whatever label, brackets or arguments, resolves as the
expression itself does, and the two are tested alike; a check of anything with the name does not
fault, and yields what the test answers. So it is along a chain of names of any length. -/
theorem tests_aliased (h : Aliased r name text w) :
    Known r text w ∧
    (∀ t d, Descriptor.parse t = .ok d → d.name = name →
      Known r t w ∧ ∀ v b w', Tests r t v w b w' ↔ Tests r text v w b w') ∧
    (∀ descriptor v, descriptor.attribute? "name" = some (.text name) →
      (∀ n f, («matches» (invoke n) r descriptor v w).outcome ≠ .error (.fault f)) ∧
      ∀ u w', Act.Yields (fun n => «matches» (invoke n) r descriptor v) w u w' ↔
        ∃ b, u = .bool b ∧ Tests r text v w b w') ∧
    ∀ last, Relation.TransGen (Renames r w) text last →
      Known r last w ∧ ∀ v b w', Tests r text v w b w' ↔ Tests r last v w b w' := by
  refine ⟨h.known, fun t d hparse hname => ?_, fun descriptor v hname => ?_, fun last hchain => ?_⟩
  · have hrenames : Renames r w t text := ⟨d, hparse, hname ▸ h⟩
    exact ⟨hrenames.known, fun v b w' => hrenames.tests_iff⟩
  · exact ⟨fun n f => h.matches_ne_fault hname f, fun u w' => h.yields_matches_iff hname⟩
  · obtain ⟨before, -, d, -, halias⟩ := Relation.TransGen.tail'_iff.1 hchain
    exact ⟨halias.known, fun v b w' => Renames.tests_iff_of_chain hchain⟩

/-- Points of the plane under two names, one registered for the other with an argument that does
not matter. -/
theorem tests_aliased_point :
    let call (name text : String) :=
      invoke 1 (.function (.operation 0 .alias)) [.text name, .text text] []
    let w₁ := (call "point" "tuple<number;number>" libraryWorld).world
    let w₂ := (call "spot" "[point<a>]" w₁).world
    Aliased 0 "spot" "[point<a>]" w₂ ∧ Renames 0 w₂ "[point<a>]" "tuple<number;number>" ∧
      ∃ w', Tests 0 "tuple<number;number>" (.tuple [.int 1, .int 2]) w₂ true w' ∧
        Tests 0 "spot" (.tuple [.int 1, .int 2]) w₂ true w' := by
  intro call w₁ w₂
  obtain ⟨hfirst, hsecond, htest⟩ :
      (call "point" "tuple<number;number>" libraryWorld).outcome.toOption.isSome = true ∧
        (call "spot" "[point<a>]" w₁).outcome.toOption.isSome = true ∧
          tested "tuple<number;number>" (.tuple [.int 1, .int 2]) w₂ = some true := by
    decide +kernel
  obtain ⟨u₁, hu₁⟩ := Option.isSome_iff_exists.1 hfirst
  obtain ⟨u₂, hu₂⟩ := Option.isSome_iff_exists.1 hsecond
  have hpoint : Aliased 0 "point" "tuple<number;number>" w₂ :=
    ⟨1, _, _, u₁, _, w₁, rfl, Act.returns_of_toOption hu₁, .call 1 _ _ _ .refl⟩
  have hspot : Aliased 0 "spot" "[point<a>]" w₂ :=
    ⟨1, _, _, u₂, _, w₂, rfl, Act.returns_of_toOption hu₂, .refl⟩
  have hrenames : Renames 0 w₂ "[point<a>]" "tuple<number;number>" :=
    ⟨⟨"point", .arguments ["a"], true⟩, rfl, hpoint⟩
  obtain ⟨w', hpair⟩ := exists_tests htest
  obtain ⟨-, hnames, -, hchains⟩ := tests_aliased hspot
  obtain ⟨-, hlast⟩ := hchains _ (.single hrenames)
  obtain ⟨-, hname⟩ := hnames "spot" (.ofName "spot") rfl rfl
  exact ⟨hspot, hrenames, w', hpair, (hname _ _ _).2 ((hlast _ _ _).2 hpair)⟩

end CallContracts.Registry
