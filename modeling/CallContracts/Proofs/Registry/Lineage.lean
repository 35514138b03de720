import CallContracts.Proofs.Registry.Library

/-!
The ancestry of types.

The ancestry of a type is written down when the type is registered, in one of three ways, and never
looked at again. Who descends from whom is kept in a ledger besides: for each type its name and the
name of its parent, the oldest first.

* `Registry.Below`: the parent that a registering call gives a type: the top, the type that was
  asked to be refined, or the name that the expression reads as;
* `Registry.Lineage`: the ledger of a registry, along all that can be done with it;
* `Registry.Ancestry`: the ancestries of a registry follow from a ledger, which
  `Registry.Ancestry.insert?` extends by one type and `Registry.Lineage.ancestry` by a whole run;
* `Registry.records_install`: installing the library does nothing but such steps, as far as it goes;
* `Registry.Ancestry.wellFounded`: parents of parents end at the top;
* `Registry.lineage_wellFounded`: **the ancestry of every type is that of its parent, extended by
  its name**; it leads up to the top and stays for good.
-/

namespace CallContracts.Registry

open Relation (ReflTransGen)

variable {r : RegistryId} {w w' : World} {reg reg' : Registry} {e : Entry}
  {ledger : List (String × String)} {f : Function} {name parent : String} {v : Value}
  {args : List Value} {kw : Call.Keywords Value} {n : ℕ}

/-! ### Parents -/

/-- The base types and their parents; the top has none. -/
def baseParents : List (String × String) :=
  [("any", topName), (unitName, "undefined"), ("undefined", topName), ("boolean", topName),
    ("number", topName), ("string", topName), ("symbol", topName), ("object", topName),
    ("array", "object"), ("function", topName)]

/-- The types of the library and their parents. -/
def libraryParents : List (String × String) :=
  refinements.map (fun t => (t.2.1, t.1)) ++ [(unionName, topName)]

/-- The parent that a call of a registering function gives the type that it registers. -/
inductive Below (r : RegistryId) (w : World) : Function → Value → String → Prop
  | base (v : Value) : Below r w (.operation r .extend) v topName
  | synonym {text : String} {d : Descriptor} :
    Descriptor.parse text = .ok d → Below r w (.operation r .alias) (.text text) d.name
  /-- At some time before, `subtype` gave the function that refines the parent. -/
  | refinement {w₀ w₁ : World} {n : ℕ} {args : List Value} {kw : Call.Keywords Value}
    {parent : String} (v : Value) :
    (invoke n (.function (.operation r .subtype)) args kw).Returns w₀
        (.function (.binder r parent)) w₁ →
      w₁.History w → Below r w (.binder r parent) v parent

lemma Below.registers (h : Below r w f v parent) : Registers r f := by
  cases h with
  | base => exact .base
  | synonym => exact .synonym
  | refinement => exact .refinement parent

/-- The worlds in which a registry with the base types has been used, and its ledger: a type is
registered, or a call for that fails, or a type is asked for to be refined, or the registry is not
concerned. -/
inductive Lineage (r : RegistryId) : List (String × String) → World → Prop
  | created {w₀ w : World} : (create true).Returns w₀ r w → Lineage r baseParents w
  | registered {ledger : List (String × String)} {w w' : World} {f : Function}
    {name parent : String} {v u : Value} {args : List Value} {kw : Call.Keywords Value} {n : ℕ} :
    Lineage r ledger w →
      Call.bind (f.parameters?.getD []) args kw = some [.given (.text name), .given v] →
      Below r w f v parent → (invoke n (.function f) args kw).Returns w u w' →
        Lineage r (ledger ++ [(name, parent)]) w'
  | failed {ledger : List (String × String)} {w : World} {f : Function} {args : List Value}
    {kw : Call.Keywords Value} {n : ℕ} {stop : Stop} :
    Lineage r ledger w → Registers r f →
      (invoke n (.function f) args kw w).outcome = .error stop →
        Lineage r ledger (invoke n (.function f) args kw w).world
  | asked {ledger : List (String × String)} {w : World} {args : List Value}
    {kw : Call.Keywords Value} {n : ℕ} :
    Lineage r ledger w →
      Lineage r ledger (invoke n (.function (.operation r .subtype)) args kw w).world
  | elsewhere {ledger : List (String × String)} {w w' : World} :
    Lineage r ledger w → w'.registry r = w.registry r → Lineage r ledger w'

/-! ### Registries and ledgers -/

/-- The ancestries of a registry follow from a ledger. -/
structure Ancestry (ledger : List (String × String)) (reg : Registry) : Prop where
  names : reg.names = topName :: ledger.map Prod.fst
  top : reg.typeChain topName = topName
  parent : ∀ l ∈ ledger, reg.contains l.2 = true
  chain : ∀ l ∈ ledger, reg.typeChain l.1 = chainBelow (reg.typeChain l.2) l.1
  /-- Following parents leads to the top. -/
  leads : ∀ l ∈ ledger, ReflTransGen (fun a b => (a, b) ∈ ledger) l.1 topName

lemma contains_iff_mem_names : reg.contains name = true ↔ name ∈ reg.names := by
  rw [contains, ← Option.ne_none_iff_isSome, ne_eq, find?_eq_none_iff, not_not]

namespace Ancestry

lemma contains_iff (h : Ancestry ledger reg) :
    reg.contains name = true ↔ name = topName ∨ ∃ parent, (name, parent) ∈ ledger := by
  rw [contains_iff_mem_names, h.names, List.mem_cons]
  simp

lemma contains_top (h : Ancestry ledger reg) : reg.contains topName = true :=
  h.contains_iff.2 (.inl rfl)

/-- The base types. -/
lemma base : Ancestry baseParents base where
  names := by decide
  top := by decide
  parent := by decide
  chain := by decide
  leads := by
    have hshort : ∀ l ∈ baseParents, l.2 = topName ∨ (l.2, topName) ∈ baseParents := by decide
    intro l hl
    rcases hshort l hl with htop | htop
    · exact .single (htop ▸ hl)
    · exact .tail (.single hl) htop

/-- **One more type** below one that is there. -/
lemma insert? (h : Ancestry ledger reg) (hreg : reg.insert? e = some reg')
    (hparent : reg.contains parent = true)
    (hchain : e.chain = chainBelow (reg.typeChain parent) e.name) :
    Ancestry (ledger ++ [(e.name, parent)]) reg' := by
  have hfind := find?_insert? hreg
  have hkeeps : ∀ name, reg.contains name = true →
      reg'.contains name = true ∧ reg'.typeChain name = reg.typeChain name := by
    intro name hname
    have hne : name ≠ e.name := by
      rintro rfl
      have hfree := insert?_isSome (r := reg) (e := e)
      rw [hreg, hname] at hfree
      simp at hfree
    simp only [Registry.contains, typeChain, hfind, if_neg hne, and_true]
    exact hname
  have hname : ∀ l ∈ ledger, reg.contains l.1 = true := fun l hl =>
    h.contains_iff.2 (.inr ⟨l.2, hl⟩)
  have hleads : ∀ name, reg.contains name = true →
      ReflTransGen (fun a b => (a, b) ∈ ledger ++ [(e.name, parent)]) name topName := by
    intro name hname
    rcases h.contains_iff.1 hname with rfl | ⟨p, hp⟩
    · exact .refl
    · exact ReflTransGen.mono (fun _ _ hl => List.mem_append_left _ hl) _ _ (h.leads _ hp)
  refine ⟨?_, (hkeeps _ h.contains_top).2.trans h.top, ?_, ?_, ?_⟩
  · rw [Registry.names, entries_insert? hreg, List.map_append, ← Registry.names, h.names]
    simp
  all_goals
    simp only [List.forall_mem_append, List.mem_singleton, forall_eq]
  · exact ⟨fun l hl => (hkeeps _ (h.parent l hl)).1, (hkeeps _ hparent).1⟩
  · refine ⟨fun l hl => ?_, ?_⟩
    · rw [(hkeeps _ (hname l hl)).2, (hkeeps _ (h.parent l hl)).2, h.chain l hl]
    · rw [(hkeeps _ hparent).2, typeChain, hfind, if_pos rfl, ← hchain]
  · exact ⟨fun l hl => hleads _ (hname l hl),
      .head (List.mem_append_right _ (List.mem_singleton_self _)) (hleads _ hparent)⟩

/-- A name has one parent, and the top has none. -/
lemma nodup (h : Ancestry ledger reg) : (topName :: ledger.map Prod.fst).Nodup :=
  h.names ▸ reg.nodup

/-- **Parents of parents end.** -/
lemma wellFounded (h : Ancestry ledger reg) :
    WellFounded fun parent name => (name, parent) ∈ ledger := by
  obtain ⟨htop, hunique⟩ := List.nodup_cons.1 h.nodup
  have hleads : ∀ name, ReflTransGen (fun a b => (a, b) ∈ ledger) name topName →
      Acc (fun parent name => (name, parent) ∈ ledger) name := by
    intro name hname
    induction hname using ReflTransGen.head_induction_on with
    | refl => exact ⟨_, fun parent hp => absurd (List.mem_map_of_mem hp) htop⟩
    | head hlink _ ih =>
      -- the only parent of the name is the next one on the way
      refine ⟨_, fun parent hp => ?_⟩
      have hsame := List.inj_on_of_nodup_map hunique hp hlink rfl
      rw [(Prod.mk.inj hsame).2]
      exact ih
  exact ⟨fun name => ⟨name, fun parent hp => hleads _ (by
    rcases h.contains_iff.1 (h.parent _ hp) with htop | ⟨p, hp'⟩
    · exact htop ▸ .refl
    · exact h.leads _ hp')⟩⟩

end Ancestry

/-! ### Steps -/

/-- What a look-up finds is registered under its name. -/
lemma find?_of_lookup (h : (lookup r v w).outcome = .ok e) :
    (w.registry r).find? e.name = some e := by
  rcases htext : v.text? with _ | name
  · cases hhashable : v.isHashable <;>
      simp [lookup, htext, hhashable, Act.throw, Act.mishap] at h
  · have hlookup : lookup r v = entry r name := by simp only [lookup, htext]
    have htextual : lookup r (.text name) = entry r name := rfl
    rw [hlookup, ← htextual, lookup_text] at h
    split at h
    · simp at h
    · next e' he =>
      obtain rfl := Except.ok.inj h
      rw [find?_name he, he]

/-- Asking for what refines a type leaves the world as it is, and succeeds only if the type is
registered. -/
lemma subtype_cases (n : ℕ) (args : List Value) (kw : Call.Keywords Value) (w : World) :
    (∃ stop es, invoke n (.function (.operation r .subtype)) args kw w = ⟨.error stop, w, es⟩) ∨
    ∃ name es, (w.registry r).contains name = true ∧
      invoke n (.function (.operation r .subtype)) args kw w =
        ⟨.ok (.function (.binder r name)), w, es⟩ := by
  rcases n with _ | n
  · exact .inl ⟨.exhausted, [], rfl⟩
  have hplain : Call.Plain Operation.subtype.parameters := by
    simp [Call.Plain, Operation.parameters, Parameter.plain]
  rw [invoke_succ, Value.apply, Function.apply]
  rcases Call.values_plain hplain args kw w with ⟨vs, hvs, -, hvalues⟩ | ⟨-, hvalues⟩
  · obtain ⟨v, rfl⟩ := List.length_eq_one_iff.1 hvs
    have hrun : Operation.subtype.run (invoke n) r [v] =
        lookup r v >>= fun e => pure (.function (.binder r e.name)) := rfl
    rw [Act.bind_of_pure hvalues, hrun]
    have hworld := (steady_lookup r v).world w
    rcases hlookup : lookup r v w with ⟨stop | e, w', es⟩ <;> rw [hlookup] at hworld <;>
      obtain rfl : w' = w := hworld
    · exact .inl ⟨stop, es, Act.bind_of_error hlookup⟩
    · refine .inr ⟨e.name, es ++ [], ?_, Act.bind_of_ok hlookup⟩
      exact contains_of_find? (find?_of_lookup (congrArg Result.outcome hlookup))
  · exact .inl ⟨_, _, Act.bind_of_error hvalues⟩

/-- The parent of a type that is registered is there, and the new entry is below it. -/
lemma Adds.below {ledger : List (String × String)} (hadds : Adds r w f name v e)
    (hbelow : Below r w f v parent) (h : Ancestry ledger (w.registry r)) :
    (w.registry r).contains parent = true ∧
      e.chain = chainBelow ((w.registry r).typeChain parent) name := by
  cases hbelow with
  | base =>
    cases hadds with
    | base => exact ⟨h.contains_top, by rw [h.top]; rfl⟩
  | synonym hparse =>
    cases hadds with
    | synonym _ hresolve =>
      obtain ⟨hparse', he⟩ := parse_of_resolve hresolve
      obtain rfl := Except.ok.inj (hparse.symm.trans hparse')
      exact ⟨contains_of_find? he, rfl⟩
  | @refinement w₀ w₁ n args kw _ _ hsubtype hlater =>
    cases hadds with
    | refinement =>
      refine ⟨?_, rfl⟩
      rcases subtype_cases (r := r) n args kw w₀ with
        ⟨stop, es, hstop⟩ | ⟨parent', es, hparent, hok⟩
      · simp [Act.Returns, hstop] at hsubtype
      · rw [Act.Returns, hok] at hsubtype
        obtain ⟨hbinder, rfl⟩ := hsubtype
        obtain rfl : parent' = parent := by simpa using hbinder
        exact hlater.extends.contains hparent

/-- **What a ledger says of its registry**, by induction on what was done with the registry. -/
lemma Lineage.ancestry (h : Lineage r ledger w) : Ancestry ledger (w.registry r) := by
  induction h with
  | @created w₀ w hcreate =>
    obtain ⟨w', es, hcreate', hreg⟩ := registry_create w₀
    obtain ⟨hr, rfl⟩ := hcreate
    rw [hcreate'] at hr ⊢
    obtain rfl := Except.ok.inj hr
    exact hreg ▸ Ancestry.base
  | @registered ledger w w' f name parent v u args kw n _ hgiven hbelow hcall ih =>
    obtain ⟨e, reg, hadds, hreg, rfl⟩ := hbelow.registers.exists_adds hgiven hcall
    obtain rfl := hadds.name_eq
    obtain ⟨hparent, hchain⟩ := hadds.below hbelow ih
    have hr : r < w.registries.length := lt_length_of_contains hparent
    rw [World.registry_setRegistry, if_pos ⟨rfl, hr⟩]
    exact ih.insert? hreg hparent hchain
  | @failed ledger w f args kw n stop _ hf houtcome ih =>
    rcases registers_cases hf n args kw w with ⟨stop, es, hstop⟩ | ⟨_, _, _, _, -, -, -, -, hok⟩
    · rwa [hstop]
    · simp [hok] at houtcome
  | @asked ledger w args kw n _ ih =>
    rcases subtype_cases (r := r) n args kw w with ⟨stop, es, h⟩ | ⟨_, es, -, h⟩ <;> rwa [h]
  | elsewhere _ hsame ih => exact hsame ▸ ih

/-! ### Installing the library -/

/-- A computation makes calls that register some types and does nothing else with a registry; if it
fails, it has registered the first few of them. -/
def Records (r : RegistryId) {α : Type} (links : List (String × String)) (x : Act α) : Prop :=
  ∀ ledger w, Lineage r ledger w → w.History (x w).world ∧ ∃ more, more <+: links ∧
    Lineage r (ledger ++ more) (x w).world ∧ ∀ a, (x w).outcome = .ok a → more = links

section records

variable {α β : Type} {links links' : List (String × String)} {x : Act α} {g : α → Act β}

lemma records_pure (a : α) : Records r [] (pure a : Act α) := fun ledger w h =>
  ⟨.refl, [], List.nil_prefix, by simpa [pure, Act.pure] using h, fun _ _ => rfl⟩

lemma Records.bind (hx : Records r links x) (hg : ∀ a, Records r links' (g a)) :
    Records r (links ++ links') (x >>= g) := by
  intro ledger w h
  obtain ⟨hhistory, more, hprefix, hlineage, hall⟩ := hx ledger w h
  rcases hxw : x w with ⟨stop | a, w', es⟩ <;> rw [hxw] at hhistory hlineage hall
  · rw [Act.bind_of_error hxw]
    exact ⟨hhistory, more, hprefix.trans (List.prefix_append _ _), hlineage, by simp⟩
  · rw [Act.bind_of_ok hxw]
    obtain rfl := hall a rfl
    obtain ⟨hhistory', more', hprefix', hlineage', hall'⟩ := hg a _ w' hlineage
    refine ⟨hhistory.trans hhistory', more ++ more',
      (List.prefix_append_right_inj more).2 hprefix', ?_, fun b hb => ?_⟩
    · rwa [← List.append_assoc]
    · rw [hall' b hb]

lemma records_each {link : α → String × String} (as : List α)
    (hg : ∀ a, Records r [link a] (g a)) : Records r (as.map link) (Act.each g as) := by
  induction as with
  | nil => exact records_pure []
  | cons a as ih =>
    have hrest := (hg a).bind fun b => ih.bind fun bs => records_pure (b :: bs)
    rwa [List.append_nil] at hrest

end records

/-- A registering function at work. -/
lemma Lineage.step {x : Act Unit} (h : Lineage r ledger w) (hbelow : Below r w f v parent)
    (hgiven : Call.bind (f.parameters?.getD []) [.text name, v] [] =
      some [.given (.text name), .given v])
    (hcall : invoke 1 (.function f) [.text name, v] [] w = (x >>= fun _ => pure .null) w) :
    w.History (x w).world ∧ ∃ more, more <+: [(name, parent)] ∧
      Lineage r (ledger ++ more) (x w).world ∧
        ∀ a, (x w).outcome = .ok a → more = [(name, parent)] := by
  have hhistory := World.History.refl.call 1 (.function f) [.text name, v] [] (w := w)
  rcases hx : x w with ⟨stop | a, w', es⟩
  · rw [Act.bind_of_error hx] at hcall
    have hfailed := h.failed hbelow.registers (congrArg Result.outcome hcall)
    rw [hcall] at hfailed hhistory
    exact ⟨hhistory, [], List.nil_prefix, by rwa [List.append_nil], by simp⟩
  · rw [Act.bind_of_ok hx] at hcall
    rw [hcall] at hhistory
    exact ⟨hhistory, _, List.prefix_refl _, h.registered hgiven hbelow (Act.returns_of_eq hcall),
      fun _ _ => rfl⟩

lemma records_installRefinement (t : String × String × NativePredicate) :
    Records r [(t.2.1, t.1)] (installRefinement r t) := by
  intro ledger w h
  rw [installRefinement]
  cases he : (w.registry r).find? t.1 with
  | none =>
    have hentry : entry r t.1 w = ⟨.error (.fault (.unknownType (.text t.1))), w, []⟩ := by
      simp [entry, Act.registry, Act.world, he, Bind.bind, Act.bind, pure, Act.pure, Act.throw]
    rw [Act.bind_of_error hentry]
    exact ⟨.refl, [], List.nil_prefix, by simpa using h, by simp⟩
  | some e =>
    have hentry : entry r t.1 w = ⟨.ok e, w, []⟩ := by
      simp [entry, Act.registry, Act.world, he, Bind.bind, Act.bind, pure, Act.pure]
    rw [Act.bind_of_pure hentry, find?_name he]
    have hsubtype : (invoke 1 (.function (.operation r .subtype)) [.text t.1] []).Returns w
        (.function (.binder r t.1)) w :=
      returns_subtype_iff.2 ⟨contains_of_find? he, rfl, rfl⟩
    exact h.step (.refinement _ hsubtype .refl) rfl rfl

/-- **Installing the library** does nothing but register its types, each below its parent. -/
lemma records_install (r : RegistryId) : Records r libraryParents (install r) :=
  (records_each refinements records_installRefinement).bind fun _ _ _ h =>
    h.step (.base _) rfl rfl

/-! ### The law -/

/-- **Ancestries are well-founded.** Whatever is done with a registry that starts with the base
types, be it registering types in any of the three ways, failing to, or installing the library as a
whole or in part, its types are the top and those of its ledger, each under one name. The ancestry
of a type is that of its parent, which is another type of the registry, extended by its name;
following parents leads to the top, and there is no other way to follow them; and the ancestry of a
type stays the same for good. -/
theorem lineage_wellFounded (h : Lineage r ledger w) :
    (w.registry r).names = topName :: ledger.map Prod.fst ∧
    (w.registry r).typeChain topName = topName ∧
    (∀ name parent, (name, parent) ∈ ledger →
      parent ≠ name ∧ (w.registry r).contains parent = true ∧
        (w.registry r).typeChain name = chainBelow ((w.registry r).typeChain parent) name) ∧
    (∀ name, (w.registry r).contains name = true →
      ReflTransGen (fun name parent => (name, parent) ∈ ledger) name topName) ∧
    (WellFounded fun parent name => (name, parent) ∈ ledger) ∧
    (∀ w', w.History w' → ∀ name, (w.registry r).contains name = true →
      (w'.registry r).typeChain name = (w.registry r).typeChain name) ∧
    w.History (install r w).world ∧
    ∃ more, more <+: libraryParents ∧ Lineage r (ledger ++ more) (install r w).world ∧
      ∀ u, (install r w).outcome = .ok u → more = libraryParents := by
  have hancestry := h.ancestry
  obtain ⟨hhistory, hinstall⟩ := records_install r ledger w h
  refine ⟨hancestry.names, hancestry.top, fun name parent hl => ⟨?_, hancestry.parent _ hl,
    hancestry.chain _ hl⟩, fun name hname => ?_, hancestry.wellFounded, fun w' hw name hname => ?_,
    hhistory, hinstall⟩
  · rintro rfl
    exact hancestry.wellFounded.irrefl.irrefl _ hl
  · rcases hancestry.contains_iff.1 hname with rfl | ⟨parent, hl⟩
    · exact .refl
    · exact hancestry.leads _ hl
  · obtain ⟨e, he⟩ := Option.isSome_iff_exists.1 hname
    rw [typeChain, typeChain, hw.extends.find? he, he]

/-- Another name for arrays of numbers descends from arrays. -/
theorem lineage_wellFounded_array :
    let w := (create true .empty).world
    let w' := (invoke 1 (.function (.operation 0 .alias))
      [.text "row", .text "array<number>"] [] w).world
    Lineage 0 (baseParents ++ [("row", "array")]) w' ∧
      (w'.registry 0).typeChain "row" = chainBelow ((w'.registry 0).typeChain "array") "row" ∧
      (w'.registry 0).typeChain "array" = "* -> object -> array" := by
  intro w w'
  have hcreate : (create true).Returns .empty 0 w := ⟨rfl, rfl⟩
  have hcreated : Lineage 0 baseParents w := .created hcreate
  have hparse : Descriptor.parse "array<number>" =
      .ok ⟨"array", .arguments ["number"], false⟩ := by rfl
  have h : Lineage 0 (baseParents ++ [("row", "array")]) w' :=
    hcreated.registered rfl (.synonym hparse) (n := 1) (u := .null) ⟨rfl, rfl⟩
  obtain ⟨-, -, hlink, -⟩ := lineage_wellFounded h
  exact ⟨h, (hlink "row" "array" (by simp)).2.2, by decide⟩

end CallContracts.Registry
