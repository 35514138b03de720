import CallContracts.Proofs.Registry.Order
import CallContracts.Proofs.Registry.Refining
import CallContracts.Proofs.Signature.Arguments

/-!
Which types can be refined.

The contract of a refinement is put together from the name of the parent and read again, so the
parent must be found in it under its own name.

* `Descriptor.eq_ofName_of_parse`: an expression that reads as a type of its own name says nothing
  besides, unless it is `()`;
* `Registry.fits_refinementTree`: a predicate with one to three parameters can take the contract;
* `Registry.refinable_of_parse`: **a type whose name reads as itself can be refined**, as long as
  no comma and no closing bracket is in it;
* `Registry.not_refinable`: **no other condition will do**: `()` cannot stand beside other entries,
  and names with a comma or a closing bracket are broken up.
-/

namespace CallContracts

open Signature Signature.Grammar Text

/-! ### Expressions that read as their own names -/

/-- A name is no longer than its expression, and shorter if the expression says more. -/
lemma Signature.Grammar.Expression.length_name {cs : List Char} {name : String} {detail : Detail}
    (h : Expression cs name detail) :
    name.length ≤ cs.length ∧ (detail ≠ .plain → name.length < cs.length) := by
  have htrim : ∀ a : List Char, (trimmed a).length ≤ a.length := fun a => by
    rw [trimmed, String.length_ofList]
    exact length_trim_le a
  cases h with
  | plain _ => exact ⟨htrim cs, fun h => absurd rfl h⟩
  | @label a b _ =>
    have ha := htrim a
    simp only [List.length_append, List.length_cons]
    exact ⟨by omega, fun _ => by omega⟩
  | @arguments a p ps _ _ =>
    have ha := htrim a
    simp only [List.length_append, List.length_cons]
    exact ⟨by omega, fun _ => by omega⟩

namespace Descriptor

variable {name : String} {d : Descriptor}

/-- An expression that reads as a type of its own name is that name alone. -/
lemma eq_ofName_of_parse (h : parse name = .ok d) (hname : d.name = name)
    (hunit : name ≠ unitName) : d = ofName name := by
  have hreads : Reads (trim name.toList) d := by
    rwa [← parse_eq_ok_iff_reads, String.ofList_toList]
  have htrim := length_trim_le name.toList
  rw [String.length_toList] at htrim
  generalize trim name.toList = cs at hreads htrim
  cases hreads with
  | unit => exact absurd hname.symm hunit
  | @bracketed i inner detail _ hexpression =>
    obtain ⟨hlength, -⟩ := hexpression.length_name
    have hinner := length_trim_le i
    obtain rfl : inner = name := hname
    simp only [List.length_append, List.length_cons, List.length_nil] at htrim
    omega
  | @bare _ inner detail _ _ _ hexpression =>
    obtain ⟨-, hlength⟩ := hexpression.length_name
    obtain rfl : inner = name := hname
    have hplain : detail = .plain := by
      by_contra hdetail
      have := hlength hdetail
      omega
    rw [hplain]
    rfl

/-- Such a name can stand in a stage if no delimiter of stages breaks it up. -/
lemma readable_of_parse (h : parse name = .ok d) (hname : d.name = name) (hunit : name ≠ unitName)
    (hchars : ∀ c ∈ name.toList, c ≠ ',' ∧ c ≠ '>') : (ofName name).Readable := by
  obtain rfl := eq_ofName_of_parse h hname hunit
  have hreads : Reads (trim name.toList) (ofName name) := by
    rwa [← parse_eq_ok_iff_reads, String.ofList_toList]
  have hopen : ∀ c ∈ name.toList, c ≠ '<' := by
    generalize hcs : trim name.toList = cs at hreads
    cases hreads with
    | bare _ _ _ hexpression =>
      cases hexpression with
      | plain hplain =>
        intro c hc
        rw [trimmed, String.toList_ofList, ← hcs, trim_trim, hcs] at hc
        exact (hplain c hc).1
  have hpiece : IsPiece [','] name.toList :=
    closes_of_plain fun c hc =>
      ⟨hopen c hc, (hchars c hc).2, by simp [stopsAt, (hchars c hc).1.symm]⟩
  exact ⟨sound_of_parse h hpiece, fun hoptional => by simp [ofName] at hoptional⟩

end Descriptor

/-! ### Refining -/

namespace Registry

variable {r : RegistryId} {w w' : World} {parent name : String} {d : Descriptor} {f : Function}

/-- A predicate with one to three parameters can take the contract of a refinement. -/
lemma fits_refinementTree {raw : String} (hleast : 1 ≤ (Value.function f).parameterCount)
    (hmost : (Value.function f).parameterCount ≤ 3) :
    Enforcer.Fits (.plain f (refinementTree parent) raw .null true) := by
  have hrequired : Stage.required ((refinementTree parent).parameters?.getD []) = 1 := rfl
  have hlength : ((refinementTree parent).parameters?.getD []).length = 3 := rfl
  rw [Enforcer.Fits, Signature.checkCount, Value.parameterCount, parameters?_plain,
    ← Value.parameterCount]
  simp [Signed.tree, hrequired, hlength, hmost, Nat.one_le_iff_ne_zero.1 hleast]

/-- **A type whose name reads as itself can be refined**, provided that it is not `()` and that no
comma and no `>` is in the name: `subtype` gives what refines it, and at any later time this
registers any predicate of one to three parameters under any fresh name that is not blank. The
new type is the last one, and its ancestry is that of the parent, extended by its name. -/
theorem refinable_of_parse (hbase : HasBase (w.registry r))
    (hcontains : (w.registry r).contains parent = true) (hparse : Descriptor.parse parent = .ok d)
    (hname : d.name = parent) (hunit : parent ≠ unitName)
    (hchars : ∀ c ∈ parent.toList, c ≠ ',' ∧ c ≠ '>') (n : ℕ) :
    (invoke (n + 1) (.function (.operation r .subtype)) [.text parent] []).Returns w
        (.function (.binder r parent)) w ∧
    ∀ w', w.History w' → ∀ name f, Text.isBlankText name = false →
      (w'.registry r).contains name = false → 1 ≤ (Value.function f).parameterCount →
      (Value.function f).parameterCount ≤ 3 → ∀ m, ∃ w'' e,
        (invoke (m + 1) (.function (.binder r parent)) [.text name, .function f] []).Returns w'
          .null w'' ∧
        w'.AddsOne r e w'' ∧ e.name = name ∧
        (w''.registry r).typeChain name = chainBelow ((w.registry r).typeChain parent) name := by
  refine ⟨returns_subtype_iff.2 ⟨hcontains, rfl, rfl⟩, fun w' hw name f hblank hfresh hleast hmost
    m => ?_⟩
  have hbase' := hbase.extends hw.extends
  have hchain : (w'.registry r).typeChain parent = (w.registry r).typeChain parent := by
    obtain ⟨p, hp⟩ := Option.isSome_iff_exists.1 hcontains
    rw [typeChain, typeChain, hw.extends.find? hp, hp]
  let e : Entry := newEntry ((w'.registry r).typeChain parent) name (refinementPredicate r parent f)
  obtain ⟨reg, hreg⟩ : ∃ reg, (w'.registry r).insert? e = some reg := by
    rw [← Option.isSome_iff_exists, insert?_isSome]
    simpa [e, newEntry] using hfresh
  have hbind := returns_bind_fresh (Descriptor.readable_of_parse hparse hname hunit hchars) hunit
    hbase' (hw.extends.contains hcontains) (fits_refinementTree hleast hmost) hblank hreg
  refine ⟨_, e, returns_binder_iff.2 hbind, World.addsOne_setRegistry hbase'.lt_length hreg, rfl,
    ?_⟩
  have hself : name = e.name := rfl
  rw [World.registry_setRegistry, if_pos ⟨rfl, hbase'.lt_length⟩, typeChain, find?_insert? hreg,
    if_pos hself, ← hchain]
  rfl

/-- Arrays can be refined. -/
theorem refinable_of_parse_array :
    HasBase (world.registry 0) ∧ Descriptor.parse "array" = .ok (.ofName "array") ∧
      (world.registry 0).contains "rows" = false ∧ (predicate .isBounded).parameterCount = 2 ∧
      ∃ w e, (invoke 1 (.function (.binder 0 "array")) [.text "rows", predicate .isBounded]
          []).Returns world .null w ∧ world.AddsOne 0 e w ∧ e.name = "rows" ∧
        (w.registry 0).typeChain "rows" =
          chainBelow ((world.registry 0).typeChain "array") "rows" := by
  have hbase : HasBase (world.registry 0) := hasBase_base
  have hparse : Descriptor.parse "array" = .ok (.ofName "array") := by rfl
  have hfresh : (world.registry 0).contains "rows" = false := by decide
  have hchars : ∀ c ∈ "array".toList, c ≠ ',' ∧ c ≠ '>' := by simp
  obtain ⟨-, hbind⟩ := refinable_of_parse hbase (by decide) hparse rfl (by decide) hchars 0
  exact ⟨hbase, hparse, hfresh, rfl,
    hbind world .refl "rows" (.predicate .isBounded) (by decide) hfresh (by decide) (by decide) 0⟩

/-- The names that read as themselves but not in a stage cannot be refined: `()` stands beside
other entries there, and commas and closing brackets break a name up. -/
theorem not_refinable :
    let w := (Act.each (fun name => extend 0 (.text name) (predicate .isNone)) ["a,b", "a>b"]
      world).world
    HasBase (w.registry 0) ∧ (w.registry 0).contains "x" = false ∧
      (predicate .isInt).parameterCount = 1 ∧
      [unitName, "a,b", "a>b"].Forall fun parent => (w.registry 0).contains parent = true ∧
        (∃ d, Descriptor.parse parent = .ok d ∧ d.name = parent) ∧
        ∀ n binder m u w',
          (invoke n (.function (.operation 0 .subtype)) [.text parent] []).Returns w binder w →
            ¬ (invoke m binder [.text "x", predicate .isInt] []).Returns w u w' := by
  intro w
  have hextends : world.Extends w :=
    (Act.basic_each (fun _ => basic_extend _ _ _) _).moves World.Extends world
  have hcontains : ∀ parent ∈ [unitName, "a,b", "a>b"],
      (w.registry 0).contains parent = true := by decide
  have hreads : ∀ parent ∈ [unitName, "a,b", "a>b"],
      (Descriptor.parse parent).map Descriptor.name = .ok parent := by decide
  have hbroken : ∀ parent ∈ [unitName, "a,b", "a>b"],
      (Tree.parse (some (w.registry 0).contains) (refinementContract parent)).toOption = none := by
    decide
  have hbase : HasBase (world.registry 0) := hasBase_base
  refine ⟨hbase.extends hextends, by decide, rfl, List.forall_iff_forall_mem.2 fun parent hparent =>
    ⟨hcontains parent hparent, exists_of_map_ok (hreads parent hparent),
      fun n binder m u w' hsubtype hbind => ?_⟩⟩
  rcases n with _ | n
  · exact Act.not_returns_exhausted hsubtype
  obtain ⟨-, rfl, -⟩ := returns_subtype_iff.1 hsubtype
  obtain ⟨e, reg, hadds, -⟩ := Registration.exists_adds (.refinement parent) hbind
  cases hadds with
  | refinement _ _ henforce =>
    obtain ⟨text, f, t, htext, -, hparse, -⟩ := Enforcer.exists_of_enforce henforce
    obtain rfl : refinementContract parent = text := by simpa using htext
    have hnone := hbroken parent hparent
    rw [hparse] at hnone
    simp [Except.toOption] at hnone

end Registry

end CallContracts
