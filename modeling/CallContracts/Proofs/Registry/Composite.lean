import CallContracts.Proofs.Registry.Library
import CallContracts.Proofs.Signature.Arguments

/-!
Tuples and arrays, to any depth.

The arguments of a type travel as text and are read anew for each part of a value.

* `Registry.Known`: a registry gives a tester for an expression;
* `Registry.tests_tuple_iff` and `Registry.tests_array_iff`: a tuple is tested part by part, an
  array item by item;
* `Registry.Generic`: nested tuples and arrays as a syntax tree, with their texts, and
  `Registry.Generic.Fits`: what it is for a value to fit such a tree;
* `Registry.tests_composite`: **membership in nested types is structural**, by induction on the
  tree.
-/

namespace CallContracts.Registry

open NativePredicate Signature.Grammar Text

variable {r : RegistryId} {w w' : World} {text : String} {d : Descriptor} {v : Value}
  {b : Bool} {items : List Value}

/-! ### Expressions -/

/-- A registry gives a tester for an expression: it does not fault. -/
def Known (r : RegistryId) (text : String) (w : World) : Prop :=
  ∃ tester w', Answers (membershipTest r) [.text text] w tester w'

lemma known_iff : Known r text w ↔
    ∃ d e, Descriptor.parse text = .ok d ∧ (w.registry r).find? d.name = some e := by
  constructor
  · rintro ⟨tester, w', n, h⟩
    rcases n with _ | n
    · exact absurd h Act.not_returns_exhausted
    obtain ⟨e, d, hresolve, -⟩ := returns_membershipTest_iff.1 h
    exact ⟨d, e, parse_of_resolve hresolve.1⟩
  · rintro ⟨d, e, hparse, he⟩
    exact ⟨_, w, 1, returns_membershipTest_iff.2
      ⟨e, d, Act.returns_of_eq (resolve_of_parse hparse he), rfl⟩⟩

lemma resolve_of_unknown (h : ¬ Known r text w) :
    ∃ f, resolve r (.text text) w = ⟨.error (.fault f), w, []⟩ := by
  rw [resolve_text]
  rcases hparse : Descriptor.parse text with f | d
  · exact ⟨_, rfl⟩
  · rcases he : (w.registry r).find? d.name with _ | e
    · simp only [he]
      exact ⟨_, rfl⟩
    · exact absurd (known_iff.2 ⟨d, e, hparse, he⟩) h

/-- Blanks around an expression make no difference. -/
lemma tests_trimText_iff : Tests r (trimText text) v w b w' ↔ Tests r text v w b w' := by
  simp only [tests_iff_isMember, returns_isMember_iff, Descriptor.parse_trimText_eq_ok_iff]

lemma known_trimText_iff : Known r (trimText text) w ↔ Known r text w := by
  simp only [known_iff, Descriptor.parse_trimText_eq_ok_iff]

lemma Tests.known (h : Tests r text v w b w') : Known r text w := by
  obtain ⟨n, hn⟩ := tests_iff_isMember.1 h
  obtain ⟨d, e, hparse, he, -⟩ := returns_isMember_iff.1 hn
  exact known_iff.2 ⟨d, e, hparse, he⟩

lemma not_known_of_free (hparse : Descriptor.parse text = .ok d)
    (hfree : (w.registry r).find? d.name = none) : ¬ Known r text w := by
  rw [known_iff]
  rintro ⟨d', e, hparse', he⟩
  obtain rfl := Except.ok.inj (hparse.symm.trans hparse')
  rw [hfree] at he
  simp at he

/-- A test has one answer. -/
lemma Tests.unique {b' : Bool} {w'' : World} (h : Tests r text v w b w')
    (h' : Tests r text v w b' w'') : b = b' ∧ w' = w'' :=
  Act.Yields.unique (rising_isMember r text v) (tests_iff_isMember.1 h) (tests_iff_isMember.1 h')

/-- Without side effects a test leaves the world as it is. -/
lemma SideEffectFree.world_eq (h : SideEffectFree r w) (htests : Tests r text v w b w') :
    w' = w := by
  obtain ⟨n, hn⟩ := tests_iff_isMember.1 htests
  exact ((h.at n).isMember text v).world_eq hn

/-- What is a number is decided without more ado. -/
lemma tests_number_iff (hbase : HasBase (w.registry r)) :
    Tests r "number" v w b w' ↔ b = isReal v ∧ w' = w := by
  have hnumber : Tests r "number" v w (isReal v) w :=
    tests_base_of_answer (t := ("number", .isNumber, "* -> number")) (by decide) (by decide) hbase
      rfl
  constructor
  · exact fun h => h.unique hnumber
  · rintro ⟨rfl, rfl⟩
    exact hnumber

/-! ### Arrays -/

/-- The type of the items of an array, which is that of all values if nothing is said. -/
def elementOf (d : Descriptor) : String := ((d.arguments?.getD []).head?).getD "*"

/-- The tester of the items is asked for once, and then about one item after the other. -/
lemma isArrayOf_succ (n : ℕ) :
    isArrayOf (invoke (n + 1)) items d (membershipTest r) =
      if elementOf d = "*" then pure true
      else resolve r (.text (elementOf d)) >>= fun q =>
        Act.all (fun x => holds (invoke n) r q.1 q.2 x) items := by
  rw [isArrayOf, ← elementOf]
  by_cases htop : elementOf d = "*"
  · simp only [htop, if_true]
  · simp only [htop, if_false, invoke_membershipTest, Act.bind_assoc, Act.pure_bind, truth_tester]

lemma rising_isArrayOf (r : RegistryId) (items : List Value) (d : Descriptor) :
    Act.Rising fun n => isArrayOf (invoke n) items d (membershipTest r) := fun _ _ h =>
  congr_isArrayOf (invoke_approximates h) items d (membershipTest r)

/-- Items are of a type if there is a tester for the type and it accepts each of them. -/
lemma yields_isArrayOf_iff (hquiet : SideEffectFree r w) :
    Act.Yields (fun n => isArrayOf (invoke n) items d (membershipTest r)) w true w' ↔
      w' = w ∧ (elementOf d = "*" ∨
        Known r (elementOf d) w ∧ ∀ x ∈ items, Tests r (elementOf d) x w true w) := by
  rw [← Act.yields_shift_iff (rising_isArrayOf r items d) 1]
  simp only [isArrayOf_succ]
  by_cases htop : elementOf d = "*"
  · simp [htop, Act.yields_const_iff, Act.returns_pure_iff, eq_comm]
  · simp only [htop, if_false, false_or]
    by_cases hknown : Known r (elementOf d) w
    · obtain ⟨d', e, hparse, he⟩ := known_iff.1 hknown
      have hstill : ∀ x w₁, Act.Yields (fun n => holds (invoke n) r e d' x) w true w₁ → w₁ = w := by
        rintro x w₁ ⟨n, hn⟩
        exact (quiet_holds (hquiet d' e he n x)).world_eq hn
      simp only [hknown, true_and, tests_iff hparse he]
      show _ ↔ w' = w ∧ ∀ x ∈ items, Act.Yields (fun n => holds (invoke n) r e d' x) w true w
      rw [← Act.yields_all_iff (g := fun n x => holds (invoke n) r e d' x)
        (fun x => rising_holds r e d' x) hstill]
      simp only [Act.Yields, Act.returns_bind_of_pure (resolve_of_parse hparse he)]
    · simp only [hknown, false_and, and_false, iff_false]
      rintro ⟨n, hn⟩
      obtain ⟨⟨e, d'⟩, w₁, hresolve, -⟩ := Act.returns_bind_iff.1 hn
      exact hknown (known_iff.2 ⟨d', e, parse_of_resolve hresolve.1⟩)

/-- The predicate of arrays answers true about lists and tuples of items of the right type. -/
lemma yields_isArray_iff :
    (∃ answer, Act.Yields (fun n => NativePredicate.isArray.answer (invoke n) v (.descriptor d)
        (membershipTest r)) w answer w' ∧ answer.truth w'.heap = true) ↔
      ∃ items, arrayItems? w.heap v = some items ∧
        Act.Yields (fun n => isArrayOf (invoke n) items d (membershipTest r)) w true w' := by
  have hheap : Act.heap w = ⟨.ok w.heap, w, []⟩ := rfl
  simp only [Act.Yields, answer, Act.returns_bind_of_pure hheap]
  cases hitems : arrayItems? w.heap v with
  | none =>
    simp only [Act.returns_pure_iff, reduceCtorEq, false_and, exists_false, iff_false, not_exists]
    rintro answer ⟨⟨-, rfl, -⟩, htruth⟩
    exact absurd htruth Bool.false_ne_true
  | some items =>
    simp only [descriptorOf, Act.pure_bind, Act.returns_bind_iff, Act.returns_pure_iff,
      Option.some.injEq, exists_eq_left']
    constructor
    · rintro ⟨answer, ⟨n, b, w₁, hb, rfl, rfl⟩, htruth⟩
      obtain rfl : b = true := htruth
      exact ⟨n, hb⟩
    · rintro ⟨n, hb⟩
      exact ⟨.bool true, ⟨n, true, w', hb, rfl, rfl⟩, rfl⟩

/-- **An array is tested item by item**: for the type of its first argument, which must be known. -/
lemma tests_array_iff {first : String} {rest : List String} (hbase : HasBase (w.registry r))
    (hquiet : SideEffectFree r w) (hnested : ∀ t ∈ first :: rest, Nested [';'] t.toList) :
    Tests r (Descriptor.applied "array" (first :: rest)) v w true w' ↔
      w' = w ∧ ∃ items, arrayItems? w.heap v = some items ∧ Known r first w ∧
        ∀ x ∈ items, Tests r first x w true w := by
  have hplain := (plainName_base (t := ("array", .isArray, "* -> object -> array")) (by decide)
    (by decide)).2
  have hparse := Descriptor.parse_applied hplain (by simp) hnested
  rw [tests_base_iff hbase (t := ("array", .isArray, "* -> object -> array")) (by decide) hparse
    rfl, yields_isArray_iff]
  simp only [yields_isArrayOf_iff hquiet]
  -- of the type of all values are all items, and their tester need not be asked for
  have htop : trimText first = "*" → Known r first w ∧ ∀ x, Tests r first x w true w := by
    intro hfirst
    have htrim : ∀ x, Tests r first x w true w ↔ Tests r "*" x w true w := by
      intro x
      rw [← tests_trimText_iff, hfirst]
    rw [← known_trimText_iff, hfirst]
    simp only [htrim]
    have hall : ∀ x, Tests r "*" x w true w := fun x =>
      tests_base_of_answer (t := ("*", .anything, "*")) (by decide) (by decide) hbase rfl
    exact ⟨(hall .null).known, hall⟩
  have helement : ∀ items : List Value, (trimText first = "*" ∨ Known r (trimText first) w ∧
      ∀ x ∈ items, Tests r (trimText first) x w true w) ↔
        Known r first w ∧ ∀ x ∈ items, Tests r first x w true w := by
    intro items
    simp only [known_trimText_iff, tests_trimText_iff]
    exact ⟨fun h => h.elim (fun hfirst => ⟨(htop hfirst).1, fun x _ => (htop hfirst).2 x⟩) id, .inr⟩
  constructor
  · rintro ⟨items, hitems, rfl, h⟩
    exact ⟨rfl, items, hitems, (helement items).1 h⟩
  · rintro ⟨rfl, items, hitems, h⟩
    exact ⟨items, hitems, rfl, (helement items).2 h⟩

/-! ### Tuples -/

lemma arrayItems?_presented (h : Heap) (v : Value) :
    arrayItems? h (Stage.presented v) = arrayItems? h v := by
  rw [Stage.presented]
  split_ifs with habsent
  · simp only [Value.isAbsent] at habsent
    split at habsent
    · rfl
    · simp at habsent
  · rfl

lemma items?_of_arrayItems? {h : Heap} (hitems : arrayItems? h v = some items) :
    v.items? h = some items := by
  simp only [arrayItems?] at hitems
  split at hitems
  · exact hitems
  · exact hitems
  · simp at hitems

/-- An array without arguments is any list or tuple. -/
lemma tests_anyArray_iff (hbase : HasBase (w.registry r)) (hquiet : SideEffectFree r w) :
    Tests r "array" v w true w' ↔ w' = w ∧ ∃ items, arrayItems? w.heap v = some items := by
  have hparse : Descriptor.parse "array" = .ok (.ofName "array") := rfl
  have helement : elementOf (.ofName "array") = "*" := rfl
  rw [tests_base_iff hbase (t := ("array", .isArray, "* -> object -> array")) (by decide) hparse
    rfl, yields_isArray_iff]
  simp only [yields_isArrayOf_iff hquiet, helement, true_or, and_true]
  exact ⟨fun ⟨items, hitems, hw⟩ => ⟨hw, items, hitems⟩,
    fun ⟨hw, items, hitems⟩ => ⟨items, hitems, hw⟩⟩

lemma rising_isTupleOf (r : RegistryId) (v : Value) (d : Descriptor) :
    Act.Rising fun n => isTupleOf (invoke n) v d (membershipTest r) := fun _ _ h =>
  congr_isTupleOf (invoke_approximates h) v d (membershipTest r)

/-- The items of a list or a tuple are of the types of a tuple if there are as many of them and each
is of its type. -/
lemma yields_isTupleOf_iff (hquiet : SideEffectFree r w)
    (hitems : arrayItems? w.heap v = some items) :
    Act.Yields (fun n => isTupleOf (invoke n) v d (membershipTest r)) w true w' ↔
      w' = w ∧ List.Forall₂ (fun t x => Tests r t x w true w) (d.arguments?.getD []) items := by
  generalize htypes : d.arguments?.getD [] = types
  have hheap : Act.heap w = ⟨.ok w.heap, w, []⟩ := rfl
  have hsize : NativePredicate.sizeOf v w = ⟨.ok items.length, w, []⟩ := by
    show (Act.heap >>= fun h => Act.orMishap .type (v.length? h)) w = _
    rw [Act.bind_of_pure hheap, Value.length?, items?_of_arrayItems? hitems]
    rfl
  have hread : Act.orMishap .type (v.items? w.heap) w = ⟨.ok items, w, []⟩ := by
    rw [items?_of_arrayItems? hitems]
    rfl
  have hstill : ∀ (p : String × Value) (w₁ : World),
      Act.Yields (fun n => isMember (invoke n) r p.1 p.2) w true w₁ → w₁ = w := by
    rintro p w₁ ⟨n, hn⟩
    exact ((hquiet.at n).isMember p.1 p.2).world_eq hn
  rw [← Act.yields_shift_iff (rising_isTupleOf r v d) 1, List.forall₂_iff_zip]
  by_cases hlength : items.length = types.length
  · have hall : Act.Yields (fun n => Act.all (fun p : String × Value =>
        isMember (invoke n) r p.1 p.2) (types.zip items)) w true w' ↔
          w' = w ∧ ∀ p ∈ types.zip items,
            Act.Yields (fun n => isMember (invoke n) r p.1 p.2) w true w :=
      Act.yields_all_iff (fun p => rising_isMember r p.1 p.2) hstill
    have hparts : (∀ p ∈ types.zip items,
        Act.Yields (fun n => isMember (invoke n) r p.1 p.2) w true w) ↔
          ∀ {t x}, (t, x) ∈ types.zip items → Tests r t x w true w := by
      simp only [tests_iff_isMember, Prod.forall]
      exact Iff.rfl
    rw [hparts] at hall
    simp only [hlength, true_and]
    rw [← hall]
    simp only [Act.Yields, isTupleOf, htypes, truth_test, Act.returns_bind_of_pure hsize, hlength,
      ne_eq, not_true_eq_false, if_false, Act.returns_bind_of_pure hheap,
      Act.returns_bind_of_pure hread]
  · simp only [Act.Yields, isTupleOf, htypes, Act.returns_bind_of_pure hsize, hlength, ne_eq,
      not_false_eq_true, if_true, Act.returns_pure_iff]
    simp [Ne.symm hlength]

/-- **A tuple is tested part by part**: there must be as many parts as arguments, and each must be
of its type, which must be known. -/
lemma tests_tuple_iff {members : List String} (hlibrary : HasLibrary r (w.registry r))
    (hquiet : SideEffectFree r w) (hne : members ≠ [])
    (hnested : ∀ t ∈ members, Nested [';'] t.toList) :
    Tests r (Descriptor.applied "tuple" members) v w true w' ↔
      w' = w ∧ ∃ items, arrayItems? w.heap v = some items ∧
        List.Forall₂ (fun t x => Tests r t x w true w) members items := by
  have ht : ("array", "tuple", NativePredicate.isTuple) ∈ refinements := by decide
  have hparse := Descriptor.parse_applied (plainName_refinement ht).2 hne hnested
  have hparts : ∀ items : List Value,
      List.Forall₂ (fun t x => Tests r t x w true w) (members.map trimText) items ↔
        List.Forall₂ (fun t x => Tests r t x w true w) members items := by
    intro items
    simp only [List.forall₂_map_left_iff, tests_trimText_iff]
  have hanswer : ∀ n d, NativePredicate.isTuple.answer (invoke n) v (.descriptor d)
      (membershipTest r) = isTupleOf (invoke n) v d (membershipTest r) >>= fun b =>
        pure (.bool b) := by
    intro n d
    rw [answer, descriptorOf, Act.pure_bind]
  rw [tests_refinement_iff hlibrary ht hparse rfl]
  simp only [tests_anyArray_iff hlibrary.base hquiet, arrayItems?_presented, hanswer,
    yields_bool_iff]
  constructor
  · rintro ⟨w₁, ⟨rfl, items, hitems⟩, h⟩
    obtain ⟨hw, hall⟩ := (yields_isTupleOf_iff hquiet hitems).1 h
    exact ⟨hw, items, hitems, (hparts items).1 hall⟩
  · rintro ⟨hw, items, hitems, hall⟩
    exact ⟨w, ⟨rfl, items, hitems⟩,
      (yields_isTupleOf_iff hquiet hitems).2 ⟨hw, (hparts items).2 hall⟩⟩

/-! ### Nested types -/

/-- Tuples and arrays over other types, nested to any depth. An array may have more arguments than
the type of its items; they mean nothing. -/
inductive Generic where
  | leaf (text : String)
  | tuple (parts : List Generic)
  | array (element : Generic) (rest : List Generic)

namespace Generic

mutual

/-- The expression for a nested type. -/
def expression : Generic → String
  | leaf t => t
  | tuple parts => Descriptor.applied "tuple" (expressions parts)
  | array element rest => Descriptor.applied "array" (element.expression :: expressions rest)

def expressions : List Generic → List String
  | [] => []
  | g :: gs => g.expression :: expressions gs

end

mutual

/-- A tuple has parts, and the brackets of the other expressions pair up, with no semicolon outside
of them. -/
def WellFormed : Generic → Prop
  | leaf t => Nested [';'] t.toList
  | tuple parts => parts ≠ [] ∧ AllWellFormed parts
  | array element rest => element.WellFormed ∧ AllWellFormed rest

def AllWellFormed : List Generic → Prop
  | [] => True
  | g :: gs => g.WellFormed ∧ AllWellFormed gs

end

/-- Tuples and arrays are known; the other types may be or not. -/
def IsKnown (known : String → Prop) : Generic → Prop
  | leaf t => known t
  | _ => True

variable (known : String → Prop) (accepts : String → Value → Prop) (h : Heap)

mutual

/-- A value fits a nested type if its parts do, given which values the other types accept. -/
def Fits : Generic → Value → Prop
  | leaf t, v => accepts t v
  | tuple parts, v => ∃ items, arrayItems? h v = some items ∧ AllFit parts items
  | array element _, v => ∃ items, arrayItems? h v = some items ∧ element.IsKnown known ∧
      ∀ x ∈ items, element.Fits x

def AllFit : List Generic → List Value → Prop
  | [], items => items = []
  | g :: gs, items => ∃ x xs, items = x :: xs ∧ g.Fits x ∧ AllFit gs xs

end

lemma expressions_eq_nil_iff {gs : List Generic} : expressions gs = [] ↔ gs = [] := by
  cases gs <;> simp [expressions]

mutual

lemma nested_expression : ∀ {g : Generic}, g.WellFormed → Nested [';'] g.expression.toList
  | leaf _, hg => hg
  | tuple _, hg => nested_applied (by simp) (nested_expressions hg.2)
  | array _ _, hg => nested_applied (by simp)
      (List.forall_mem_cons.2 ⟨nested_expression hg.1, nested_expressions hg.2⟩)

lemma nested_expressions : ∀ {gs : List Generic}, AllWellFormed gs →
    ∀ t ∈ expressions gs, Nested [';'] t.toList
  | [], _ => by simp [expressions]
  | _ :: _, hgs => List.forall_mem_cons.2 ⟨nested_expression hgs.1, nested_expressions hgs.2⟩

end

/-- The expressions for tuples and arrays are known. -/
lemma known_expression_iff (hlibrary : HasLibrary r (w.registry r)) {g : Generic}
    (hg : g.WellFormed) : Known r g.expression w ↔ g.IsKnown (Known r · w) := by
  cases g with
  | leaf t => exact Iff.rfl
  | tuple parts =>
    have ht : ("array", "tuple", NativePredicate.isTuple) ∈ refinements := by decide
    obtain ⟨chain, he⟩ := hlibrary.refinement _ ht
    exact iff_of_true (known_iff.2 ⟨_, _, Descriptor.parse_applied (plainName_refinement ht).2
      (mt expressions_eq_nil_iff.1 hg.1) (nested_expressions hg.2), he⟩) trivial
  | array element rest =>
    have ht : ("array", NativePredicate.isArray, "* -> object -> array") ∈ baseTypes := by decide
    exact iff_of_true (known_iff.2 ⟨_, _, Descriptor.parse_applied
      (plainName_base ht (by decide)).2 (by simp)
      (List.forall_mem_cons.2 ⟨nested_expression hg.1, nested_expressions hg.2⟩),
      hlibrary.base _ ht⟩) trivial

mutual

/-- A test for a nested type looks at all parts of a value, and at nothing else. -/
lemma tests_expression_iff (hlibrary : HasLibrary r (w.registry r)) (hquiet : SideEffectFree r w) :
    ∀ {g : Generic}, g.WellFormed → ∀ v w',
      Tests r g.expression v w true w' ↔
        w' = w ∧ g.Fits (Known r · w) (fun t x => Tests r t x w true w) w.heap v
  | leaf t, _, v, w' => by
    constructor
    · intro h
      obtain rfl := hquiet.world_eq h
      exact ⟨rfl, h⟩
    · rintro ⟨rfl, h⟩
      exact h
  | tuple parts, hg, v, w' => by
    rw [expression, tests_tuple_iff hlibrary hquiet (mt expressions_eq_nil_iff.1 hg.1)
      (nested_expressions hg.2)]
    simp only [Fits, forall₂_expressions_iff hlibrary hquiet hg.2]
  | array element rest, hg, v, w' => by
    rw [expression, tests_array_iff hlibrary.base hquiet
      (List.forall_mem_cons.2 ⟨nested_expression hg.1, nested_expressions hg.2⟩),
      known_expression_iff hlibrary hg.1]
    simp only [Fits, tests_expression_iff hlibrary hquiet hg.1, true_and]

lemma forall₂_expressions_iff (hlibrary : HasLibrary r (w.registry r))
    (hquiet : SideEffectFree r w) : ∀ {gs : List Generic}, AllWellFormed gs → ∀ items,
      List.Forall₂ (fun t x => Tests r t x w true w) (expressions gs) items ↔
        AllFit (Known r · w) (fun t x => Tests r t x w true w) w.heap gs items
  | [], _, items => by simp [expressions, AllFit]
  | g :: gs, hgs, items => by
    rw [expressions, List.forall₂_cons_left_iff, AllFit]
    constructor
    · rintro ⟨x, xs, hx, hxs, rfl⟩
      exact ⟨x, xs, rfl, ((tests_expression_iff hlibrary hquiet hgs.1 x w).1 hx).2,
        (forall₂_expressions_iff hlibrary hquiet hgs.2 xs).1 hxs⟩
    · rintro ⟨x, xs, rfl, hx, hxs⟩
      exact ⟨x, xs, (tests_expression_iff hlibrary hquiet hgs.1 x w).2 ⟨rfl, hx⟩,
        (forall₂_expressions_iff hlibrary hquiet hgs.2 xs).2 hxs, rfl⟩

end

end Generic

/-- **Membership in tuples and arrays is structural.** With the library, and without side effects, a
value is of a tuple type exactly if it is a list or a tuple of as many items as there are arguments
and each item is of its type, whose expression must be known; and it is of an array type exactly if
it is a list or a tuple, the type of the first argument is known and all items are of it. So a value
is of a type that nests tuples and arrays to any depth exactly if it has their structure, with parts
at the leaves that are of the types there. -/
theorem tests_composite (hlibrary : HasLibrary r (w.registry r)) (hquiet : SideEffectFree r w) :
    (∀ members : List String, members ≠ [] → (∀ t ∈ members, Nested [';'] t.toList) →
      ∀ v w', Tests r (Descriptor.applied "tuple" members) v w true w' ↔
        w' = w ∧ ∃ items, arrayItems? w.heap v = some items ∧
          List.Forall₂ (fun t x => Tests r t x w true w) members items) ∧
    (∀ (first : String) (rest : List String),
      (∀ t ∈ first :: rest, Nested [';'] t.toList) →
        ∀ v w', Tests r (Descriptor.applied "array" (first :: rest)) v w true w' ↔
          w' = w ∧ ∃ items, arrayItems? w.heap v = some items ∧ Known r first w ∧
            ∀ x ∈ items, Tests r first x w true w) ∧
    ∀ g : Generic, g.WellFormed → ∀ v w',
      Tests r g.expression v w true w' ↔
        w' = w ∧ g.Fits (Known r · w) (fun t x => Tests r t x w true w) w.heap v :=
  ⟨fun _ hne hnested _ _ => tests_tuple_iff hlibrary hquiet hne hnested,
    fun _ _ hnested _ _ => tests_array_iff hlibrary.base hquiet hnested,
    fun _ hg v w' => Generic.tests_expression_iff hlibrary hquiet hg v w'⟩

/-- A pair of a number and an array of texts, in a registry with the library. -/
theorem tests_composite_pair :
    let w := libraryWorld
    HasLibrary 0 (w.registry 0) ∧ SideEffectFree 0 w ∧
      Tests 0 "tuple<number;array<string>>" (.tuple [.int 1, .tuple [.text "a", .text "b"]]) w true
        w := by
  intro w
  have hlibrary : HasLibrary 0 (w.registry 0) := installed_libraryWorld.library
  have hquiet : SideEffectFree 0 w := sideEffectFree_libraryWorld
  have hnumber : Tests 0 "number" (.int 1) w true w :=
    tests_base_of_answer (t := ("number", .isNumber, "* -> number")) (by decide) (by decide)
      hlibrary.base rfl
  have hstring : ∀ s : String, Tests 0 "string" (.text s) w true w := fun s =>
    tests_base_of_answer (t := ("string", .isString, "* -> string")) (by decide) (by decide)
      hlibrary.base rfl
  have hknown : Known 0 "string" w := (hstring "").known
  let g : Generic := .tuple [.leaf "number", .array (.leaf "string") []]
  have hg : g.WellFormed :=
    ⟨by simp, nested_plain (by simp), ⟨nested_plain (by simp), trivial⟩, trivial⟩
  refine ⟨hlibrary, hquiet, ((tests_composite hlibrary hquiet).2.2 g hg _ w).2 ⟨rfl, ?_⟩⟩
  refine ⟨_, rfl, _, _, rfl, hnumber, _, _, rfl, ⟨_, rfl, hknown, ?_⟩, rfl⟩
  simp [Generic.Fits, hstring]

end CallContracts.Registry
