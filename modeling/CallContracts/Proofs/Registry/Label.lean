import CallContracts.Proofs.Registry.Synonym

/-!
Type expressions on their own and in signatures.

A registry reads the expression that it is asked for by itself; a contract reads it as one of the
tokens of a signature, and checks what was read. Only the check refuses a label behind a name that
takes none.

* `Registry.parseForm_returning_iff`: a text that is one token, behind an arrow, reads as a
  signature if it reads as a type expression;
* `Registry.parse_returning_of_mislabelled`: a label behind a name that takes none is the fault of
  the signature;
* `Registry.parse_returning_iff_known`: **an expression is accepted in a signature if it is accepted
  on its own** and has no such label; one that has is accepted on its own all the same
  (`Registry.not_forall_parse_returning_iff_known`).
-/

namespace CallContracts

/-- A label stands behind a name that takes none. -/
def Descriptor.Mislabelled (d : Descriptor) : Prop :=
  d.label?.isSome = true ∧ d.name ≠ labelledName

namespace Registry

open Signature Signature.Grammar Text

variable {r : RegistryId} {w : World} {T name : String} {d : Descriptor} {t : Tree}
  {known : String → Bool}

/-! ### The form of a signature -/

/-- A contract that asks for a value of a type in return. -/
def returning (T : String) : String := "* => " ++ T

/-- The one stage of the parameters. -/
lemma parseStage_top {signature : String} :
    Tree.parseStage signature ['*', ' '] = .ok [.ofName topName] := rfl

/-- A token with blanks around it is a stage if it reads as a type expression. -/
lemma parseStage_token_iff (signature : String) {raw : List Char} {s : Stage}
    (hT : Nested [','] T.toList) (hpad : Padded T.toList raw) :
    Tree.parseStage signature raw = .ok s ↔ ∃ d, Descriptor.parse T = .ok d ∧ s = [d] := by
  have hpiece : IsPiece [','] raw := (nested_singleton_iff.1 hT).padded isDelimiter_comma hpad
  have hsplit : split [','] raw = .ok [raw] := (split_eq_ok_iff isDelimiter_comma).2
    ⟨by simp, List.forall_mem_singleton.2 hpiece, by simp⟩
  have hreads : ∀ d, Reads (trim raw) d ↔ Descriptor.parse T = .ok d := by
    intro d
    rw [trim_padded hpad, ← parse_eq_ok_iff_reads, String.ofList_toList]
  rw [parseStage_of_split hsplit]
  constructor
  · rintro ⟨hall, -⟩
    obtain ⟨d, rest, hd, hnil, rfl⟩ := List.forall₂_cons_left_iff.1 hall
    rw [List.forall₂_nil_left_iff.1 hnil]
    exact ⟨d, (hreads d).1 hd, rfl⟩
  · rintro ⟨d, hd, rfl⟩
    exact ⟨.cons ((hreads d).2 hd) .nil, fun _ => rfl⟩

/-- **A text that is one token, behind an arrow**, reads as a signature if it reads as a type
expression. -/
lemma parseForm_returning_iff (hT : Nested [','] T.toList) :
    Tree.parseForm (returning T) = .ok t ↔
      ∃ d, Descriptor.parse T = .ok d ∧ t = ⟨[[.ofName topName], [d]]⟩ := by
  have hpad : Padded T.toList (' ' :: T.toList) := ⟨[' '], [], by decide, by decide, by simp⟩
  have hbalanced : IsPiece ['=', '>'] (' ' :: T.toList) :=
    (isPiece_arrow_iff.2 (nested_singleton_iff.1 hT).balanced).padded isDelimiter_arrow hpad
  have hsplit : split ['=', '>'] (returning T).toList = .ok [['*', ' '], ' ' :: T.toList] := by
    refine (split_eq_ok_iff isDelimiter_arrow).2 ⟨by simp, ?_, by simp [returning]⟩
    exact List.forall_mem_cons.2
      ⟨isPiece_arrow_iff.2 (by decide), List.forall_mem_singleton.2 hbalanced⟩
  have hpieces : pieces "=>" (returning T).toList = .ok [['*', ' '], ' ' :: T.toList] :=
    pieces_of_split hsplit
  have htoken := fun s => parseStage_token_iff (returning T) (s := s) hT hpad
  rw [Tree.parseForm_eq_ok_iff, hpieces]
  simp only [Except.ok.injEq, exists_eq_left']
  constructor
  · rintro ⟨-, hstages, -⟩
    obtain ⟨stages⟩ := t
    obtain ⟨s, rest, hs, hrest, rfl⟩ := List.forall₂_cons_left_iff.1 hstages
    obtain ⟨s', rest', hs', hnil, rfl⟩ := List.forall₂_cons_left_iff.1 hrest
    obtain ⟨d, hd, rfl⟩ := (htoken s').1 hs'
    rw [parseStage_top] at hs
    rw [List.forall₂_nil_left_iff.1 hnil, ← Except.ok.inj hs]
    exact ⟨d, hd, rfl⟩
  · rintro ⟨d, hd, rfl⟩
    exact ⟨by simp, .cons parseStage_top (.cons ((htoken [d]).2 ⟨d, hd, rfl⟩) .nil), d, rfl⟩

/-! ### Labels -/

/-- A label behind a name that takes none is the fault of a signature, whether or not the name is
known. -/
lemma parse_returning_of_mislabelled (hT : Nested [','] T.toList)
    (hd : Descriptor.parse T = .ok d) (hlabel : d.Mislabelled) :
    Tree.parse (some known) (returning T) =
      .error ⟨.unexpectedLabel d.name, some (returning T)⟩ := by
  have hform := (parseForm_returning_iff hT).2 ⟨d, hd, rfl⟩
  have hfind : ([[Descriptor.ofName topName], [d]].flatten.find? fun d =>
      d.label?.isSome && d.name != labelledName) = some d := by
    have htop : (Descriptor.ofName topName).label?.isSome = false := rfl
    simp [htop, hlabel.1, hlabel.2]
  have hcheck : Tree.checkNames known (returning T) ⟨[[.ofName topName], [d]]⟩ =
      .error ⟨.unexpectedLabel d.name, some (returning T)⟩ := by
    simp only [Tree.checkNames, hfind]
  rw [Tree.parse, hform]
  show (Tree.checkNames known (returning T) _ >>= fun _ => pure _) = _
  rw [hcheck]
  rfl

/-- Nothing can be signed with it. -/
lemma sign_of_mislabelled (hT : Nested [','] T.toList) (hd : Descriptor.parse T = .ok d)
    (hlabel : d.Mislabelled) (v context : Value) :
    Enforcer.sign r (.text (returning T)) v context w =
      ⟨.error (.fault (.signature ⟨.unexpectedLabel d.name, some (returning T)⟩)), w, []⟩ := by
  have hregistry : Act.registry r w = ⟨.ok (w.registry r), w, []⟩ := rfl
  have hread : Enforcer.readContract r (.text (returning T)) w =
      ⟨.error (.fault (.signature ⟨.unexpectedLabel d.name, some (returning T)⟩)), w, []⟩ := by
    rw [Enforcer.readContract, Act.bind_of_pure hregistry, Signature.read_text,
      parse_returning_of_mislabelled hT hd hlabel]
  rw [Enforcer.sign, Act.bind_of_error hread]

/-- Without such a label only the names are checked. -/
lemma exists_parse_returning_iff (hbase : HasBase (w.registry r)) (hT : Nested [','] T.toList) :
    (∃ t, Tree.parse (some (w.registry r).contains) (returning T) = .ok t) ↔
      Known r T w ∧ ∀ d, Descriptor.parse T = .ok d → ¬ d.Mislabelled := by
  constructor
  · rintro ⟨t, ht⟩
    obtain ⟨hform, hcheck⟩ := Tree.parse_eq_ok_iff.1 ht
    obtain ⟨d, hd, rfl⟩ := (parseForm_returning_iff hT).1 hform
    obtain ⟨hlabels, hnames⟩ := Tree.checkNames_eq_ok_iff.1 (hcheck _ rfl)
    obtain ⟨e, he⟩ := Option.isSome_iff_exists.1 (hnames d (by simp))
    refine ⟨known_iff.2 ⟨d, e, hd, he⟩, fun d' hd' hlabel => ?_⟩
    obtain rfl := Except.ok.inj (hd.symm.trans hd')
    exact hlabel.2 (hlabels d (by simp) hlabel.1)
  · rintro ⟨hknown, hlabel⟩
    obtain ⟨d, e, hd, he⟩ := known_iff.1 hknown
    have htop : (w.registry r).contains topName = true :=
      hbase.contains (t := ("*", .anything, "*")) (by decide)
    have hcontains : (w.registry r).contains d.name = true := contains_of_find? he
    have hplain : d.label?.isSome = true → d.name = labelledName := fun hsome =>
      not_not.1 fun hname => hlabel d hd ⟨hsome, hname⟩
    have htree : (⟨[[.ofName topName], [d]]⟩ : Tree).stages.flatten = [.ofName topName, d] := rfl
    refine ⟨_, Tree.parse_eq_ok_iff.2 ⟨(parseForm_returning_iff hT).2 ⟨d, hd, rfl⟩, ?_⟩⟩
    rintro names ⟨⟩
    rw [Tree.checkNames_eq_ok_iff, htree]
    simp only [List.forall_mem_cons, List.not_mem_nil, false_imp_iff, implies_true, and_true]
    exact ⟨⟨fun h => by simp [Descriptor.ofName, Descriptor.label?] at h, hplain⟩, htop, hcontains⟩

/-! ### The law -/

/-- **An expression is accepted in a signature if it is accepted on its own** and has no label
behind a name that takes none, as long as no comma stands outside of its brackets. One that has such
a label is refused by every contract, whatever is signed; but if its name is registered, a registry
gives a tester for it, and registers every fresh name for it. -/
theorem parse_returning_iff_known (hbase : HasBase (w.registry r)) (hT : Nested [','] T.toList) :
    ((∃ t, Tree.parse (some (w.registry r).contains) (returning T) = .ok t) ↔
      Known r T w ∧ ∀ d, Descriptor.parse T = .ok d → ¬ d.Mislabelled) ∧
    ∀ d, Descriptor.parse T = .ok d → d.Mislabelled →
      (∀ v context,
        Enforcer.sign r (.text (returning T)) v context w =
          ⟨.error (.fault (.signature ⟨.unexpectedLabel d.name, some (returning T)⟩)), w, []⟩ ∧
        Enforcer.enforce r (.text (returning T)) v context w =
          ⟨.error (.fault (.signature ⟨.unexpectedLabel d.name, some (returning T)⟩)), w, []⟩) ∧
      ((w.registry r).contains d.name = true → Known r T w ∧
        ∀ name, isBlankText name = false → (w.registry r).contains name = false →
          ∃ w', (invoke 1 (.function (.operation r .alias)) [.text name, .text T] []).Returns w
            .null w') := by
  refine ⟨exists_parse_returning_iff hbase hT, fun d hd hlabel =>
    ⟨fun v context => ?_, fun h => ?_⟩⟩
  · have hsign := sign_of_mislabelled (r := r) (w := w) hT hd hlabel v context
    exact ⟨hsign, by rw [Enforcer.enforce, Act.bind_of_error hsign]⟩
  · obtain ⟨e, he⟩ := Option.isSome_iff_exists.1 h
    have hknown : Known r T w := known_iff.2 ⟨d, e, hd, he⟩
    exact ⟨hknown, fun name hname hfree => exists_alias hknown hname hfree⟩

/-- A label behind the name of the numbers. -/
theorem parse_returning_iff_known_number :
    HasBase (world.registry 0) ∧ Nested [','] "number:foo".toList ∧ Known 0 "number:foo" world ∧
      ¬ ∃ t, Tree.parse (some (world.registry 0).contains) (returning "number:foo") = .ok t := by
  have hd : Descriptor.parse "number:foo" = .ok ⟨"number", .label "foo", false⟩ := by rfl
  have hT : Nested [','] "number:foo".toList := nested_iff_closes.2 (by decide)
  have hlabel : Descriptor.Mislabelled ⟨"number", .label "foo", false⟩ := ⟨rfl, by decide⟩
  obtain ⟨haccepted, hmislabelled⟩ :=
    parse_returning_iff_known (r := 0) (w := world) hasBase_base hT
  obtain ⟨hknown, -⟩ := (hmislabelled _ hd hlabel).2 (by decide)
  exact ⟨hasBase_base, hT, hknown, fun h => (haccepted.1 h).2 _ hd hlabel⟩

/-- So an expression can be known to a registry whose contracts refuse it. -/
theorem not_forall_parse_returning_iff_known :
    ¬ ∀ (r : RegistryId) (w : World) (T : String), HasBase (w.registry r) →
      Nested [','] T.toList →
        (Known r T w ↔ ∃ t, Tree.parse (some (w.registry r).contains) ("* => " ++ T) = .ok t) := by
  intro hall
  have hd : Descriptor.parse "number:foo" = .ok ⟨"number", .label "foo", false⟩ := by rfl
  have hT : Nested [','] "number:foo".toList := nested_iff_closes.2 (by decide)
  have hknown : Known 0 "number:foo" world :=
    known_iff.2 ⟨_, _, hd, hasBase_base ("number", .isNumber, "* -> number") (by decide)⟩
  obtain ⟨t, ht⟩ := (hall 0 world "number:foo" hasBase_base hT).1 hknown
  rw [show "* => " ++ "number:foo" = returning "number:foo" from rfl,
    parse_returning_of_mislabelled hT hd ⟨rfl, by decide⟩] at ht
  simp at ht

end Registry

end CallContracts
