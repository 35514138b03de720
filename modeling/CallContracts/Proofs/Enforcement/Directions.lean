import CallContracts.Proofs.Enforcement.Returning
import CallContracts.Proofs.Registry.History
import CallContracts.Proofs.Signature.Grammar

/-!
The two directions of a contract: what goes in and what comes out.

A value that goes in is checked against the descriptor that was read. For one that comes out, the
descriptor is written down, the text is read again and looked up anew.

* `Signature.Grammar.exists_of_derives`: two tokens with an arrow between them are a contract of two
  descriptors;
* `Enforcer.returns_parameter_iff` and `Enforcer.returns_result_iff`: what a contract on the one
  parameter or on the result of the identity comes to;
* `Enforcer.returns_parameter_iff_result`: **the two directions agree**.
-/

namespace CallContracts

open Signature Text

/-! ### Contracts of one type -/

namespace Signature.Grammar

variable {known : String → Bool} {p q : List Char} {T : String} {t : Tree} {d : Descriptor}

/-- A stage of one descriptor is one token. -/
lemma isToken_of_isStage (h : IsStage known p [d]) : IsToken known p d := by
  obtain ⟨tokens, -, rfl, hall, -⟩ := h
  obtain ⟨token, rest, htoken, hrest, rfl⟩ := List.forall₂_cons_right_iff.1 hall
  rw [List.forall₂_nil_right_iff.1 hrest, List.intercalate_singleton]
  exact htoken

/-- Two tokens with an arrow between them. -/
lemma exists_of_derives (hp : IsBalanced p)
    (h : Derives known (String.ofList (p ++ (['=', '>'] ++ q))) t)
    (hone : t.stages.map List.length = [1, 1]) :
    ∃ d e, t = ⟨[[d], [e]]⟩ ∧ IsToken known p d ∧ IsToken known q e := by
  obtain ⟨raws, htext, -, hstages, -⟩ := h
  have hsplit : split ['=', '>'] (p ++ (['=', '>'] ++ q)) = .ok raws := by
    refine (split_eq_ok_iff isDelimiter_arrow).2 ⟨?_, fun raw hraw => ?_, by simpa using htext⟩
    · rintro rfl
      simp at htext
    · obtain ⟨s, -, hs⟩ := exists_right_of_mem hstages hraw
      exact isPiece_arrow_iff.2 (balanced_of_isStage hs)
  obtain ⟨qs, rfl, hq⟩ :=
    exists_of_split_append isDelimiter_arrow (isPiece_arrow_iff.2 hp) hsplit
  obtain ⟨stages⟩ := t
  match stages, hone with
  | [[d], [e]], _ =>
    obtain ⟨hfirst, hrest⟩ := List.forall₂_cons.1 hstages
    obtain ⟨q', rest, hsecond, hnil, rfl⟩ := List.forall₂_cons_right_iff.1 hrest
    rw [List.forall₂_nil_right_iff.1 hnil] at hq
    obtain ⟨-, -, rfl⟩ := (split_eq_ok_iff isDelimiter_arrow).1 hq
    rw [List.intercalate_singleton]
    exact ⟨d, e, rfl, isToken_of_isStage hfirst, isToken_of_isStage hsecond⟩

/-- A token with blanks around it reads as the token. -/
lemma IsToken.parse (h : IsToken known q d) (hpad : Padded T.toList q) :
    Descriptor.parse T = .ok d := by
  have hreads := parse_eq_ok_iff_reads.2 ((trim_padded hpad) ▸ h.reads)
  simpa using hreads

/-- A type as the one parameter of a contract. -/
lemma exists_of_parse_parameter (hT : IsBalanced T.toList)
    (h : Tree.parse (some known) (T ++ " => *") = .ok t)
    (hone : t.stages.map List.length = [1, 1]) (hd : Descriptor.parse T = .ok d) :
    t = ⟨[[d], [.ofName Registry.topName]]⟩ := by
  have htext : T ++ " => *" =
      String.ofList ((T.toList ++ [' ']) ++ (['=', '>'] ++ [' ', '*'])) := by
    rw [← String.toList_inj]
    simp
  have hpad : Padded T.toList (T.toList ++ [' ']) := ⟨[], [' '], by decide, by decide, by simp⟩
  have hbalanced : IsBalanced (T.toList ++ [' ']) := isPiece_arrow_iff.1
    ((isPiece_arrow_iff.2 hT).padded isDelimiter_arrow hpad)
  rw [htext, parse_eq_ok_iff_derives] at h
  obtain ⟨d', e, rfl, hfirst, hsecond⟩ := exists_of_derives hbalanced h hone
  have htop := hsecond.parse (T := Registry.topName) ⟨[' '], [], by decide, by decide, rfl⟩
  obtain rfl : d = d' := Except.ok.inj (hd.symm.trans (hfirst.parse hpad))
  obtain rfl : .ofName Registry.topName = e := Except.ok.inj htop
  rfl

/-- A type as the result of a contract: it is one piece, sound and known. -/
lemma exists_of_parse_result (h : Tree.parse (some known) ("* => " ++ T) = .ok t)
    (hone : t.stages.map List.length = [1, 1]) (hd : Descriptor.parse T = .ok d) :
    t = ⟨[[.ofName Registry.topName], [d]]⟩ ∧ IsBalanced T.toList ∧ d.Sound ∧
      known d.name = true := by
  have htext : "* => " ++ T = String.ofList (['*', ' '] ++ (['=', '>'] ++ (' ' :: T.toList))) := by
    rw [← String.toList_inj]
    simp
  have hpad : Padded T.toList (' ' :: T.toList) := ⟨[' '], [], by decide, by decide, by simp⟩
  rw [htext, parse_eq_ok_iff_derives] at h
  obtain ⟨e, d', rfl, hfirst, hsecond⟩ := exists_of_derives (by decide) h hone
  have htop := hfirst.parse (T := Registry.topName) ⟨[], [' '], by decide, by decide, rfl⟩
  obtain rfl : d = d' := Except.ok.inj (hd.symm.trans (hsecond.parse hpad))
  obtain rfl : .ofName Registry.topName = e := Except.ok.inj htop
  have hpiece : IsPiece [','] T.toList :=
    (nested_singleton_iff.1 hsecond.nested).of_padded isDelimiter_comma hpad
  exact ⟨rfl, hpiece.balanced, Descriptor.sound_of_parse hd hpiece, hsecond.known⟩

end Signature.Grammar

namespace Enforcer

open Signature.Grammar

/-! ### Calls of the identity -/

/-- The function that returns its argument. -/
def identity (serial : Nat) (name parameter : String) : Function :=
  .closure ⟨serial, .function, name, [.plain parameter], .variable parameter, []⟩

section identity

variable {serial n : Nat} {name parameter raw : String} {r : RegistryId} {w w' : World} {v : Value}
  {d : Descriptor} {e : Entry} {t : Tree}

lemma invoke_identity :
    invoke (n + 1) (.function (identity serial name parameter)) [v] [] w = ⟨.ok v, w, []⟩ := by
  have hvalues : Call.values [.plain parameter] [v] [] w = ⟨.ok [v], w, []⟩ := rfl
  rw [identity, invoke_succ, Value.apply, Function.apply, Closure.run, Act.bind_of_pure hvalues]
  simp [Expr.eval, Parameter.plain, Act.orMishap, pure, Act.pure]

/-- A contract on the parameter of the identity: the value is returned if it is accepted. -/
lemma returns_parameter_iff (hbase : Registry.HasBase (w.registry r))
    (he : (w.registry r).find? d.name = some e) (hd : d.optional = false) (hv : v.isAbsent = false)
    (ht : t = ⟨[[d], [.ofName Registry.topName]]⟩) :
    (invoke (n + 3) (.function (.signed (.enforced
        (.plain (identity serial name parameter) t raw .null true) r))) [v] []).Returns w v w' ↔
      (Registry.holds (invoke (n + 2)) r e d v).Returns w true w' := by
  subst ht
  have haccepts : ∀ {w₁ : World}, (Registry.accepts (invoke (n + 2)) r d v).Returns w true w₁ ↔
      (Registry.holds (invoke (n + 2)) r e d v).Returns w true w₁ :=
    Registry.returns_accepts_iff he
  have hmember : ∀ {w₁ : World}, (Registry.holds (invoke (n + 2)) r e d v).Returns w true w₁ →
      Registry.isMember (invoke (n + 2)) r Registry.topName v w₁ = ⟨.ok true, w₁, []⟩ := by
    intro w₁ h
    have hkeeps : w.Extends w₁ := h.2 ▸ Registry.holds_extends (n + 2) _ _ _ _ w
    exact Registry.isMember_top (hbase.extends hkeeps) (n + 1) v
  rw [returns_call_iff rfl]
  constructor
  · rintro ⟨w₁, w₂, verdict, hverify, hcall, hresult⟩
    have hholds := haccepts.1 ((returns_verifyAgainst_single_iff rfl hd hv).1 ⟨verdict, hverify⟩)
    rw [Act.Returns, invoke_identity] at hcall
    obtain ⟨-, rfl⟩ := hcall
    obtain ⟨-, rfl⟩ := (Act.returns_pure_iff (a := true)).1
      (hresult.of_eq (hmember hholds).symm)
    exact hholds
  · intro hholds
    obtain ⟨verdict, hverify⟩ :=
      (returns_verifyAgainst_single_iff (t := ⟨[[d], [.ofName Registry.topName]]⟩) rfl hd hv).2
        (haccepts.2 hholds)
    exact ⟨w', w', verdict, hverify, Act.returns_of_eq invoke_identity,
      Act.returns_of_eq (hmember hholds)⟩

/-- A contract on the result of the identity: the written form of the type reads back as the type,
so the value is returned if it is of that type. -/
lemma returns_result_iff (hbase : Registry.HasBase (w.registry r))
    (he : (w.registry r).find? d.name = some e) (hd : d.optional = false) (hsound : d.Sound)
    (hv : v.isAbsent = false) (ht : t = ⟨[[.ofName Registry.topName], [d]]⟩) :
    (invoke (n + 3) (.function (.signed (.enforced
        (.plain (identity serial name parameter) t raw .null true) r))) [v] []).Returns w v w' ↔
      (Registry.holds (invoke (n + 2)) r e d v).Returns w true w' := by
  subst ht
  have htop : Registry.accepts (invoke (n + 2)) r (.ofName Registry.topName) v w =
      ⟨.ok true, w, []⟩ :=
    Registry.accepts_base (t := ("*", .anything, "*")) (by decide) hbase rfl rfl
  have hmember : Registry.isMember (invoke (n + 2)) r d.typeText v w =
      Registry.holds (invoke (n + 2)) r e d v w :=
    Registry.isMember_of_parse (Descriptor.parse_typeText_of_required hsound hd) he
  rw [returns_call_iff rfl]
  constructor
  · rintro ⟨w₁, w₂, verdict, hverify, hcall, hresult⟩
    have hfirst := (returns_verifyAgainst_single_iff rfl rfl hv).1 ⟨verdict, hverify⟩
    rw [Act.Returns, htop] at hfirst
    obtain ⟨-, rfl⟩ := hfirst
    rw [Act.Returns, invoke_identity] at hcall
    obtain ⟨-, rfl⟩ := hcall
    exact hresult.of_eq hmember.symm
  · intro hholds
    obtain ⟨verdict, hverify⟩ :=
      (returns_verifyAgainst_single_iff (t := ⟨[[.ofName Registry.topName], [d]]⟩) rfl rfl hv).2
        (Act.returns_of_eq htop)
    exact ⟨w, w, verdict, hverify, Act.returns_of_eq invoke_identity, hholds.of_eq hmember⟩

/-- A call of the identity under a contract of one parameter stage goes three levels deep. -/
lemma exists_of_returns_identity {u : Value} (hsize : t.size = 2)
    (h : (invoke n (.function (.signed (.enforced
      (.plain (identity serial name parameter) t raw .null true) r))) [v] []).Returns w u w') :
    ∃ k, n = k + 3 := by
  obtain ⟨m, rfl⟩ := exists_of_returns_enforced h
  obtain ⟨w₁, w₂, -, -, hcall, -⟩ := (returns_call_iff hsize).1 h
  rcases m with _ | k
  · exact absurd hcall Act.not_returns_exhausted
  · exact ⟨k, rfl⟩

/-! ### Parameters and results -/

/-- **The two directions of a contract agree.** With a type that is not optional as the one
parameter of the identity or as its result, contracts that were enforced before, a call with a value
returns the value under both or under neither, to whatever depth calls nest, and then leaves the
same world. -/
theorem returns_parameter_iff_result {T : String} {s₁ s₂ : Signed} {w₁ w₂ : World}
    (hd : Descriptor.parse T = .ok d) (hrequired : d.optional = false)
    (h₁ : (enforce r (.text (T ++ " => *")) (.function (identity serial name parameter)) .null
      w₁).outcome = .ok s₁) (hone₁ : s₁.tree.stages.map List.length = [1, 1])
    (h₂ : (enforce r (.text ("* => " ++ T)) (.function (identity serial name parameter)) .null
      w₂).outcome = .ok s₂) (hone₂ : s₂.tree.stages.map List.length = [1, 1])
    (hw₂ : w₂.History w) (hbase : Registry.HasBase (w.registry r))
    (hv : v.isAbsent = false) (n : Nat) (w' : World) :
    (invoke n (.function (.signed s₁)) [v] []).Returns w v w' ↔
      (invoke n (.function (.signed s₂)) [v] []).Returns w v w' := by
  obtain ⟨text₁, f₁, t₁, htext₁, hf₁, hparse₁, rfl, -⟩ := exists_of_enforce h₁
  obtain ⟨text₂, f₂, t₂, htext₂, hf₂, hparse₂, rfl, -⟩ := exists_of_enforce h₂
  obtain rfl : identity serial name parameter = f₁ := Value.function.inj hf₁
  obtain rfl : identity serial name parameter = f₂ := Value.function.inj hf₂
  obtain rfl : T ++ " => *" = text₁ := by simpa using htext₁
  obtain rfl : "* => " ++ T = text₂ := by simpa using htext₂
  obtain ⟨ht₂, hT, hsound, hknown⟩ := exists_of_parse_result hparse₂ hone₂ hd
  have ht₁ := exists_of_parse_parameter hT hparse₁ hone₁ hd
  obtain ⟨e, he⟩ := Option.isSome_iff_exists.1 (hw₂.extends.contains hknown)
  constructor
  · intro h
    obtain ⟨k, rfl⟩ := exists_of_returns_identity (by rw [ht₁]; rfl) h
    exact (returns_result_iff hbase he hrequired hsound hv ht₂).2
      ((returns_parameter_iff hbase he hrequired hv ht₁).1 h)
  · intro h
    obtain ⟨k, rfl⟩ := exists_of_returns_identity (by rw [ht₂]; rfl) h
    exact (returns_parameter_iff hbase he hrequired hv ht₁).2
      ((returns_result_iff hbase he hrequired hsound hv ht₂).1 h)

end identity

/-- Labelled objects, as the parameter and as the result. -/
theorem returns_parameter_iff_result_labelled :
    let f : Function := identity 0 "f" "x"
    let t₁ : Tree := ⟨[[⟨"object", .label "point", false⟩], [.ofName "*"]]⟩
    let t₂ : Tree := ⟨[[.ofName "*"], [⟨"object", .label "point", false⟩]]⟩
    let s₁ : Signed := .enforced (.plain f t₁ "object:point => *" .null true) 0
    let s₂ : Signed := .enforced (.plain f t₂ "* => object:point" .null true) 0
    (enforce 0 (.text "object:point => *") (.function f) .null Registry.world).outcome = .ok s₁ ∧
      (enforce 0 (.text "* => object:point") (.function f) .null Registry.world).outcome = .ok s₂ ∧
      (invoke 3 (.function (.signed s₁)) [.null] []).Returns Registry.world .null Registry.world ∧
      (invoke 3 (.function (.signed s₂)) [.null] []).Returns Registry.world .null
        Registry.world := by
  intro f t₁ t₂ s₁ s₂
  have hd : Descriptor.parse "object:point" = .ok ⟨"object", .label "point", false⟩ := by rfl
  have hparse₁ : Tree.parse (some (Registry.world.registry 0).contains) "object:point => *" =
      .ok t₁ := by rfl
  have hparse₂ : Tree.parse (some (Registry.world.registry 0).contains) "* => object:point" =
      .ok t₂ := by rfl
  have h₁ : (enforce 0 (.text "object:point => *") (.function f) .null Registry.world).outcome =
      .ok s₁ := by
    rw [enforce_of_fits hparse₁ (by rfl)]
  have h₂ : (enforce 0 (.text "* => object:point") (.function f) .null Registry.world).outcome =
      .ok s₂ := by
    rw [enforce_of_fits hparse₂ (by rfl)]
  have hbase : Registry.HasBase (Registry.world.registry 0) := Registry.hasBase_base
  have hfirst : (invoke 3 (.function (.signed s₁)) [.null] []).Returns Registry.world .null
      Registry.world := by
    refine (returns_parameter_iff (n := 0) hbase
      (hbase ("object", .isObject, "* -> object") (by decide)) rfl rfl rfl).2 ?_
    exact Act.returns_of_eq (Registry.holds_base rfl)
  exact ⟨h₁, h₂, hfirst, (returns_parameter_iff_result (T := "object:point") hd rfl h₁ rfl h₂ rfl
    .refl hbase rfl 3 _).1 hfirst⟩

end Enforcer

end CallContracts
