import CallContracts.CommandLine.Run
import CallContracts.Proofs.Host.Literal
import CallContracts.Proofs.Session.Grounding

/-!
The command that tests a literal.

* `Environment.ask_matches`: the test that a facade makes is that of its registry, to two levels
  less, since its contract accepts every text and every value;
* `CommandLine.read_checkArguments`: arguments that do not start with a dash are read as they are
  meant;
* `CommandLine.outcome_execute`: a command is carried out on the environment that its setup builds;
* `CommandLine.Evaluates`, `CommandLine.Refused`, `CommandLine.Fails` and `CommandLine.Nests`: the
  host finds a value for a literal, refuses it, fails on it, or finds that it nests too deeply;
* `CommandLine.fails_iff`: what the standard host fails on;
* `CommandLine.Rejects`: a test that cannot be made, with its message;
* `CommandLine.ends_testLiteral`: the test of a literal ends in one of the ways of
  `CommandLine.Ends`, by cases on what the host answers;
* `CommandLine.check_ends`: **what is shown is the answer of the test, or the error of one that
  cannot be made**, except for a literal that the host fails on: this fault escapes.
-/

namespace CallContracts

open Registry

/-! ### Asking a facade -/

namespace Environment

open Enforcer

variable {env : Environment} {w w' : World} {expression : String} {v : Value}

/-- An environment with a facade as it is built: its registry holds the base types, and the facade
offers each operation enforced with its contract. -/
structure Furnished (env : Environment) (w : World) : Prop where
  base : HasBase (w.registry env.registry)
  facade : env.facade = contracts.map fun c => (c.1, enforced env.registry c.1 c.2)

lemma furnished_of_returns {s : Setup} (h : (withFacade s).Returns w env w') : env.Furnished w' :=
  ⟨(eq_of_returns_facade h).1, (eq_of_returns_facade h).2⟩

/-- The membership test that a facade offers. -/
def ask (env : Environment) (expression : String) (v : Value) : Act Value := do
  let tester ← CommandLine.callFacade env .isTypeOf [.text expression]
  invokeValue tester [v] []

/-- A value that the only descriptor of a stage accepts. -/
lemma exists_verdict {r : RegistryId} {n : ℕ} {t : Tree} {d : Descriptor}
    (hstage : t.parameters? = some [d]) (hrequired : d.optional = false)
    (h : accepts (invoke n) r d (Stage.presented v) w = ⟨.ok true, w, []⟩) :
    ∃ verdict, (verifyAgainst (invoke n) r t [v] w).outcome = .ok verdict := by
  have hverify : (verifyAgainst (invoke n) r t [v]).Returns w .accept w := by
    rw [verifyAgainst, hstage]
    exact (Stage.returns_verifyFrom_cons_iff hrequired).2
      ⟨w, Act.returns_of_eq h, Act.returns_pure_iff.2 ⟨rfl, rfl⟩⟩
  exact ⟨.accept, hverify.1⟩

/-- **The test that a facade makes** is that of its registry, to two levels less. -/
lemma ask_matches {n : ℕ} (hdepth : callDepth = n + 2) (h : env.Furnished w) :
    (NativePredicate.test (invoke n) (membershipTest env.registry) expression v w).Matches Eq
      (env.ask expression v w) := by
  have hop : (Operation.isTypeOf, "string => * => boolean") ∈ contracts := by decide
  have hinvoke : invokeValue = invoke (n + 2) := by rw [invokeValue, hdepth]
  have hcall : CommandLine.callFacade env .isTypeOf [.text expression] =
      invoke (n + 2)
        (.function (.signed (enforced env.registry .isTypeOf "string => * => boolean")))
        [.text expression] [] := by
    rw [CommandLine.callFacade, operation?_eq h.facade hop, hinvoke]
    exact Act.pure_bind _ _
  rw [ask, hcall, hinvoke]
  refine Result.matches_bind (ρ := StandsFor env.registry (published .isTypeOf) w) ?_ ?_
  · have hstring : accepts (invoke (n + 1)) env.registry (.ofName "string") (.text expression) w =
        ⟨.ok true, w, []⟩ :=
      accepts_base (t := ("string", .isString, "* -> string")) (by decide) h.base rfl rfl
    obtain ⟨verdict, hverdict⟩ := exists_verdict (t := published .isTypeOf)
      (v := .text expression) rfl rfl hstring
    exact (mirrors_operation hop h.base).accepted n _ verdict hverdict
  · intro a b ha hstands
    have hlater := World.History.refl.call n (membershipTest env.registry) [.text expression] []
      (w := w)
    rw [StandsFor, if_pos (by decide)] at hstands
    obtain ⟨g, s, rfl, rfl, htree, hmirrors⟩ := hstands
    have htop : accepts (invoke (n + 1)) env.registry (.ofName topName) (Stage.presented v)
        (invoke n (membershipTest env.registry) [.text expression] [] w).world =
          ⟨.ok true, (invoke n (membershipTest env.registry) [.text expression] [] w).world, []⟩ :=
      accepts_base (t := ("*", .anything, "*")) (by decide) (h.base.extends hlater.extends) rfl rfl
    have hstage : s.tree.parameters? = some [.ofName topName] := by
      rw [htree]
      rfl
    obtain ⟨verdict, hverdict⟩ := exists_verdict hstage rfl htop
    exact (hmirrors _ hlater).accepted n _ verdict hverdict

/-- How the test of a facade ends. -/
lemma outcome_ask {m : ℕ} (hdepth : callDepth = m + 3) (h : env.Furnished w) :
    (env.ask expression v w).outcome =
      (isMember (invoke m) env.registry expression v w).outcome.map .bool := by
  have hmatch : OutcomesMatch Eq
      (NativePredicate.test (invoke (m + 1)) (membershipTest env.registry) expression v w).outcome
      (env.ask expression v w).outcome := (ask_matches hdepth h).outcome
  rw [test_succ, Act.outcome_bind] at hmatch
  rcases hmember : (isMember (invoke m) env.registry expression v w).outcome with stop | b <;>
    rcases hask : (env.ask expression v w).outcome with stop' | answer <;>
      rw [hmember, hask] at hmatch
  · exact congrArg Except.error (Eq.symm hmatch)
  · exact absurd hmatch id
  · exact absurd hmatch id
  · exact congrArg Except.ok (Eq.symm hmatch)

end Environment

/-! ### Arguments -/

namespace CommandLine

variable {options : List String} {expression literal file text : String} {config : Option String}

/-- A text that does not start as an option does. -/
def IsPlain (text : String) : Prop := text.toList.head? ≠ some '-'

instance (text : String) : Decidable (IsPlain text) := inferInstanceAs (Decidable (_ ≠ _))

lemma isPrefixOf_dash_iff : "-".isPrefixOf text = true ↔ ¬ IsPlain text := by
  rw [String.isPrefixOf, String.startsWith_string_iff, IsPlain, not_not]
  have hdash : "-".toList = ['-'] := by decide
  rw [hdash]
  cases text.toList with
  | nil => simp
  | cons c cs => simp [List.cons_prefix_cons, eq_comm]

lemma ne_separator_of_isPlain (h : IsPlain text) : text ≠ "--" := by
  rintro rfl
  exact h (by decide)

lemma classify_plain (h : IsPlain text) : Argument.classify options text = some (.plain text) := by
  have hdash : "-".isPrefixOf text = false := by
    rw [← Bool.not_eq_true, isPrefixOf_dash_iff, not_not]
    exact h
  simp [Argument.classify, ne_separator_of_isPlain h, hdash]

lemma classifyAll_cons_plain {texts : List String} (h : IsPlain text) :
    classifyAll options (text :: texts) = (classifyAll options texts).map (.plain text :: ·) := by
  rw [classifyAll, if_neg (ne_separator_of_isPlain h), classify_plain h]
  cases classifyAll options texts <;> rfl

/-- The arguments that ask for the test of a literal, perhaps with the document of a setup. -/
def checkArguments (config : Option String) (expression literal : String) : List String :=
  match config with
  | none => ["check", expression, literal]
  | some file => [configOption, file, "check", expression, literal]

/-- They are read as they are meant. -/
lemma read_checkArguments (hconfig : ∀ file ∈ config, IsPlain file)
    (hexpression : IsPlain expression) (hliteral : IsPlain literal) :
    Invocation.read (checkArguments config expression literal) =
      .ok ⟨config, .check expression literal⟩ := by
  have hvalues : ∀ options, classifyAll options [expression, literal] =
      some [.plain expression, .plain literal] := by
    intro options
    rw [classifyAll_cons_plain hexpression, classifyAll_cons_plain hliteral]
    rfl
  have hcheck : ∀ options, classifyAll options ["check", expression, literal] =
      some [.plain "check", .plain expression, .plain literal] := by
    intro options
    rw [classifyAll_cons_plain (by decide), hvalues]
    rfl
  have hcommand : readCommand false "check" [expression, literal] =
      .ok (.check expression literal) := by
    have hcount : valueCount? "check" = some 2 := by decide
    simp only [readCommand, hcount, hvalues]
    rfl
  cases config with
  | none =>
    rw [checkArguments, Invocation.read, hcheck]
    simp only [List.zip_cons_cons, List.zip_nil_left, readFrom, List.map_cons, List.map_nil,
      hcommand]
  | some file =>
    have hfile : IsPlain file := hconfig file rfl
    have hoption : Argument.classify (configOption :: helpOptions) configOption =
        some (.option configOption none) := by
      have hdash : "-".isPrefixOf configOption = true := isPrefixOf_dash_iff.2 (by decide)
      have hne : configOption ≠ "--" ∧ configOption ≠ "-" := by decide
      simp [Argument.classify, hdash, hne]
    have hall : classifyAll (configOption :: helpOptions)
        [configOption, file, "check", expression, literal] =
          some [.option configOption none, .plain file, .plain "check", .plain expression,
            .plain literal] := by
      rw [classifyAll, if_neg (by decide), hoption, classifyAll_cons_plain hfile, hcheck]
      rfl
    rw [checkArguments, Invocation.read, hall]
    simp only [List.zip_cons_cons, List.zip_nil_left, readFrom, List.map_cons, List.map_nil,
      hcommand, if_true]

/-! ### Carrying out -/

variable {find : String → Document.Content} {env : Environment} {s : Setup} {w w' w₁ w₂ : World}
  {v : Value}

/-- What is shown of the truth value that a test answers. -/
def verdict (b : Bool) : Outcome := if b then shown 0 "true" else shown 2 "false"

/-- What the command line makes of the way in which a command ends. -/
def reported : Except Stop Outcome → Except Stop (ℕ ⊕ Outcome)
  | .ok o => .ok (.inr o)
  | .error (.fault f) =>
    if isShown f then .ok (.inr (errorOutcome (f.message?.getD ""))) else .error (.fault f)
  | .error .exhausted => .error .exhausted

/-- What becomes of a command. -/
lemma outcome_execute {x : Act Setup} {c : Command} (hsetup : x.Returns w s w₁)
    (hbuild : (Environment.withFacade s).Returns w₁ env w₂) :
    ((Command.execute x c >>= fun o => pure (.inr o)) w).outcome =
      reported (c.run env w₂).outcome := by
  let y : Act Outcome := x >>= fun s => Environment.withFacade s >>= fun env => c.run env
  have hy : (y w).outcome = (c.run env w₂).outcome :=
    hsetup.outcome_bind.trans hbuild.outcome_bind
  rw [← hy, Act.outcome_bind, Command.execute, Act.outcome_bind]
  rcases hyw : y w with ⟨(f | -) | o, w', es⟩
  · rw [Act.attempt_of_fault hyw, reported]
    cases hshown : isShown f <;> simp [hshown, Act.throw, pure, Act.pure, Bind.bind, Except.bind]
  · rw [Act.attempt_of_exhausted hyw]
    rfl
  · rw [Act.attempt_of_ok hyw]
    rfl

/-! ### Tests of literals -/

section tests

variable {r : RegistryId} {message : String} {b : Bool}

/-- The host finds a value for a literal, and the heap gets the lists and dictionaries in it. -/
def Evaluates (literal : String) (w : World) (v : Value) (w' : World) : Prop :=
  ∃ h, w.host.evaluate literal w.heap = .ok (v, h) ∧ w' = { w with heap := h }

/-- The host refuses a literal: it is no expression, or one that makes no sense as a literal. -/
def Refused (literal : String) (w : World) : Prop :=
  w.host.evaluate literal w.heap = .error .malformed ∨
    w.host.evaluate literal w.heap = .error (.mishap .value)

/-- The host fails on a literal in another way, as it does if something in it cannot be hashed. -/
def Fails (literal : String) (w : World) (m : Mishap) : Prop :=
  m ≠ .value ∧ w.host.evaluate literal w.heap = .error (.mishap m)

/-- A literal nests too deeply for the host. -/
def Nests (literal : String) (w : World) : Prop :=
  w.host.evaluate literal w.heap = .error .nesting

/-- The message of a test that cannot be made. The literal is looked at before the expression. -/
inductive Rejects (r : RegistryId) (expression literal : String) (w : World) : String → Prop
  | refused : Refused literal w →
    Rejects r expression literal w (Refusal.notLiteral literal).message
  | malformed {v : Value} {w' : World} {f : SignatureFault} : Evaluates literal w v w' →
    Descriptor.parse expression = .error f → Rejects r expression literal w f.message
  | unknown {v : Value} {w' : World} {d : Descriptor} : Evaluates literal w v w' →
    Descriptor.parse expression = .ok d → (w.registry r).contains d.name = false →
      Rejects r expression literal w s!"Type {d.name} is not known"

/-- What the standard host fails on: something in the literal cannot be hashed, or a sum in it is
out of range. -/
lemma fails_iff {m : Mishap} (hhost : w.host = .standard) : Fails literal w m ↔ m ≠ .value ∧
    ∃ e, LiteralText.read? literal = some e ∧ e.depth ≤ Literal.greatestDepth ∧
      e.mishap? = some m := by
  rw [Fails, hhost]
  exact and_congr_right fun _ => LiteralText.evaluate_eq_mishap_iff

/-- What a host answers is one of these. -/
lemma evaluation_cases (literal : String) (w : World) :
    (∃ v w', Evaluates literal w v w') ∨ Refused literal w ∨ (∃ m, Fails literal w m) ∨
      Nests literal w := by
  rcases hend : w.host.evaluate literal w.heap with (- | m | -) | ⟨v, h⟩
  · exact .inr (.inl (.inl hend))
  · by_cases hm : m = .value
    · exact .inr (.inl (.inr (hm ▸ hend)))
    · exact .inr (.inr (.inl ⟨m, hm, hend⟩))
  · exact .inr (.inr (.inr hend))
  · exact .inl ⟨v, _, h, hend, rfl⟩

/-- A value touches no registry. -/
lemma Evaluates.registry_eq (h : Evaluates literal w v w') (r : RegistryId) :
    w'.registry r = w.registry r := by
  obtain ⟨-, -, rfl⟩ := h
  rfl

lemma Evaluates.returns (h : Evaluates literal w v w') :
    (evaluateLiteral literal).Returns w v w' := by
  obtain ⟨h, hend, rfl⟩ := h
  rw [Act.Returns, evaluateLiteral, hend]
  exact ⟨rfl, rfl⟩

/-- A literal without a value decides how its test ends. -/
lemma outcome_of_error {f : LiteralFault} (h : w.host.evaluate literal w.heap = .error f)
    (env : Environment) (expression : String) :
    (testLiteral env expression literal w).outcome = .error (stopFor literal f) := by
  rw [testLiteral, Act.outcome_bind, evaluateLiteral, h]
  rfl

/-- The test of a literal with a value is the test of the value. -/
lemma Evaluates.outcome {m : ℕ} (h : Evaluates literal w v w') (hdepth : callDepth = m + 3)
    (henv : env.Furnished w) :
    (testLiteral env expression literal w).outcome =
      (isMember (invoke m) env.registry expression v w').outcome.map verdict := by
  have hask : (env.ask expression v w').outcome =
      (isMember (invoke m) env.registry expression v w').outcome.map .bool :=
    Environment.outcome_ask hdepth ⟨h.registry_eq _ ▸ henv.base, henv.facade⟩
  have htest : testLiteral env expression literal =
      evaluateLiteral literal >>= fun v => env.ask expression v >>=
        fun answer => Act.heap >>= fun h => pure (verdict (answer.truth h)) := by
    simp only [testLiteral, Environment.ask, Act.bind_assoc, verdict, apply_ite pure]
  rw [htest, h.returns.outcome_bind, Act.outcome_bind, hask]
  rcases (isMember (invoke m) env.registry expression v w').outcome with stop | b <;> rfl

/-- A test that cannot be made is reported as an error with its message. -/
lemma Rejects.outcome {m : ℕ} (h : Rejects env.registry expression literal w message)
    (hdepth : callDepth = m + 3) (henv : env.Furnished w) :
    reported (testLiteral env expression literal w).outcome =
      .ok (.inr (errorOutcome message)) := by
  have hfault : ∀ {v : Value} {w' : World} {f : Fault}, Evaluates literal w v w' →
      (resolve env.registry (.text expression) w').outcome = .error (.fault f) →
      (testLiteral env expression literal w).outcome = .error (.fault f) := by
    intro v w' f hv hresolve
    rw [hv.outcome hdepth henv, isMember_fault_iff.2 hresolve]
    rfl
  cases h with
  | refused hrefused =>
    rcases hrefused with hend | hend <;> rw [outcome_of_error hend] <;> rfl
  | malformed hv hparse =>
    rw [hfault hv (f := .signature _) (by rw [resolve_text, hparse])]
    rfl
  | @unknown v w' d hv hparse hunknown =>
    have hnone : (w'.registry env.registry).find? d.name = none := by
      simpa [contains, hv.registry_eq] using hunknown
    rw [hfault hv (f := .unknownType (.text d.name)) (by simp [resolve_text, hparse, hnone])]
    rfl

lemma verdict_inj {b b' : Bool} : verdict b = verdict b' ↔ b = b' := by
  revert b b'
  decide

lemma verdict_ne_errorOutcome {b : Bool} {message : String} : verdict b ≠ errorOutcome message := by
  cases b <;> simp [verdict, shown, errorOutcome, failed]

lemma errorOutcome_inj {message message' : String} :
    errorOutcome message = errorOutcome message' ↔ message = message' := by
  simp [errorOutcome, toString, ← String.toList_inj]

/-- A value whose test fails is rejected. -/
lemma rejects_of_fault {m : ℕ} {f : Fault} (hv : Evaluates literal w v w')
    (h : (isMember (invoke m) r expression v w').outcome = .error (.fault f)) :
    ∃ message, Rejects r expression literal w message := by
  have hfaults := resolve_faults_iff.1 ⟨f, isMember_fault_iff.1 h⟩
  cases hparse : Descriptor.parse expression with
  | error f => exact ⟨_, .malformed hv hparse⟩
  | ok d => exact ⟨_, .unknown hv hparse (hv.registry_eq r ▸ hfaults d hparse)⟩

/-- What the host fails on escapes. -/
lemma reported_of_fails {m : Mishap} (h : Fails literal w m) :
    reported (testLiteral env expression literal w).outcome = .error (.fault (.mishap m)) := by
  have hstop : stopFor literal (.mishap m) = .fault (.mishap m) := by
    unfold stopFor
    split <;> simp_all [Fails]
  rw [outcome_of_error h.2, hstop]
  rfl

/-- The ends of the test of a literal where predicates are called to some depth. -/
inductive Ends (m : ℕ) (r : RegistryId) (expression literal : String) (w : World) :
    Except Stop (ℕ ⊕ Outcome) → Prop
  | decided {v : Value} {w' w'' : World} {b : Bool} : Evaluates literal w v w' →
    Tests r expression v w' b w'' → Ends m r expression literal w (.ok (.inr (verdict b)))
  | rejected {message : String} : Rejects r expression literal w message →
    Ends m r expression literal w (.ok (.inr (errorOutcome message)))
  | escaped {mishap : Mishap} : Fails literal w mishap →
    Ends m r expression literal w (.error (.fault (.mishap mishap)))
  | nested : Nests literal w → Ends m r expression literal w (.error .exhausted)
  | deep {v : Value} {w' : World} : Evaluates literal w v w' →
    (isMember (invoke m) r expression v w').outcome = .error .exhausted →
      Ends m r expression literal w (.error .exhausted)

/-- **The test of a literal ends in one of these ways.** -/
lemma ends_testLiteral {m : ℕ} (hdepth : callDepth = m + 3) (henv : env.Furnished w) :
    Ends m env.registry expression literal w
      (reported (testLiteral env expression literal w).outcome) := by
  rcases evaluation_cases literal w with ⟨v, w', hv⟩ | hrefused | ⟨mishap, hfails⟩ | hnests
  · rcases hmember : (isMember (invoke m) env.registry expression v w').outcome with (f | -) | b
    · obtain ⟨message, h⟩ := rejects_of_fault hv hmember
      rw [h.outcome hdepth henv]
      exact .rejected h
    · rw [hv.outcome hdepth henv, hmember]
      exact .deep hv hmember
    · rw [hv.outcome hdepth henv, hmember]
      exact .decided hv (tests_iff_isMember.2 ⟨m, hmember, rfl⟩)
  · have h : Rejects env.registry expression literal w _ := .refused hrefused
    rw [h.outcome hdepth henv]
    exact .rejected h
  · rw [reported_of_fails hfails]
    exact .escaped hfails
  · rw [outcome_of_error hnests]
    exact .nested hnests

/-- A literal has one value. -/
lemma Evaluates.unique {v' : Value} {w'' : World} (h : Evaluates literal w v w')
    (h' : Evaluates literal w v' w'') : v = v' ∧ w' = w'' := by
  obtain ⟨h₁, hend, rfl⟩ := h
  obtain ⟨h₂, hend', rfl⟩ := h'
  obtain ⟨rfl, rfl⟩ := Prod.mk.inj (Except.ok.inj (hend.symm.trans hend'))
  exact ⟨rfl, rfl⟩

/-- What has a value is neither refused, nor does the host fail on it. -/
lemma Evaluates.ne_error (h : Evaluates literal w v w') (f : LiteralFault) :
    w.host.evaluate literal w.heap ≠ .error f := by
  obtain ⟨h', hend, -⟩ := h
  simp [hend]

/-- What is tested is not rejected. -/
lemma Rejects.not_tests {w₁ : World} (h : Rejects r expression literal w message)
    (hv : Evaluates literal w v w') : ¬ Tests r expression v w' b w₁ := by
  intro htests
  obtain ⟨d, e, hparse, he⟩ := known_iff.1 htests.known
  cases h with
  | refused hrefused => exact hrefused.elim (hv.ne_error _) (hv.ne_error _)
  | malformed _ hparse' => simp [hparse] at hparse'
  | unknown _ hparse' hunknown =>
    obtain rfl := Except.ok.inj (hparse.symm.trans hparse')
    rw [← hv.registry_eq, contains_of_find? he] at hunknown
    simp at hunknown

/-- The answer that is shown is that of the test, if there is an end. -/
lemma Ends.verdict_iff {m : ℕ} {ended : Except Stop (ℕ ⊕ Outcome)}
    (h : Ends m r expression literal w ended) (hdeep : ended ≠ .error .exhausted) :
    ended = .ok (.inr (verdict b)) ↔
      ∃ v w' w'', Evaluates literal w v w' ∧ Tests r expression v w' b w'' := by
  cases h with
  | @decided v w' w'' b' hv htests =>
    simp only [Except.ok.injEq, Sum.inr.injEq, verdict_inj]
    constructor
    · rintro rfl
      exact ⟨v, w', w'', hv, htests⟩
    · rintro ⟨v', w₁, w₂, hv', htests'⟩
      obtain ⟨rfl, rfl⟩ := hv.unique hv'
      exact (htests.unique htests').1
  | rejected h =>
    simp only [Except.ok.injEq, Sum.inr.injEq, verdict_ne_errorOutcome.symm, false_iff]
    rintro ⟨v, w', w'', hv, htests⟩
    exact h.not_tests hv htests
  | escaped h =>
    simp only [reduceCtorEq, false_iff]
    rintro ⟨v, w', w'', hv, -⟩
    exact hv.ne_error _ h.2
  | nested => exact absurd rfl hdeep
  | deep => exact absurd rfl hdeep

/-- An error that is shown says why the test cannot be made. -/
lemma Ends.rejects {m : ℕ} {ended : Except Stop (ℕ ⊕ Outcome)}
    (h : Ends m r expression literal w ended) (hshown : ended = .ok (.inr (errorOutcome message))) :
    Rejects r expression literal w message := by
  cases h with
  | decided => exact absurd (Sum.inr.inj (Except.ok.inj hshown)) verdict_ne_errorOutcome
  | rejected h => exact errorOutcome_inj.1 (Sum.inr.inj (Except.ok.inj hshown)) ▸ h
  | escaped => simp at hshown
  | nested => simp at hshown
  | deep => simp at hshown

/-- If the tests of values finish, only a literal that nests too deeply leads to no end. -/
lemma Ends.exhausted_iff {m : ℕ} {ended : Except Stop (ℕ ⊕ Outcome)}
    (h : Ends m r expression literal w ended) (hfinishes : ∀ v w', Evaluates literal w v w' →
      Act.Finishes (isMember (invoke m) r expression v) w') :
    ended = .error .exhausted ↔ Nests literal w := by
  cases h with
  | decided hv => simp [Nests, hv.ne_error]
  | rejected h =>
    simp only [reduceCtorEq, false_iff]
    intro hnests
    cases h with
    | refused hrefused => rcases hrefused with hend | hend <;> simp [hend, Nests] at hnests
    | malformed hv => exact hv.ne_error _ hnests
    | unknown hv => exact hv.ne_error _ hnests
  | escaped hfails => simp [Nests, hfails.2]
  | nested hnests => simp [hnests]
  | @deep v w' hv hmember =>
    obtain ⟨ends, es, hends⟩ := hfinishes v w' hv
    rw [hends] at hmember
    cases ends <;> simp [Except.mapError] at hmember

/-- They do with a setup of the library and without circular names. -/
lemma finishes_of_grounded {m : ℕ} (hextended : s.extendedTypes = true) (hgrounded : s.Grounded)
    (hbuild : (Environment.withFacade s).Returns w₁ env w) (hv : Evaluates literal w v w')
    (hm : nesting s.aliases expression ≤ m) :
    Act.Finishes (isMember (invoke m) env.registry expression v) w' := by
  have hacyclic : Acyclic env.registry s.aliases.reverse w' :=
    .elsewhere (Environment.acyclic_of_grounded hextended hgrounded hbuild) (hv.registry_eq _)
  have hnesting : nesting s.aliases.reverse expression = nesting s.aliases expression := by
    simp [nesting, weight, List.map_reverse, List.sum_reverse]
  exact trait_isMember ((hacyclic.testWithin expression).mono (hnesting ▸ hm))

end tests

/-! ### The law -/

/-- **How the test of a literal ends**, with a setup that builds an environment, whatever the host
answers. What is shown is `true` with exit code 0 or `false` with exit code 2 just if the literal
has a value, according to whether it is a member of the type; or an error with exit code 1, just if
the host refuses the literal, or has a value for it and the type expression does not read or reads
as a type that is not there, with the message of the first of these that applies. A literal that the
host fails on in another way, as on a set with a list in it, is another matter: this mishap is not
shown and escapes, and no other fault does. There is no other end, unless something nests too
deeply; with a setup of the library and without circular names only the literal does, as soon as the
type expression and the expressions of the aliases are short enough. -/
theorem check_ends (hconfig : ∀ file ∈ config, IsPlain file) (hexpression : IsPlain expression)
    (hliteral : IsPlain literal)
    (hsetup : (Invocation.setup find ⟨config, .check expression literal⟩).Returns w s w₁)
    (hbuild : (Environment.withFacade s).Returns w₁ env w₂) :
    let ended := (run find (checkArguments config expression literal) w).outcome
    (ended ≠ .error .exhausted → ∀ b, ended = .ok (.inr (verdict b)) ↔
      ∃ v w₃ w₄, Evaluates literal w₂ v w₃ ∧ Tests env.registry expression v w₃ b w₄) ∧
    (∀ message, ended = .ok (.inr (errorOutcome message)) ↔
      Rejects env.registry expression literal w₂ message) ∧
    (∀ f, ended = .error (.fault f) ↔ ∃ m, f = .mishap m ∧ Fails literal w₂ m) ∧
    ((∃ b, ended = .ok (.inr (verdict b))) ∨
      (∃ message, ended = .ok (.inr (errorOutcome message))) ∨
      (∃ m, ended = .error (.fault (.mishap m))) ∨ ended = .error .exhausted) ∧
    (s.extendedTypes = true → s.Grounded → nesting s.aliases expression + 3 ≤ callDepth →
      (ended = .error .exhausted ↔ Nests literal w₂)) := by
  intro ended
  have henv : env.Furnished w₂ := Environment.furnished_of_returns hbuild
  obtain ⟨m, hdepth⟩ : ∃ m, callDepth = m + 3 := ⟨997, rfl⟩
  have hended : ended = reported (testLiteral env expression literal w₂).outcome := by
    show (run find (checkArguments config expression literal) w).outcome = _
    rw [run, read_checkArguments hconfig hexpression hliteral]
    exact outcome_execute hsetup hbuild
  have hends : Ends m env.registry expression literal w₂ ended :=
    hended ▸ ends_testLiteral hdepth henv
  clear_value ended
  refine ⟨fun hfinished b => hends.verdict_iff hfinished,
    fun message => ⟨hends.rejects, fun h => hended.trans (h.outcome hdepth henv)⟩,
    fun f => ⟨fun h => ?_, ?_⟩, ?_, fun hextended hgrounded hshort => ?_⟩
  · rw [h] at hends
    cases hends with
    | escaped hfails => exact ⟨_, rfl, hfails⟩
  · rintro ⟨m, rfl, hfails⟩
    rw [hended, reported_of_fails hfails]
  · cases hends with
    | @decided _ _ _ b => exact .inl ⟨b, rfl⟩
    | @rejected message => exact .inr (.inl ⟨message, rfl⟩)
    | @escaped m => exact .inr (.inr (.inl ⟨m, rfl⟩))
    | nested => exact .inr (.inr (.inr rfl))
    | deep => exact .inr (.inr (.inr rfl))
  · exact hends.exhausted_iff fun v w₃ hv =>
      finishes_of_grounded hextended hgrounded hbuild hv (by omega)

/-- The shipped setup tests the literal 5 for a number, and shows that it is one. -/
theorem check_ends_number :
    IsPlain "number" ∧ IsPlain "5" ∧
      (run (fun _ => .missing) (checkArguments none "number" "5") .empty).outcome =
        .ok (.inr (verdict true)) := by
  have hplain : IsPlain "number" ∧ IsPlain "5" := by decide
  have hsetup : (Invocation.setup (fun _ => .missing) ⟨none, .check "number" "5"⟩).Returns .empty
      .shipped .empty := ⟨rfl, rfl⟩
  obtain ⟨env, w, hbuild, -⟩ :=
    Environment.exists_of_admissible Setup.admissible_shipped .empty
  obtain ⟨hdecided, -, -, -, hfinished⟩ :=
    check_ends (by simp) hplain.1 hplain.2 hsetup hbuild
  have hhost : w.host = .standard := hbuild.2 ▸ Environment.host_withFacade .shipped .empty
  have hevaluates : Evaluates "5" w (.scalar (.int 5)) w := ⟨w.heap, by rw [hhost]; rfl, rfl⟩
  have htests : Tests env.registry "number" (.scalar (.int 5)) w true w :=
    (tests_base_iff (t := ("number", .isNumber, "* -> number"))
      (Environment.furnished_of_returns hbuild).base (by decide) rfl rfl).2
      ⟨.bool true, ⟨0, rfl, rfl⟩, rfl⟩
  refine ⟨hplain.1, hplain.2, (hdecided (fun hdeep => ?_) true).2 ⟨_, w, w, hevaluates, htests⟩⟩
  exact hevaluates.ne_error _ ((hfinished rfl Setup.grounded_shipped (by decide)).1 hdeep)

/-- Not every test of a literal shows something: that of a set with a list in it fails. -/
theorem not_forall_check_shown :
    ¬ ∀ expression literal, IsPlain expression → IsPlain literal → ∃ o,
      (run (fun _ => .missing) (checkArguments none expression literal) .empty).outcome =
        .ok (.inr o) := by
  intro h
  have hplain : IsPlain "number" ∧ IsPlain "\x7b[]\x7d" := by decide
  obtain ⟨o, ho⟩ := h "number" "\x7b[]\x7d" hplain.1 hplain.2
  have hsetup : (Invocation.setup (fun _ => .missing)
      ⟨none, .check "number" "\x7b[]\x7d"⟩).Returns .empty .shipped .empty := ⟨rfl, rfl⟩
  obtain ⟨env, w, hbuild, -⟩ :=
    Environment.exists_of_admissible Setup.admissible_shipped .empty
  have hhost : w.host = .standard := hbuild.2 ▸ Environment.host_withFacade .shipped .empty
  have hfails : Fails "\x7b[]\x7d" w .type :=
    (fails_iff hhost).2 ⟨by decide, .set [.list []], by rfl, by decide, by rfl⟩
  rw [run, read_checkArguments (by simp) hplain.1 hplain.2] at ho
  have hend := (outcome_execute (c := .check "number" "\x7b[]\x7d") hsetup hbuild).symm.trans ho
  rw [Command.run, reported_of_fails hfails] at hend
  simp at hend

end CommandLine

end CallContracts
