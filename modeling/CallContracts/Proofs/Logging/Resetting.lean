import CallContracts.Logging.State
import Mathlib.Data.List.Basic
import Mathlib.Tactic.SplitIfs

/-!
What is left of the calls that configured the log.

* `Logging.Call.Configures`: what a call can do to a log;
* `Logging.Log.run_filter_force`: calls that are not forced leave nothing;
* `Logging.Makers.Tame`, of a configuration: whatever of it is made, warnings keep their number and
  all handlers can be shut; `Logging.State.Sound`, of what is in force: so far it is so;
* `Logging.sound_apply`: a configuration that is tame keeps it so, also if it stops halfway, and
  `Logging.Log.sound_run` the same for calls, by induction on them;
* `Logging.apply_builtIn`: what the built-in configuration puts in force, whatever was before;
* `Logging.tame_standard`: what is tame for the standard makers;
* `Logging.Log.run_reset`: **what is in force depends on the forced calls alone, and a last one
  resets it**, if all that was made before is tame;
* `Logging.Log.not_forall_run_reset`: a document that renames a level outlasts the reset.
-/

namespace CallContracts.Logging

variable {m : Makers} {c : Call} {l : Log} {s : State} {names : LevelNames}

/-! ### Calls -/

/-- What a call does to a log, and how it ends. -/
inductive Call.Configures (m : Makers) (c : Call) (l : Log) : Log × Except Mishap Unit → Prop
  /-- The log is configured, and the call is not forced. -/
  | skipped (hl : l.configured = true) (hc : c.force = false) : Configures m c l (l, .ok ())
  /-- There is nothing that could be applied. -/
  | unreadable {e : Mishap} (hforce : l.configured = true → c.force = true)
      (hsections : c.sections = .error e) : Configures m c l (l, .error e)
  | applied {sections : Sections} {s : State} (hforce : l.configured = true → c.force = true)
      (hsections : c.sections = .ok sections) (happly : sections.apply m l.state = (s, .ok ())) :
      Configures m c l (⟨true, s⟩, .ok ())
  /-- What was done before something made no sense stays. -/
  | stopped {sections : Sections} {s : State} {e : Mishap}
      (hforce : l.configured = true → c.force = true) (hsections : c.sections = .ok sections)
      (happly : sections.apply m l.state = (s, .error e)) :
      Configures m c l ({ l with state := s }, .error e)

namespace Log

lemma configures (m : Makers) (c : Call) (l : Log) : c.Configures m l (l.configure m c) := by
  rw [configure]
  split
  · next hskip =>
    rw [Bool.and_eq_true, Bool.not_eq_true'] at hskip
    exact .skipped hskip.1 hskip.2
  · next hskip =>
    have hforce : l.configured = true → c.force = true := by simpa using hskip
    split
    · next hsections => exact .unreadable hforce hsections
    · next hsections =>
      split
      · next happly => exact .applied hforce hsections happly
      · next happly => exact .stopped hforce hsections happly

/-- Until a call has gone through, all calls count as forced. -/
lemma configure_of_not_configured (hl : l.configured = false) (c : Call) :
    l.configure m c = l.configure m { c with force := true } := by
  rw [configure, configure, if_neg (by simp [hl]), if_neg (by simp [hl])]
  rfl

lemma configure_of_not_force (hl : l.configured = true) (hc : c.force = false) :
    l.configure m c = (l, .ok ()) := by
  simp [configure, hl, hc]

/-- A log stays configured. -/
lemma configured_configure (hl : l.configured = true) :
    (l.configure m c).1.configured = true := by
  have h := configures m c l
  generalize l.configure m c = done at h ⊢
  cases h with
  | skipped _ _ | unreadable _ _ | stopped _ _ _ => exact hl
  | applied _ _ _ => rfl

/-- A call that goes through leaves the log configured. -/
lemma configured_of_ok {l' : Log} (h : l.configure m c = (l', .ok ())) :
    l'.configured = true := by
  have hdone := configures m c l
  rw [h] at hdone
  cases hdone with
  | skipped hl _ => exact hl
  | applied _ _ _ => rfl

/-- **Calls that are not forced leave nothing.** -/
lemma run_filter_force (hl : l.configured = true) (calls : List Call) :
    l.run m calls = l.run m (calls.filter Call.force) := by
  induction calls generalizing l with
  | nil => rfl
  | cons c calls ih =>
    have hrest := ih (configured_configure (m := m) (c := c) hl)
    cases hc : c.force with
    | true =>
      rw [List.filter_cons_of_pos hc]
      exact hrest
    | false =>
      rw [List.filter_cons_of_neg (by simp [hc])]
      rw [configure_of_not_force hl hc] at hrest
      rw [← hrest]
      show (l.configure m c).1.run m calls = l.run m calls
      rw [configure_of_not_force hl hc]

end Log

/-! ### Sections -/

lemma mem_insertByName {e q : Scalar × Datum} {es : List (Scalar × Datum)}
    (h : q ∈ insertByName e es) : q = e ∨ q ∈ es := by
  induction es with
  | nil => exact .inl (List.mem_singleton.1 h)
  | cons p es ih =>
    rw [insertByName] at h
    split at h
    · exact List.mem_cons.1 h
    · rcases List.mem_cons.1 h with rfl | h
      · exact .inr (by simp)
      · exact (ih h).imp_right (List.mem_cons_of_mem _)

/-- Putting entries in order adds none. -/
lemma mem_of_mem_orderedListing {d : Datum} {e : Scalar × Datum}
    (he : e ∈ (orderedListing d).entries) : e ∈ (listing d).entries := by
  rw [orderedListing] at he
  split_ifs at he
  · replace he : e ∈ (listing d).entries.foldr insertByName [] := he
    generalize (listing d).entries = es at he
    induction es with
    | nil => exact he
    | cons q es ih =>
      rcases mem_insertByName he with rfl | he
      · simp
      · exact List.mem_cons_of_mem _ (ih he)
  · simp at he

/-! ### Making and giving -/

/-- Making formatters and handlers keeps the number of warnings, and the handlers can be shut. -/
structure Makers.Tame (m : Makers) (c : Sections) : Prop where
  formatter : ∀ e ∈ (listing (m.resolve c).formatters).entries, ∀ names,
    (m.formatter e.2 names).1.lookup "WARNING" = names.lookup "WARNING"
  handler : ∀ e ∈ (listing (m.resolve c).handlers).entries, ∀ formatters names,
    (m.handler formatters e.2 names).1.lookup "WARNING" = names.lookup "WARNING" ∧
      ∀ h, (m.handler formatters e.2 names).2 = some h → h.shuts = true

namespace Makers

lemma formatters_keep {ds : List Datum} (h : ∀ d ∈ ds, ∀ names,
      (m.formatter d names).1.lookup "WARNING" = names.lookup "WARNING") (names : LevelNames) :
    (m.formatters names ds).1.lookup "WARNING" = names.lookup "WARNING" := by
  induction ds generalizing names with
  | nil => rfl
  | cons d ds ih =>
    rw [List.forall_mem_cons] at h
    have hd := h.1 names
    rw [formatters]
    split
    · next names' hmade =>
      rw [hmade] at hd
      exact (ih h.2 names').trans hd
    · next names' hmade =>
      rw [hmade] at hd
      exact hd

lemma handlers_keep {formatters : List Scalar} {es : List (Scalar × Datum)}
    (h : ∀ e ∈ es, ∀ names,
      (m.handler formatters e.2 names).1.lookup "WARNING" = names.lookup "WARNING" ∧
        ∀ h, (m.handler formatters e.2 names).2 = some h → h.shuts = true) (names : LevelNames) :
    (m.handlers formatters names es).1.lookup "WARNING" = names.lookup "WARNING" ∧
      ∀ table, (m.handlers formatters names es).2 = some table →
        ∀ e ∈ table, e.2.shuts = true := by
  induction es generalizing names with
  | nil => exact ⟨rfl, fun table htable => by simp [← Option.some.inj htable]⟩
  | cons q es ih =>
    rw [List.forall_mem_cons] at h
    obtain ⟨hq, hshuts⟩ := h.1 names
    rw [handlers]
    split
    · next names' hmade =>
      rw [hmade] at hq
      exact ⟨hq, by simp⟩
    · next names' handler hmade =>
      rw [hmade] at hq hshuts
      obtain ⟨hkeep, htable⟩ := ih h.2 names'
      refine ⟨hkeep.trans hq, fun table heq => ?_⟩
      obtain ⟨rest, hrest, rfl⟩ := Option.map_eq_some_iff.1 heq
      exact List.forall_mem_cons.2 ⟨hshuts _ rfl, htable rest hrest⟩

end Makers

/-- What is around the library's logger stays as it is. -/
structure State.Keeps (s s' : State) : Prop where
  names : s'.names = s.names
  jammed : s'.jammed = s.jammed

namespace State

variable {s₁ s₂ s₃ : State}

lemma Keeps.refl (s : State) : Keeps s s := ⟨rfl, rfl⟩

lemma Keeps.trans (h : Keeps s₁ s₂) (h' : Keeps s₂ s₃) : Keeps s₁ s₃ :=
  ⟨h'.names.trans h.names, h'.jammed.trans h.jammed⟩

end State

section loggers

variable {table : List (Scalar × Handler)} (h : ∀ e ∈ table, e.2.shuts = true)

include h

lemma keeps_addHandlers (given : List Scalar) (ds : List Datum) (s : State) :
    s.Keeps (addHandlers table given s ds).1 := by
  induction ds generalizing given s with
  | nil => exact .refl s
  | cons d ds ih =>
    unfold addHandlers
    split
    · exact .refl s
    · next name ds' heq =>
      obtain ⟨-, rfl⟩ := List.cons.inj heq
      split
      · exact ih _ _
      · split
        · next k handler hfound =>
          have hshuts : handler.shuts = true := h _ (List.mem_of_find?_eq_some hfound)
          have hadded : s.Keeps { s with
              handlers := s.handlers ++ [handler.kind], jammed := s.jammed || !handler.shuts } :=
            ⟨rfl, by simp [hshuts]⟩
          exact hadded.trans (ih _ _)
        · exact .refl s
    · exact .refl s

lemma keeps_applyLogger (d : Datum) (s : State) : s.Keeps (applyLogger table d s).1 := by
  unfold applyLogger
  split
  · simp only
    split
    · exact .refl s
    · next s₁ hlevel =>
      have hcleared : s.Keeps { s₁ with handlers := [] } := by
        split at hlevel
        · obtain rfl := Option.some.inj hlevel
          exact ⟨rfl, rfl⟩
        · obtain ⟨n, -, rfl⟩ := Option.map_eq_some_iff.1 hlevel
          exact ⟨rfl, rfl⟩
      split
      · exact hcleared
      · next ds hds =>
        have hadded := hcleared.trans (keeps_addHandlers h [] ds _)
        split
        · next s₂ heq =>
          rw [heq] at hadded
          split
          · exact hadded
          · refine hadded.trans ?_
            unfold setPropagate
            split
            all_goals exact ⟨rfl, rfl⟩
        · next s₂ f heq =>
          rw [heq] at hadded
          exact hadded
  · exact .refl s

lemma keeps_applyNamed (name : Scalar) (d : Datum) (s : State) :
    s.Keeps (applyNamed table name d s).1 := by
  unfold applyNamed
  split
  · exact .refl s
  · split
    · exact keeps_applyLogger h d s
    · exact ⟨rfl, (keeps_applyLogger h d ⟨0, .bool true, [], s.names, s.jammed⟩).jammed⟩

/-- Loggers that are given handlers that can be shut. -/
lemma keeps_applyLoggers (es : List (Scalar × Datum)) (s : State) :
    s.Keeps (applyLoggers table s es).1 := by
  induction es generalizing s with
  | nil => exact .refl s
  | cons q es ih =>
    have hfirst := keeps_applyNamed h q.1 q.2 s
    unfold applyLoggers
    split
    · next s₁ heq =>
      rw [heq] at hfirst
      exact hfirst.trans (ih s₁)
    · next s₁ f heq =>
      rw [heq] at hfirst
      exact hfirst

end loggers

/-! ### Configurations -/

/-- Warnings have their number, and all handlers can be shut. -/
structure State.Sound (s : State) : Prop where
  warning : s.names.lookup "WARNING" = some 30
  shuts : s.jammed = false

lemma State.Keeps.sound {s' : State} (h : s.Keeps s') (hs : s.Sound) : s'.Sound :=
  ⟨h.names ▸ hs.warning, h.jammed ▸ hs.shuts⟩

/-- A section that fails behind its entries leaves what they have done. -/
lemma Listing.sound_close {l : Listing} {next : State → State × Except Mishap Unit} (hs : s.Sound)
    (hnext : (next s).1.Sound) : (l.close s next).1.Sound := by
  rw [close]
  split
  · exact hs
  · exact hnext

/-- **A tame configuration keeps warnings in order**, whether it goes through or not. -/
lemma sound_apply {c : Sections} (h : m.Tame c) (hs : s.Sound) : (c.apply m s).1.Sound := by
  rw [Sections.apply, Sections.applyResolved]
  split
  · exact hs
  split
  · exact hs
  have hmade := Makers.formatters_keep (List.forall_mem_map.2 h.formatter) s.names
  dsimp only
  split
  · next names heq =>
    rw [heq] at hmade
    exact ⟨hmade.trans hs.warning, hs.shuts⟩
  next names heq =>
  rw [heq] at hmade
  have hnamed : { s with names }.Sound := ⟨hmade.trans hs.warning, hs.shuts⟩
  refine Listing.sound_close hnamed ?_
  obtain ⟨hkeep, hshuts⟩ := Makers.handlers_keep
    (fun e he => h.handler e (mem_of_mem_orderedListing he)
      ((listing (m.resolve c).formatters).entries.map (·.1))) names
  split
  · next names' heq' =>
    rw [heq'] at hkeep
    exact ⟨hkeep.trans hnamed.warning, hs.shuts⟩
  next names' table heq' =>
  rw [heq'] at hkeep hshuts
  have hnamed' : { s with names := names' }.Sound := ⟨hkeep.trans hnamed.warning, hs.shuts⟩
  refine Listing.sound_close hnamed' ?_
  have hloggers := (keeps_applyLoggers (hshuts table rfl)
    (listing (m.resolve c).loggers).entries { s with names := names' }).sound hnamed'
  split
  · next heq'' => rwa [heq''] at hloggers
  · next heq'' =>
    rw [heq''] at hloggers
    exact Listing.sound_close hloggers hloggers

/-- **Once a handler cannot be shut**, no configuration does anything. -/
lemma apply_of_jammed (c : Sections) (hs : s.jammed = true) :
    ∃ e, c.apply m s = (s, .error e) := by
  rw [Sections.apply, Sections.applyResolved]
  cases hfirst : (m.resolve c).isFirst with
  | false => exact ⟨.value, by simp⟩
  | true => exact ⟨.type, by simp [hs]⟩

/-! ### The built-in configuration -/

/-- The parts of the built-in configuration can be made. -/
structure Makers.MakesBuiltIn (m : Makers) : Prop where
  resolve : m.resolve .builtIn = .builtIn
  formatter : ∀ names, m.formatter Sections.standard names = (names, true)
  handler : ∀ names, m.handler [.text "standard"] Sections.console names =
    (names, some ⟨"StreamHandler", true⟩)

lemma applyLogger_builtIn (hs : s.Sound) :
    applyLogger [(.text "console", ⟨"StreamHandler", true⟩)] Sections.logger s =
      ({ s with level := 30, propagate := .bool false, handlers := ["StreamHandler"] },
        .ok ()) := by
  have hlevel : level? s.names (text "WARNING") = some 30 := hs.warning
  have hset : set? Sections.logger "level" = some (text "WARNING") := by rfl
  have hnames : handlerNames Sections.logger = .ok [text "console"] := by rfl
  have hfilters : given? Sections.logger "filters" = none := by rfl
  have hpropagate : set? Sections.logger "propagate" = some (.scalar (.bool false)) := by rfl
  obtain ⟨es, hes⟩ : ∃ es, Sections.logger = .dict es := ⟨_, rfl⟩
  rw [hes] at hset hnames hfilters hpropagate ⊢
  have hadded : ∀ s : State, addHandlers [(.text "console", ⟨"StreamHandler", true⟩)] [] s
      [text "console"] = ({ s with
        handlers := s.handlers ++ ["StreamHandler"], jammed := s.jammed || false }, .ok ()) :=
    fun _ => rfl
  simp only [applyLogger, hset, hlevel, hnames, hfilters, hadded, setPropagate, hpropagate,
    Option.map_some, Option.isSome_none, List.nil_append, Bool.or_false, Bool.false_eq_true,
    if_false]

/-- **What the built-in configuration puts in force**, whatever was before. -/
lemma apply_builtIn (hm : m.MakesBuiltIn) (hs : s.Sound) :
    Sections.builtIn.apply m s = ({ s with
      level := 30, propagate := .bool false, handlers := ["StreamHandler"] }, .ok ()) := by
  have hfirst : Sections.builtIn.isFirst = true := by rfl
  have hformatters : listing Sections.builtIn.formatters =
      ⟨[(.text "standard", Sections.standard)], none⟩ := by rfl
  have hhandlers : orderedListing Sections.builtIn.handlers =
      ⟨[(.text "console", Sections.console)], none⟩ := by rfl
  have hloggers : listing Sections.builtIn.loggers =
      ⟨[(.text loggerRoot, Sections.logger)], none⟩ := by rfl
  have hstandard : m.formatters s.names [Sections.standard] = (s.names, true) := by
    rw [Makers.formatters, hm.formatter]
    rfl
  have hconsole : m.handlers [.text "standard"] s.names [(.text "console", Sections.console)] =
      (s.names, some [(.text "console", ⟨"StreamHandler", true⟩)]) := by
    rw [Makers.handlers, hm.handler]
    rfl
  have hnamed : ∀ table, applyNamed table (.text loggerRoot) Sections.logger s =
      applyLogger table Sections.logger s := fun _ => rfl
  rw [Sections.apply, hm.resolve, Sections.applyResolved, if_neg (by simp [hfirst]),
    if_neg (by simp [hs.shuts])]
  simp only [hformatters, hhandlers, hloggers, hstandard, hconsole, List.map_cons, List.map_nil,
    Listing.close, applyLoggers, hnamed, applyLogger_builtIn hs]

/-! ### Runs -/

/-- What the call applies, if it applies anything, is tame. -/
def Call.Tame (m : Makers) (c : Call) : Prop :=
  ∀ sections, c.sections = .ok sections → m.Tame sections

namespace Log

variable {calls : List Call}

/-- A tame call keeps warnings in order, whether it goes through or fails. -/
lemma sound_configure (h : c.force = true → c.Tame m) (hl : l.configured = true)
    (hs : l.state.Sound) : (l.configure m c).1.state.Sound := by
  have hdone := configures m c l
  generalize l.configure m c = done at hdone ⊢
  cases hdone with
  | skipped _ _ | unreadable _ _ => exact hs
  | applied hforce hsections happly | stopped hforce hsections happly =>
    have hsound := sound_apply (h (hforce hl) _ hsections) hs
    rwa [happly] at hsound

lemma sound_run (h : ∀ c ∈ calls, c.force = true → c.Tame m) (hl : l.configured = true)
    (hs : l.state.Sound) : (l.run m calls).state.Sound := by
  induction calls generalizing l with
  | nil => exact hs
  | cons c calls ih =>
    rw [List.forall_mem_cons] at h
    exact ih h.2 (configured_configure hl) (sound_configure h.1 hl hs)

lemma configured_run (hl : l.configured = true) : (l.run m calls).configured = true := by
  induction calls generalizing l with
  | nil => exact hl
  | cons c calls ih => exact ih (configured_configure hl)

/-- Behind a handler that cannot be shut, a forced call fails and leaves the log as it is. -/
lemma configure_of_jammed (hc : c.force = true) (hs : l.state.jammed = true) :
    ∃ e, l.configure m c = (l, .error e) := by
  have hdone := configures m c l
  generalize l.configure m c = done at hdone ⊢
  cases hdone with
  | skipped _ hc' => simp [hc] at hc'
  | unreadable _ _ => exact ⟨_, rfl⟩
  | @applied sections _ _ _ happly =>
    obtain ⟨e, he⟩ := apply_of_jammed (m := m) sections hs
    rw [he] at happly
    simp at happly
  | @stopped sections _ e _ _ happly =>
    obtain ⟨e', he⟩ := apply_of_jammed (m := m) sections hs
    rw [he] at happly
    obtain ⟨rfl, -⟩ := Prod.mk.inj happly
    exact ⟨e, rfl⟩

/-- No call does anything about a handler that cannot be shut. -/
lemma run_of_jammed (hl : l.configured = true) (hs : l.state.jammed = true)
    (calls : List Call) : l.run m calls = l := by
  induction calls with
  | nil => rfl
  | cons c calls ih =>
    have hstep : (l.configure m c).1 = l := by
      cases hc : c.force with
      | false => rw [configure_of_not_force hl hc]
      | true =>
        obtain ⟨e, he⟩ := configure_of_jammed (m := m) hc hs
        rw [he]
    show (l.configure m c).1.run m calls = l
    rw [hstep]
    exact ih

lemma configure_builtIn (hm : m.MakesBuiltIn) (hs : l.state.Sound)
    (hc : c.force = true) (hsections : c.sections = .ok .builtIn) :
    l.configure m c = (⟨true, { l.state with
      level := 30, propagate := .bool false, handlers := ["StreamHandler"] }⟩, .ok ()) := by
  rw [configure, if_neg (by simp [hc]), hsections]
  simp only [apply_builtIn hm hs]

end Log

/-! ### Standard makers -/

/-- The standard makers make the parts of the built-in configuration. -/
lemma standard_makesBuiltIn : Makers.standard.MakesBuiltIn where
  resolve := rfl
  formatter names := by
    have hformat : isFormatter Sections.standard = true := by decide +kernel
    show (names, isFormatter Sections.standard) = (names, true)
    rw [hformat]
  handler names := by
    have hlevel : set? Sections.console "level" = none := by rfl
    -- without a level to look up, the names do not matter
    have hnames : handler? names [.text "standard"] Sections.console =
        handler? [] [.text "standard"] Sections.console := by
      simp only [handler?, hlevel, Option.all_none]
    have hmade : handler? [] [.text "standard"] Sections.console =
        some ⟨"StreamHandler", true⟩ := by
      decide +kernel
    show (names, handler? names [.text "standard"] Sections.console) = _
    rw [hnames, hmade]

lemma flushes?_of_handler? {formatters : List Scalar} {d : Datum} {h : Handler}
    (hmade : handler? names formatters d = some h) :
    flushes? (under? d "stream") = some h.shuts := by
  unfold handler? at hmade
  split at hmade
  · simp only [Option.bind_eq_bind] at hmade
    split at hmade
    · simp only [Option.bind_eq_some_iff] at hmade
      obtain ⟨kind, -, shuts, hshuts, hmade⟩ := hmade
      obtain ⟨-, hh⟩ := Option.ite_none_right_eq_some.1 hmade
      rw [hshuts, ← Option.some.inj hh]
    · simp at hmade
  · simp at hmade

/-- What is tame for the standard makers: no warnings are renamed, and all streams can be
flushed. -/
lemma tame_standard {c : Sections}
    (hformatters : ∀ e ∈ (listing c.formatters).entries, ∀ p ∈ renaming? e.2, p.1 ≠ "WARNING")
    (hhandlers : ∀ e ∈ (listing c.handlers).entries,
      flushes? (under? e.2 "stream") ≠ some false) : Makers.standard.Tame c where
  formatter e he names := by
    simp only [Makers.standard]
    split
    · rfl
    · split
      · next renamed hrenamed =>
        have hne := hformatters e he renamed hrenamed
        rw [List.lookup_cons, beq_false_of_ne hne.symm]
      · rfl
    · rfl
  handler e he formatters names := by
    refine ⟨rfl, fun h hmade => ?_⟩
    have hshuts := flushes?_of_handler? hmade
    have hne := hhandlers e he
    rw [hshuts] at hne
    cases hh : h.shuts with
    | true => rfl
    | false => exact absurd (by rw [hh]) hne

/-! ### Resetting -/

/-- What is in force before anything is configured. -/
def State.fresh : State := ⟨0, .bool true, [], standardNames, false⟩

/-- The document that sets the level of the library's logger. -/
def levelled (level : String) : Datum :=
  fields [("loggers", fields [(loggerRoot, fields [("level", text level)])])]

/-- The document with a formatter that renames a level. -/
def renamed (n : Int) (level : String) : Datum :=
  fields [("formatters", fields [("renaming", fields [("()", text "logging.addLevelName"),
      ("level", .scalar (.int n)), ("levelName", text level)])]),
    ("handlers", fields []), ("loggers", fields [])]

/-- The document with a handler that cannot be shut. -/
def jamming : Datum :=
  fields [("handlers", fields [("console", fields [("class", text "logging.StreamHandler"),
    ("stream", text "ext://io.StringIO")])])]

lemma tame_levelled (force : Bool) (level : String) :
    Call.Tame .standard ⟨force, .ok (.data (levelled level))⟩ := by
  rintro sections hsections
  obtain rfl : Sections.ofContent (.data (levelled level)) = sections := Except.ok.inj hsections
  have hformatters : (listing (Sections.ofContent (.data (levelled level))).formatters).entries =
      [(.text "standard", Sections.standard)] := by rfl
  have hhandlers : (listing (Sections.ofContent (.data (levelled level))).handlers).entries =
      [(.text "console", Sections.console)] := by rfl
  refine tame_standard (fun e he => ?_) fun e he => ?_
  · obtain rfl := List.mem_singleton.1 (hformatters ▸ he)
    decide +kernel
  · obtain rfl := List.mem_singleton.1 (hhandlers ▸ he)
    decide +kernel

namespace Log

/-- **What is in force depends on the forced calls alone, and a last one resets it.** All calls
count until one goes through; after that, those that are not forced might as well not be made.
However the others end, without a document or with the one that comes with the library a forced call
puts the built-in configuration in force, if warnings kept their number and all handlers can be
shut. Behind a handler that cannot be shut, all forced calls fail and leave everything as it is. -/
theorem run_reset {first : Call} {l₀ : Log} (hfirst : l₀.configure m first = (l, .ok ()))
    (calls : List Call) :
    (l₀.configured = false → ∀ c, l₀.configure m c = l₀.configure m { c with force := true }) ∧
    l.run m calls = l.run m (calls.filter Call.force) ∧
    (m.MakesBuiltIn → l.state.Sound → (∀ c ∈ calls, c.force = true → c.Tame m) →
      ∀ content ∈ [.missing, .data Sections.shipped],
        (l.run m calls).configure m ⟨true, .ok content⟩ = (⟨true, { (l.run m calls).state with
          level := 30, propagate := .bool false, handlers := ["StreamHandler"] }⟩, .ok ())) ∧
    ((l.run m calls).state.jammed = true →
      (∀ c : Call, c.force = true →
        ∃ e, (l.run m calls).configure m c = (l.run m calls, .error e)) ∧
      ∀ later, (l.run m calls).run m later = l.run m calls) := by
  have hl : l.configured = true := configured_of_ok hfirst
  refine ⟨configure_of_not_configured, run_filter_force hl calls,
    fun hm hs htame content hcontent => ?_, fun hjammed => ?_⟩
  · have hbuiltIn : Call.sections ⟨true, .ok content⟩ = .ok .builtIn := by
      rcases List.mem_pair.1 hcontent with rfl | rfl
      · rfl
      · rfl
    exact configure_builtIn hm (sound_run htame hl hs) rfl hbuiltIn
  · exact ⟨fun c hc => configure_of_jammed hc hjammed,
      run_of_jammed (configured_run hl) hjammed⟩

/-- A level is set, a document cannot be read, another level does not exist: the reset undoes all of
it. Behind a handler that cannot be shut, nothing does. -/
theorem run_reset_debug :
    let start : Log := ⟨false, .fresh⟩
    let l : Log := ⟨true, .initial⟩
    let calls : List Call := [⟨true, .ok (.data (levelled "DEBUG"))⟩,
      ⟨false, .ok (.data (levelled "ERROR"))⟩, ⟨true, .error .value⟩,
      ⟨true, .ok (.data (levelled "LOUD"))⟩]
    start.configure .standard ⟨false, .ok .missing⟩ = (l, .ok ()) ∧
    l.run .standard calls = ⟨true, ⟨10, .bool false, [], standardNames, false⟩⟩ ∧
    l.run .standard calls = l.run .standard (calls.filter Call.force) ∧
    (l.run .standard calls).configure .standard ⟨true, .ok (.data Sections.shipped)⟩ =
      (l, .ok ()) ∧
    (l.run .standard [⟨true, .ok (.data jamming)⟩]).state.jammed = true ∧
    (l.run .standard [⟨true, .ok (.data jamming)⟩]).run .standard [⟨true, .ok .missing⟩] =
      l.run .standard [⟨true, .ok (.data jamming)⟩] := by
  intro start l calls
  have hfirst : start.configure .standard ⟨false, .ok .missing⟩ = (l, .ok ()) := by
    decide +kernel
  have hrun : l.run .standard calls =
      ⟨true, ⟨10, .bool false, [], standardNames, false⟩⟩ := by
    decide +kernel
  have hsound : State.initial.Sound := ⟨by decide +kernel, rfl⟩
  have hunreadable : Call.Tame .standard ⟨true, .error .value⟩ := by
    rintro sections ⟨⟩
  have htame : ∀ c ∈ calls, c.force = true → c.Tame .standard := by
    rintro c hc -
    simp only [calls, List.mem_cons, List.not_mem_nil, or_false] at hc
    rcases hc with rfl | rfl | rfl | rfl
    exacts [tame_levelled _ _, tame_levelled _ _, hunreadable, tame_levelled _ _]
  obtain ⟨-, hforced, hreset, -⟩ := run_reset hfirst calls
  have hlast := hreset standard_makesBuiltIn hsound htame (.data Sections.shipped) (by simp)
  rw [hrun] at hlast
  have hjammed : (l.run .standard [⟨true, .ok (.data jamming)⟩]).state.jammed = true := by
    decide +kernel
  obtain ⟨-, -, -, hbehind⟩ := run_reset hfirst [⟨true, .ok (.data jamming)⟩]
  have hstuck := (hbehind hjammed).2 [⟨true, .ok .missing⟩]
  refine ⟨hfirst, hrun, hforced, ?_, hjammed, hstuck⟩
  rw [hrun, hlast]
  rfl

/-- A formatter that renames warnings outlasts the reset; and before a call has gone through, calls
that are not forced count as well. -/
theorem not_forall_run_reset :
    (¬ ∀ calls : List Call, ∃ s,
      (Log.run .standard ⟨true, .initial⟩ calls).configure .standard
        ⟨true, .ok (.data Sections.shipped)⟩ = (⟨true, s⟩, .ok ()) ∧
      s.level = 30 ∧ s.propagate = .bool false ∧ s.handlers = ["StreamHandler"]) ∧
    ¬ ∀ (first : Call) (calls : List Call),
      let l := (Log.configure .standard first ⟨false, .fresh⟩).1
      (l.run .standard calls).state.level =
        (l.run .standard (calls.filter Call.force)).state.level := by
  constructor
  · intro h
    obtain ⟨s, hreset, hlevel, -⟩ := h [⟨true, .ok (.data (renamed 7 "WARNING"))⟩]
    have hseven : ((Log.run .standard ⟨true, .initial⟩
        [⟨true, .ok (.data (renamed 7 "WARNING"))⟩]).configure .standard
          ⟨true, .ok (.data Sections.shipped)⟩).1.state.level = 7 := by
      decide +kernel
    rw [hreset, hlevel] at hseven
    exact absurd hseven (by decide)
  · intro h
    have hlevel := h ⟨true, .ok (.data (levelled "LOUD"))⟩ [⟨false, .ok .missing⟩]
    exact absurd hlevel (by decide +kernel)

end Log

end CallContracts.Logging
