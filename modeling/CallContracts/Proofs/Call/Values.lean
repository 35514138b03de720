import CallContracts.Proofs.Call.Binding
import CallContracts.Proofs.World.Outcomes
import CallContracts.Script.Eval

/-!
Calls of functions whose parameters are all plain.

* `Call.exists_of_bind_plain`: such a call binds one value to each parameter;
* `Call.values_plain`: these are its values, or it fails, in either case without a trace.
-/

namespace CallContracts.Call

/-- Every parameter is one by position or keyword, without a default. -/
def Plain {δ : Type} (ps : List (Parameter δ)) : Prop :=
  ∀ p ∈ ps, p = .plain p.name

variable {δ α : Type} {ps : List (Parameter δ)} {args : List α} {kw left : Keywords α}
  {slots : List (Slot α)}

/-- A plain parameter is given one value or left open. -/
lemma given_or_omitted_of_fill (hps : Plain ps) (h : fill ps args kw = some (slots, left)) :
    ∀ s ∈ slots, s = .omitted ∨ ∃ v, s = .given v := by
  induction ps generalizing args kw slots with
  | nil =>
    have hlength := length_fill h
    rw [List.length_nil, List.length_eq_zero_iff] at hlength
    simp [hlength]
  | cons p ps ih =>
    rw [Plain, List.forall_mem_cons] at hps
    obtain ⟨hp, hps⟩ := hps
    have hcons : ∀ {s : Slot α} {args : List α} {kw : Keywords α},
        (s = .omitted ∨ ∃ v, s = .given v) → consSlot s (fill ps args kw) = some (slots, left) →
          ∀ s ∈ slots, s = .omitted ∨ ∃ v, s = .given v := by
      intro s args kw hs h
      obtain ⟨rest, hrest, rfl⟩ := exists_of_consSlot h
      rw [List.forall_mem_cons]
      exact ⟨hs, ih hps hrest⟩
    have hkind : p.kind = .positional := by rw [hp, Parameter.plain]
    rcases args with _ | ⟨a, args⟩
    · simp only [fill, hkind] at h
      split at h
      · next v _ => exact hcons (.inr ⟨v, rfl⟩) h
      · exact hcons (.inl rfl) h
    · simp only [fill, hkind] at h
      split at h
      · simp at h
      · exact hcons (.inr ⟨a, rfl⟩) h

/-- No plain parameter collects keywords. -/
lemma fill_of_slots? (hps : Plain ps) (h : slots? ps args kw = some slots) :
    ∃ left, fill ps args kw = some (slots, left) := by
  rw [slots?] at h
  split at h
  · simp at h
  · next filled left hfill =>
    have hcollects : collects ps = false := by
      rw [collects, List.any_eq_false]
      intro p hp
      rw [hps p hp]
      simp [Parameter.plain]
    rw [hcollects] at h
    split at h
    · exact ⟨left, by rw [hfill, Option.some.inj h]⟩
    · simp at h

/-- A call that binds gives each plain parameter one value. -/
lemma exists_of_bind_plain (hps : Plain ps) (h : bind ps args kw = some slots) :
    ∃ vs : List α, vs.length = ps.length ∧ slots = vs.map .given := by
  obtain ⟨hslots, hfilled⟩ := bind_eq_some_iff.1 h
  obtain ⟨left, hfill⟩ := fill_of_slots? hps hslots
  have hlength := length_slots? hslots
  have hgiven : ∀ s ∈ slots, ∃ v, Slot.given v = s := by
    intro s hs
    rcases given_or_omitted_of_fill hps hfill s hs with rfl | ⟨v, rfl⟩
    · -- a parameter without a default does not stay open
      obtain ⟨⟨p, _⟩, hmem, rfl⟩ : ∃ q ∈ ps.zip slots, q.2 = Slot.omitted := by
        rwa [← List.map_snd_zip hlength.le, List.mem_map] at hs
      have := hfilled _ hmem
      rw [hps p (List.of_mem_zip hmem).1] at this
      simp [Slot.isOmitted, Parameter.plain] at this
    · exact ⟨v, rfl⟩
  obtain ⟨vs, rfl⟩ : slots ∈ Set.range (List.map Slot.given) := by
    rw [Set.range_list_map]
    exact hgiven
  exact ⟨vs, by simpa using hlength, rfl⟩

variable {ps : List (Parameter Value)} {args vs : List Value} {kw : Keywords Value} {w : World}

/-- The values of a call are those of its slots, one after the other. -/
lemma values_eq_each {slots : List (Slot Value)} (h : bind ps args kw = some slots) :
    values ps args kw =
      Act.each (fun q : Parameter Value × Slot Value => q.2.value q.1.default?) (ps.zip slots) := by
  rw [values, h]
  exact Act.pure_bind _ _

lemma each_given (hlength : vs.length = ps.length) :
    Act.each (fun q : Parameter Value × Slot Value => q.2.value q.1.default?)
      (ps.zip (vs.map .given)) w = ⟨.ok vs, w, []⟩ := by
  induction ps generalizing vs with
  | nil =>
    obtain rfl := List.length_eq_zero_iff.1 hlength
    rfl
  | cons p ps ih =>
    rcases vs with _ | ⟨v, vs⟩
    · simp at hlength
    · have hfirst : (Slot.given v).value p.default? w = ⟨.ok v, w, []⟩ := rfl
      have hrest := @ih vs (by simpa using hlength)
      rw [List.map_cons, List.zip_cons_cons, Act.each, Act.bind_of_pure hfirst,
        Act.bind_of_pure hrest]
      rfl

/-- The values of a call that gives one to each parameter. -/
lemma values_of_bind (h : bind ps args kw = some (vs.map .given)) :
    values ps args kw w = ⟨.ok vs, w, []⟩ := by
  have hlength : vs.length = ps.length := by
    simpa using length_slots? (bind_eq_some_iff.1 h).1
  rw [values_eq_each h]
  exact each_given hlength

/-- A call that does not bind. -/
lemma values_of_not_bind (h : bind ps args kw = none) :
    values ps args kw w = ⟨.error (.fault (.mishap .type)), w, []⟩ := by
  have hslots : Act.orMishap .type (bind ps args kw) w =
      ⟨.error (.fault (.mishap .type)), w, []⟩ := by
    rw [h]
    rfl
  rw [values, Act.bind_of_error hslots]

/-- **A call of plain parameters** has the values that it binds, or it fails without a trace. -/
lemma values_plain (hps : Plain ps) (args : List Value) (kw : Keywords Value) (w : World) :
    (∃ vs : List Value, vs.length = ps.length ∧ bind ps args kw = some (vs.map .given) ∧
      values ps args kw w = ⟨.ok vs, w, []⟩) ∨
    (bind ps args kw = none ∧ values ps args kw w = ⟨.error (.fault (.mishap .type)), w, []⟩) := by
  rcases hbind : bind ps args kw with _ | slots
  · exact .inr ⟨rfl, values_of_not_bind hbind⟩
  · obtain ⟨vs, hlength, rfl⟩ := exists_of_bind_plain hps hbind
    exact .inl ⟨vs, hlength, rfl, values_of_bind hbind⟩

end CallContracts.Call
