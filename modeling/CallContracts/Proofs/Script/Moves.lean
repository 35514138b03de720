import CallContracts.Proofs.World.Moves
import CallContracts.Script.Eval
import CallContracts.Value.Intrinsics

/-!
Operations on values and function bodies change worlds as the calls in them do.

* `Invoke.Related S`: two ways to call agree along `S`, a congruence of computations;
* `Datum.congr_make` and `Expr.congr_eval`: so do written values and bodies, by induction on them;
* `Closure.congr_run`, and for what makes no call `Operator.basic_apply` and
  `Intrinsic.steady_answer`.
-/

namespace CallContracts

open World Act

/-! ### Operations on values -/

namespace Value

lemma inspects_orMishap {α : Type} (a : Except Mishap α) : Inspects (Value.orMishap a) := by
  cases a with
  | error m => exact inspects_mishap m
  | ok a => exact inspects_pure a

lemma steady_orMishap {α : Type} (a : Except Mishap α) : Steady (Value.orMishap a) :=
  (inspects_orMishap a).steady

lemma basic_store (v k new : Value) : Basic (store v k new) where
  moves R _ := fun w => by
    have hite : ∀ {c : Prop} [Decidable c] {x y : Act Unit}, R w (x w).world → R w (y w).world →
        R w ((if c then x else y) w).world := by
      intro c _ x y hx hy
      split
      · exact hx
      · exact hy
    simp only [store, bind, Act.bind, Act.world]
    split
    · exact hite (IsMove.frame rfl rfl) (IsMove.refl w)
    · rcases k.whole? with _ | i
      · exact IsMove.refl w
      · exact hite (IsMove.refl w) (IsMove.frame rfl rfl)
    · exact IsMove.refl w
  agree := agree_world_bind fun w w' hw => by
    have hset : ∀ h, (Act.setWorld { w with heap := h } w).Agrees
        (Act.setWorld { w' with heap := h } w') :=
      fun h => ⟨rfl, ⟨hw.length, hw.find?, rfl, hw.bindings, hw.serial, hw.host⟩, rfl⟩
    have hstop : ∀ m : Mishap, ((Act.mishap m : Act Unit) w).Agrees (Act.mishap m w') :=
      fun m => ⟨rfl, hw, rfl⟩
    have hite : ∀ {c : Prop} [Decidable c] {x y x' y' : Act Unit}, (x w).Agrees (x' w') →
        (y w).Agrees (y' w') →
          ((if c then x else y) w).Agrees ((if c then x' else y') w') := by
      intro c _ x y x' y' hx hy
      split
      · exact hx
      · exact hy
    rw [← hw.heap]
    split
    · exact hite (hset _) (hstop _)
    · rcases k.whole? with _ | i
      · exact hstop _
      · exact hite (hstop _) (hset _)
    · exact hstop _

lemma basic_add (a b : Value) : Basic (add a b) := by
  simp only [add]
  split
  · exact (steady_pure _).basic
  · exact (steady_pure _).basic
  · exact (steady_pure _).basic
  · exact basic_bind steady_heap.basic fun _ => basic_newList _
  · exact (steady_orMishap _).basic

lemma basic_timesOver (n : Int) (v : Value) : Basic (timesOver n v) := by
  simp only [timesOver]
  split
  · exact (steady_pure _).basic
  · exact (steady_pure _).basic
  · exact (steady_pure _).basic
  · exact basic_bind steady_heap.basic fun _ => basic_newList _
  · exact (steady_mishap _).basic

lemma basic_repeated (number v : Value) : Basic (mul.repeated number v) := by
  rw [mul.repeated]
  split
  · split
    · exact (steady_mishap _).basic
    · split
      · exact (steady_mishap _).basic
      · exact basic_timesOver _ _
  · exact (steady_mishap _).basic

lemma basic_mul (a b : Value) : Basic (mul a b) := by
  rw [mul]
  split
  · exact (steady_orMishap _).basic
  · exact basic_repeated _ _
  · exact basic_repeated _ _
  · exact (steady_mishap _).basic

lemma steady_mod (a b : Value) : Steady (mod a b) := by
  simp only [mod]
  split
  · exact steady_bind steady_heap fun _ => steady_bind (steady_orMishap _) fun _ => steady_pure _
  · exact steady_bind (steady_orMishap _) fun _ => steady_pure _
  · exact steady_orMishap _

end Value

lemma Operator.basic_apply (op : Operator) (a b : Value) : Basic (op.apply a b) := by
  cases op with
  | add => exact Value.basic_add a b
  | mul => exact Value.basic_mul a b
  | mod => exact (Value.steady_mod a b).basic
  | lt =>
    exact (steady_bind steady_heap fun _ => steady_bind (Value.steady_orMishap _) fun _ =>
      steady_pure _).basic
  | le =>
    exact (steady_bind steady_heap fun _ => steady_bind (Value.steady_orMishap _) fun _ =>
      steady_pure _).basic
  | eq => exact (steady_bind steady_heap fun _ => steady_pure _).basic
  | item => exact (steady_bind steady_heap fun _ => Value.steady_orMishap _).basic

lemma steady_requireHashable (vs : List Value) : Steady (requireHashable vs) := by
  rw [requireHashable]
  split
  · exact steady_pure _
  · exact steady_mishap _

/-! ### Written values and bodies -/

/-- Every call moves a world along `R`. -/
def Invoke.Moves (R : World → World → Prop) (invoke : Invoke) : Prop :=
  ∀ v args kw, Act.Moves R (invoke v args kw)

/-- Two ways to call agree along `S`. -/
def Invoke.Related (S : ∀ ⦃α : Type⦄, Act α → Act α → Prop) (i j : Invoke) : Prop :=
  ∀ v args kw, S (i v args kw) (j v args kw)

section bodies

variable {S : ∀ ⦃α : Type⦄, Act α → Act α → Prop} [Congruence S] {i j : Invoke}

mutual

lemma Datum.congr_make (h : Invoke.Related S i j) (d : Datum) : S (d.make i) (d.make j) := by
  cases d with
  | scalar s => exact (steady_pure _).congr
  | list items => exact congr_bind (Datum.congr_makeAll h items) fun _ => (basic_newList _).congr
  | tuple items => exact congr_bind (Datum.congr_makeAll h items) fun _ => (steady_pure _).congr
  | set items =>
    exact congr_bind (Datum.congr_makeAll h items) fun _ =>
      congr_bind (steady_requireHashable _).congr fun _ => (steady_pure _).congr
  | dict entries =>
    exact congr_bind (Datum.congr_makeEntries h entries) fun _ =>
      congr_bind (steady_requireHashable _).congr fun _ => (basic_newDict _).congr
  | object label => exact congr_bind basic_fresh.congr fun _ => (steady_pure _).congr
  | descriptor name label arguments optional =>
    simp only [Datum.make]
    split
    · exact (steady_pure _).congr
    · exact (steady_refuse _).congr
  | function form spec =>
    exact congr_bind (FunctionSpec.congr_close h form [] spec) fun _ => (steady_pure _).congr
  | method receiver spec =>
    exact congr_bind (Datum.congr_make h receiver) fun _ =>
      congr_bind (FunctionSpec.congr_close h .function [] spec) fun _ => (steady_pure _).congr
  | kind name parameters =>
    exact congr_bind (Expr.congr_defaults h [] parameters) fun _ =>
      congr_bind basic_fresh.congr fun _ => (steady_pure _).congr
  | intrinsic b => exact (steady_pure _).congr
  | «variable» name => exact (steady_bindings_bind fun _ => Act.steady_orMishap _ _).congr

lemma Datum.congr_makeAll (h : Invoke.Related S i j) (ds : List Datum) :
    S (Datum.makeAll i ds) (Datum.makeAll j ds) := by
  cases ds with
  | nil => exact (steady_pure _).congr
  | cons d ds =>
    exact congr_bind (Datum.congr_make h d) fun _ =>
      congr_bind (Datum.congr_makeAll h ds) fun _ => (steady_pure _).congr

lemma Datum.congr_makeEntries (h : Invoke.Related S i j) (es : List (Datum × Datum)) :
    S (Datum.makeEntries i es) (Datum.makeEntries j es) := by
  cases es with
  | nil => exact (steady_pure _).congr
  | cons e es =>
    obtain ⟨d, e⟩ := e
    exact congr_bind (Datum.congr_make h d) fun _ =>
      congr_bind (Datum.congr_make h e) fun _ =>
        congr_bind (Datum.congr_makeEntries h es) fun _ => (steady_pure _).congr

lemma FunctionSpec.congr_close (h : Invoke.Related S i j) (form : FunctionForm) (scope : Scope)
    (f : FunctionSpec) : S (f.close i form scope) (f.close j form scope) := by
  obtain ⟨name, parameters, body⟩ := f
  exact congr_bind (Expr.congr_defaults h scope parameters) fun _ =>
    congr_bind basic_fresh.congr fun _ => (steady_pure _).congr

lemma Expr.congr_defaults (h : Invoke.Related S i j) (scope : Scope) (ps : List (Parameter Expr)) :
    S (Expr.defaults i scope ps) (Expr.defaults j scope ps) := by
  cases ps with
  | nil => exact (steady_pure _).congr
  | cons p ps =>
    obtain ⟨name, kind, default?⟩ := p
    cases default? with
    | none => exact congr_bind (Expr.congr_defaults h scope ps) fun _ => (steady_pure _).congr
    | some e =>
      exact congr_bind (Expr.congr_eval h scope e) fun _ =>
        congr_bind (Expr.congr_defaults h scope ps) fun _ => (steady_pure _).congr

lemma Expr.congr_eval (h : Invoke.Related S i j) (scope : Scope) (e : Expr) :
    S (e.eval i scope) (e.eval j scope) := by
  cases e with
  | literal d => exact Datum.congr_make h d
  | «variable» name => exact (Act.steady_orMishap _ _).congr
  | closure spec =>
    exact congr_bind (FunctionSpec.congr_close h .function scope spec) fun _ =>
      (steady_pure _).congr
  | branch condition yes no =>
    refine congr_bind (Expr.congr_eval h scope condition) fun c =>
      congr_bind steady_heap.congr fun _ => ?_
    split
    · exact Expr.congr_eval h scope yes
    · exact Expr.congr_eval h scope no
  | raise m => exact (steady_mishap _).congr
  | «attribute» e name =>
    exact congr_bind (Expr.congr_eval h scope e) fun _ => (Act.steady_orMishap _ _).congr
  | list items =>
    exact congr_bind (Expr.congr_evalAll h scope items) fun _ => (basic_newList _).congr
  | trace noted result =>
    exact congr_bind (Expr.congr_eval h scope noted) fun _ =>
      congr_bind (Expr.congr_eval h scope result) fun _ => congr_bind steady_heap.congr fun _ =>
        congr_bind (steady_emit _).congr fun _ => (steady_pure _).congr
  | call f arguments =>
    exact congr_bind (Expr.congr_eval h scope f) fun _ =>
      congr_bind (Expr.congr_evalAll h scope arguments) fun _ => h _ _ _
  | store container key value =>
    exact congr_bind (Expr.congr_eval h scope container) fun _ =>
      congr_bind (Expr.congr_eval h scope key) fun _ =>
        congr_bind (Expr.congr_eval h scope value) fun _ =>
          congr_bind (Value.basic_store _ _ _).congr fun _ =>
            (steady_pure _).congr
  | typeName e => exact congr_bind (Expr.congr_eval h scope e) fun _ => (steady_pure _).congr
  | not e =>
    exact congr_bind (Expr.congr_eval h scope e) fun _ => congr_bind steady_heap.congr fun _ =>
      (steady_pure _).congr
  | length e =>
    exact congr_bind (Expr.congr_eval h scope e) fun _ => congr_bind steady_heap.congr fun _ =>
      congr_bind (Act.steady_orMishap _ _).congr fun _ => (steady_pure _).congr
  | binary op a b =>
    exact congr_bind (Expr.congr_eval h scope a) fun _ =>
      congr_bind (Expr.congr_eval h scope b) fun _ =>
        (Operator.basic_apply op _ _).congr

lemma Expr.congr_evalAll (h : Invoke.Related S i j) (scope : Scope) (es : List Expr) :
    S (Expr.evalAll i scope es) (Expr.evalAll j scope es) := by
  cases es with
  | nil => exact (steady_pure _).congr
  | cons e es =>
    exact congr_bind (Expr.congr_eval h scope e) fun _ =>
      congr_bind (Expr.congr_evalAll h scope es) fun _ => (steady_pure _).congr

end

end bodies

/-! ### Calls of closures -/

lemma Slot.basic_value (default? : Option Value) (s : Slot Value) :
    Basic (s.value default?) := by
  cases s with
  | given v => exact (steady_pure _).basic
  | omitted => exact (Act.steady_orMishap _ _).basic
  | rest vs => exact (steady_pure _).basic
  | named kvs => exact basic_newDict _

lemma Call.basic_values (ps : List (Parameter Value)) (args : List Value)
    (kw : Call.Keywords Value) : Basic (Call.values ps args kw) :=
  basic_bind (Act.steady_orMishap _ _).basic fun _ => basic_each (fun _ => Slot.basic_value _ _) _

lemma Closure.congr_run {S : ∀ ⦃α : Type⦄, Act α → Act α → Prop} [Congruence S] {i j : Invoke}
    (h : Invoke.Related S i j) (c : Closure) (args : List Value) (kw : Call.Keywords Value) :
    S (c.run i args kw) (c.run j args kw) :=
  congr_bind (Call.basic_values _ _ _).congr fun _ => Expr.congr_eval h _ _

lemma Intrinsic.steady_answer (b : Intrinsic) (args : List Value) : Steady (b.answer args) := by
  refine steady_bind steady_heap fun h => ?_
  split
  · exact steady_bind (Act.steady_orMishap _ _) fun _ => steady_pure _
  · exact steady_pure _
  · exact steady_pure _
  · exact steady_pure _
  · exact steady_pure _
  · exact steady_bind (Value.steady_orMishap _) fun _ => steady_pure _
  · exact steady_bind (Act.steady_orMishap _ _) fun _ => Value.steady_orMishap _
  · exact Value.steady_orMishap _
  · exact steady_bind (Value.steady_orMishap _) fun _ => steady_pure _
  · exact steady_mishap _

end CallContracts
