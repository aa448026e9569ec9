import Mathlib.Data.List.Basic
import Mathlib.Logic.Function.Basic
import Mathlib.Tactic.Common

/-!
# A strobed bus

A sender drives a handful of lines and pulses one of them, the strobe; a
receiver looks at the lines at each falling edge of the strobe and at no other
time. What the sender does is a list of events, each setting one line to a
level, and what the receiver sees of it is the list of levels it samples.

The two readings are kept apart: `settle` is where the lines end up and
`samples` is what was seen on the way, and both distribute over
concatenation (`settle_append`, `samples_append`). The unit of sending is a
*burst* – data lines set while the strobe is low, then one pulse – and
`samples_burst` says a burst is seen as exactly one sample, of the levels it
set.

A receiver may only be trusted if nothing moves under it: `Steady` says that
no line but the strobe is touched while the strobe is high.
-/

namespace Strobe

variable {L : Type} [DecidableEq L]

/-- The levels of the lines. -/
abbrev Levels (L : Type) := L → Bool

/-- **An event on the bus**: a line is set to a level. -/
structure Event (L : Type) where
  /-- The line that is set. -/
  line : L
  /-- The level it is set to. -/
  level : Bool
  deriving DecidableEq

/-- The levels after one event. -/
def apply (lv : Levels L) (e : Event L) : Levels L := Function.update lv e.line e.level

/-- The levels after a list of events. -/
def settle (lv : Levels L) (es : List (Event L)) : Levels L := es.foldl apply lv

/-- Whether an event makes the strobe fall. -/
def falls (clk : L) (lv : Levels L) (e : Event L) : Bool :=
  decide (e.line = clk) && lv clk && !e.level

/-- **What the receiver sees**: the levels at each falling edge of the
strobe. -/
def samples (clk : L) : Levels L → List (Event L) → List (Levels L)
  | _, [] => []
  | lv, e :: es =>
    if falls clk lv e then lv :: samples clk (apply lv e) es
    else samples clk (apply lv e) es

/-- **Nothing moves under the receiver**: every event that finds the strobe
high is one of the strobe itself. -/
def Steady (clk : L) : Levels L → List (Event L) → Prop
  | _, [] => True
  | lv, e :: es => (lv clk = true → e.line = clk) ∧ Steady clk (apply lv e) es

@[simp] theorem settle_nil (lv : Levels L) : settle lv [] = lv := rfl

@[simp] theorem settle_cons (lv : Levels L) (e : Event L) (es : List (Event L)) :
    settle lv (e :: es) = settle (apply lv e) es := rfl

theorem settle_append (lv : Levels L) (es fs : List (Event L)) :
    settle lv (es ++ fs) = settle (settle lv es) fs := List.foldl_append

variable {clk : L}

theorem samples_cons_of_falls {lv : Levels L} {e : Event L}
    (h : falls clk lv e = true) (es : List (Event L)) :
    samples clk lv (e :: es) = lv :: samples clk (apply lv e) es := if_pos h

theorem samples_cons_of_not_falls {lv : Levels L} {e : Event L}
    (h : falls clk lv e = false) (es : List (Event L)) :
    samples clk lv (e :: es) = samples clk (apply lv e) es :=
  if_neg (by rw [h]; exact Bool.false_ne_true)

/-- **Sampling goes on where it stopped.** -/
theorem samples_append (lv : Levels L) (es fs : List (Event L)) :
    samples clk lv (es ++ fs) = samples clk lv es ++ samples clk (settle lv es) fs := by
  induction es generalizing lv with
  | nil => rfl
  | cons e es ih =>
    cases h : falls clk lv e with
    | true =>
      rw [List.cons_append, samples_cons_of_falls h, samples_cons_of_falls h, ih,
        settle_cons, List.cons_append]
    | false =>
      rw [List.cons_append, samples_cons_of_not_falls h,
        samples_cons_of_not_falls h, ih, settle_cons]

theorem steady_append (lv : Levels L) (es fs : List (Event L)) :
    Steady clk lv (es ++ fs) ↔ Steady clk lv es ∧ Steady clk (settle lv es) fs := by
  induction es generalizing lv with
  | nil => simp [Steady]
  | cons e es ih => rw [List.cons_append, Steady, Steady, ih, settle_cons, and_assoc]

/-- A steady list of events, read at one of them: where the strobe is high,
the event is the strobe's. -/
theorem Steady.line_eq {lv : Levels L} {es₁ es₂ : List (Event L)} {e : Event L}
    (h : Steady clk lv (es₁ ++ e :: es₂)) (hclk : settle lv es₁ clk = true) :
    e.line = clk := ((steady_append lv es₁ (e :: es₂)).mp h).2.1 hclk

/-! ## Data events -/

/-- Setting another line leaves a line as it is. -/
theorem apply_of_ne {lv : Levels L} {e : Event L} {l : L} (h : e.line ≠ l) :
    apply lv e l = lv l := Function.update_of_ne (Ne.symm h) _ _

/-- A line no event sets keeps its level. -/
theorem settle_of_forall_ne {lv : Levels L} {l : L} {es : List (Event L)}
    (h : ∀ e ∈ es, e.line ≠ l) : settle lv es l = lv l := by
  induction es generalizing lv with
  | nil => rfl
  | cons e es ih =>
    rw [settle_cons, ih (fun e' he' => h e' (List.mem_cons_of_mem e he')),
      apply_of_ne (h e List.mem_cons_self)]

/-- Nothing is sampled while the strobe is left alone. -/
theorem samples_of_forall_ne {lv : Levels L} {es : List (Event L)}
    (h : ∀ e ∈ es, e.line ≠ clk) : samples clk lv es = [] := by
  induction es generalizing lv with
  | nil => rfl
  | cons e es ih =>
    have hf : falls clk lv e = false := by
      rw [falls, decide_eq_false (h e List.mem_cons_self)]
      rfl
    rw [samples_cons_of_not_falls hf]
    exact ih (fun e' he' => h e' (List.mem_cons_of_mem e he'))

/-- With the strobe low, lowering lines makes no edge. -/
theorem samples_of_lowered {lv : Levels L} {es : List (Event L)} (hlow : lv clk = false)
    (h : ∀ e ∈ es, e.level = false) : samples clk lv es = [] ∧ settle lv es clk = false := by
  induction es generalizing lv with
  | nil => exact ⟨rfl, hlow⟩
  | cons e es ih =>
    have hf : falls clk lv e = false := by
      rw [falls, hlow, Bool.and_false, Bool.false_and]
    have hlow' : apply lv e clk = false := by
      by_cases hline : e.line = clk
      · rw [apply, hline, Function.update_self, h e List.mem_cons_self]
      · rw [apply_of_ne hline, hlow]
    rw [samples_cons_of_not_falls hf, settle_cons]
    exact ih hlow' (fun e' he' => h e' (List.mem_cons_of_mem e he'))

/-- With the strobe low, setting the other lines is steady. -/
theorem steady_of_forall_ne {lv : Levels L} {es : List (Event L)}
    (hlow : lv clk = false) (h : ∀ e ∈ es, e.line ≠ clk) : Steady clk lv es := by
  induction es generalizing lv with
  | nil => trivial
  | cons e es ih =>
    refine ⟨fun hhigh => absurd hhigh (by rw [hlow]; exact Bool.false_ne_true), ?_⟩
    refine ih ?_ (fun e' he' => h e' (List.mem_cons_of_mem e he'))
    rw [apply_of_ne (h e List.mem_cons_self), hlow]

/-! ## Bursts -/

/-- The strobe goes up and down again. -/
def pulse (clk : L) : List (Event L) := [⟨clk, true⟩, ⟨clk, false⟩]

/-- A pulse leaves the strobe low. -/
theorem settle_pulse_self (lv : Levels L) : settle lv (pulse clk) clk = false := by
  rw [pulse, settle_cons, settle_cons, settle_nil]
  exact Function.update_self _ _ _

/-- A pulse moves no other line. -/
theorem settle_pulse_of_ne (lv : Levels L) {l : L} (h : l ≠ clk) :
    settle lv (pulse clk) l = lv l :=
  settle_of_forall_ne (by
    intro e he
    rcases List.mem_pair.mp he with rfl | rfl
    · exact Ne.symm h
    · exact Ne.symm h)

/-- A pulse is seen as one sample, of the levels it finds with the strobe
up. -/
theorem samples_pulse {lv : Levels L} (hlow : lv clk = false) :
    samples clk lv (pulse clk) = [Function.update lv clk true] := by
  have hrise : falls clk lv ⟨clk, true⟩ = false := by
    rw [falls, hlow, Bool.and_false, Bool.false_and]
  have hfall : falls clk (apply lv ⟨clk, true⟩) ⟨clk, false⟩ = true := by
    have hup : apply lv ⟨clk, true⟩ clk = true := Function.update_self _ _ _
    rw [falls, decide_eq_true rfl, hup]
    rfl
  rw [pulse, samples_cons_of_not_falls hrise, samples_cons_of_falls hfall]
  rfl

theorem steady_pulse (lv : Levels L) : Steady clk lv (pulse clk) :=
  ⟨fun _ => rfl, fun _ => rfl, trivial⟩

/-- **A burst is one sample**: data lines set with the strobe low and then a
pulse are seen once, with the data the burst has set. -/
theorem samples_burst {lv : Levels L} {es : List (Event L)} (hlow : lv clk = false)
    (h : ∀ e ∈ es, e.line ≠ clk) :
    samples clk lv (es ++ pulse clk) = [Function.update (settle lv es) clk true] := by
  have hstill : settle lv es clk = false := (settle_of_forall_ne h).trans hlow
  rw [samples_append, samples_of_forall_ne h, List.nil_append, samples_pulse hstill]

/-- A burst is steady. -/
theorem steady_burst {lv : Levels L} {es : List (Event L)} (hlow : lv clk = false)
    (h : ∀ e ∈ es, e.line ≠ clk) : Steady clk lv (es ++ pulse clk) :=
  (steady_append lv es (pulse clk)).mpr ⟨steady_of_forall_ne hlow h, steady_pulse _⟩

/-- A burst leaves the strobe low. -/
theorem settle_burst_self (lv : Levels L) (es : List (Event L)) :
    settle lv (es ++ pulse clk) clk = false := by
  rw [settle_append, settle_pulse_self]

/-- A burst leaves the other lines as its data events set them. -/
theorem settle_burst_of_ne (lv : Levels L) (es : List (Event L)) {l : L} (h : l ≠ clk) :
    settle lv (es ++ pulse clk) l = settle lv es l := by
  rw [settle_append, settle_pulse_of_ne _ h]

end Strobe
