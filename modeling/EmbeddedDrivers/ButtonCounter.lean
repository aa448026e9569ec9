import EmbeddedDrivers.ButtonDriver
import EmbeddedDrivers.Transition
import Mathlib.Data.Nat.ModEq

/-!
# Counting presses

What the LEDs of a button driver show, over its bindings and unbindings. They
are meant to count the presses of the binding: the probe turns them off, and
from there on each press adds one.

The counter behind the LEDs is a variable of the module. It is zero when the
module is loaded and outlives every binding; the probe clears the LEDs and not
the counter. After a new binding the LEDs are off whatever the counter is, and
the first press shows the counter of all presses ever.

`counter_shown_iff` says when the display is right. The presses handled before
the binding must be a multiple of what the LEDs can count, sixteen on the
BeagleBone and two on the Raspberry Pi, in each binding that sees a press. A
first binding has none before it.
-/

namespace Button

open Gpio

variable {n : ℕ}

/-! ## The system -/

/-- **A button driver and its device**: the module's counter, the levels of the
LEDs and whether the device is bound. Beside them, the presses handled until
the last successful probe and since then. -/
structure Counting (n : ℕ) where
  cnt : BitVec 32
  pins : Levels n
  bound : Bool
  before : ℕ
  since : ℕ

/-- What can happen to it. -/
inductive Event (n : ℕ)
  | probe (env : ProbeEnv n)
  | press
  | remove

/-- The module just loaded. -/
def Counting.initial (pins : Levels n) : Counting n := ⟨0, pins, false, 0, 0⟩

variable (d : Driver n)

/-- **One step.** The kernel binds the device when the probe returns zero; the
interrupt is there as long as the device is bound. -/
def step (s : Counting n) : Event n → Option (Counting n)
  | .probe env =>
    if s.bound then none
    else
      let r := d.btnLedProbe env s.pins
      if r.1 = 0 then
        some { s with pins := r.2, bound := true, before := s.before + s.since, since := 0 }
      else some { s with pins := r.2 }
  | .press =>
    if s.bound then
      let r := d.buttonIrqThread s.cnt
      some { s with cnt := r.1, pins := setValues s.pins r.2, since := s.since + 1 }
    else none
  | .remove =>
    if s.bound then some { s with pins := setValues s.pins d.btnLedRemove, bound := false }
    else none

/-- **The display is right**: while the device is bound its LEDs show the
presses since the last successful probe, as far as they can count. -/
def Counting.Shown (s : Counting n) : Prop :=
  s.bound = true → s.pins = digits n (s.since % 2 ^ n)

/-- The condition: a press finds a multiple of `2 ^ n` presses before the
binding. -/
def Aligned (s : Counting n) : Event n → Prop
  | .press => 2 ^ n ∣ s.before
  | _ => True

instance (s : Counting n) : ∀ e, Decidable (Aligned s e)
  | .press => inferInstanceAs (Decidable (2 ^ n ∣ s.before))
  | .probe _ | .remove => isTrue trivial

/-- The counter is that of all presses. -/
def Counting.Counts (s : Counting n) : Prop := s.cnt.toNat = (s.before + s.since) % 2 ^ n

/-! ## What a step does -/

variable {d}

/-- **The moves of the system.** -/
inductive Move (d : Driver n) (s : Counting n) : Event n → Counting n → Prop
  | fails (env : ProbeEnv n) (hidle : s.bound = false) (hret : (d.btnLedProbe env s.pins).1 ≠ 0) :
      Move d s (.probe env) { s with pins := (d.btnLedProbe env s.pins).2 }
  | binds (env : ProbeEnv n) (hidle : s.bound = false)
      (hret : (d.btnLedProbe env s.pins).1 = 0) :
      Move d s (.probe env)
        { s with
          pins := (d.btnLedProbe env s.pins).2
          bound := true
          before := s.before + s.since
          since := 0 }
  | presses (hbound : s.bound = true) :
      Move d s .press
        { s with
          cnt := (d.buttonIrqThread s.cnt).1
          pins := setValues s.pins (d.buttonIrqThread s.cnt).2
          since := s.since + 1 }
  | removes (hbound : s.bound = true) :
      Move d s .remove { s with pins := setValues s.pins d.btnLedRemove, bound := false }

/-- **Every step is one of them.** -/
theorem move_of_step {s s' : Counting n} {e : Event n} (h : step d s e = some s') :
    Move d s e s' := by
  cases hbound : s.bound with
  | false =>
    have hidle : ¬ s.bound = true := by rw [hbound]; exact Bool.false_ne_true
    cases e with
    | probe env =>
      rw [step, if_neg hidle] at h
      dsimp only at h
      split at h
      · rename_i hret
        exact Option.some.inj h ▸ Move.binds env hbound hret
      · rename_i hret
        exact Option.some.inj h ▸ Move.fails env hbound hret
    | press => simp [step, hidle] at h
    | remove => simp [step, hidle] at h
  | true =>
    cases e with
    | probe env => simp [step, hbound] at h
    | press =>
      rw [step, if_pos hbound] at h
      exact Option.some.inj h ▸ Move.presses hbound
    | remove =>
      rw [step, if_pos hbound] at h
      exact Option.some.inj h ▸ Move.removes hbound

/-! ## The counter -/

theorem Counting.Counts.lt {s : Counting n} (h : s.Counts) : s.cnt.toNat < 2 ^ n :=
  h ▸ Nat.mod_lt _ (Nat.two_pow_pos n)

/-- **Every step keeps the counter the one of all presses.** -/
theorem counts_step (s : Counting n) (e : Event n) (s' : Counting n) (h : s.Counts)
    (hstep : step d s e = some s') : s'.Counts := by
  cases move_of_step hstep with
  | fails | removes => exact h
  | binds => exact h
  | presses =>
    show (d.buttonIrqThread s.cnt).1.toNat = (s.before + s.since + 1) % 2 ^ n
    rw [d.counts s.cnt h.lt, show s.cnt.toNat = _ from h, Nat.mod_add_mod]

theorem counts_initial (pins : Levels n) : (Counting.initial pins).Counts :=
  (Nat.zero_mod (2 ^ n)).symm

/-- **A press shows the counter.** -/
theorem pins_of_press {s : Counting n} (h : s.Counts) :
    setValues s.pins (d.buttonIrqThread s.cnt).2
      = digits n ((s.before + (s.since + 1)) % 2 ^ n) := by
  rw [d.shows s.cnt h.lt, setValues_finRange, d.counts s.cnt h.lt, show s.cnt.toNat = _ from h,
    Nat.mod_add_mod, Nat.add_assoc]

/-- It shows the presses of the binding where those before it do not count. -/
theorem pins_of_press_iff {s : Counting n} (h : s.Counts) :
    setValues s.pins (d.buttonIrqThread s.cnt).2 = digits n ((s.since + 1) % 2 ^ n)
      ↔ 2 ^ n ∣ s.before := by
  have hpos := Nat.two_pow_pos n
  rw [pins_of_press h, ← Nat.add_modEq_right_iff]
  exact ⟨digits_injective (Nat.mod_lt _ hpos) (Nat.mod_lt _ hpos), fun heq => by rw [heq]⟩

/-! ## The display -/

/-- The invariant of the display. -/
structure Displays (s : Counting n) : Prop where
  counts : s.Counts
  shown : s.Shown

theorem displays_initial (pins : Levels n) : Displays (Counting.initial pins) :=
  ⟨counts_initial pins, fun h => absurd h Bool.false_ne_true⟩

/-- **A step keeps the display right that meets the condition.** -/
theorem displays_step (s : Counting n) (e : Event n) (s' : Counting n) (h : Displays s)
    (he : Aligned s e) (hstep : step d s e = some s') : Displays s' := by
  refine ⟨counts_step s e s' h.counts hstep, ?_⟩
  cases move_of_step hstep with
  | fails env hidle => exact fun hbound => absurd (hidle.symm.trans hbound) Bool.false_ne_true
  | binds env hidle hret =>
    -- a new binding begins at zero, with all LEDs off
    intro _
    funext i
    show (d.btnLedProbe env s.pins).2 i = (0 % 2 ^ n).testBit i
    rw [d.dark_bound env s.pins hret i, Nat.zero_mod, Nat.zero_testBit]
  | presses => exact fun _ => (pins_of_press_iff h.counts).mpr he
  | removes => exact fun hbound => absurd hbound Bool.false_ne_true

/-- **A step that does not meet it leaves it wrong.** -/
theorem not_shown_step (s : Counting n) (e : Event n) (s' : Counting n) (h : Displays s)
    (he : ¬ Aligned s e) (hstep : step d s e = some s') : ¬ s'.Shown := by
  cases move_of_step hstep with
  | fails | binds | removes => exact absurd trivial he
  | presses hbound => exact fun hshown => he ((pins_of_press_iff h.counts).mp (hshown hbound))

/-- A board's counter fits an `int`. -/
theorem Board.leds_lt (b : Board) : b.leds < 31 := by
  cases b <;> decide

/-- **When the LEDs count the presses.** Over every run of either board – any
probes with any results, any presses while the device is bound, any unbindings
– the LEDs of a bound device show the presses since its last successful probe
in every state, modulo sixteen and modulo two, exactly when each press finds a
multiple of that many presses before the binding. The counter stays in its
range in every state of any run. -/
theorem counter_shown_iff (b : Board) (pins : Levels b.leds) (es : List (Event b.leds))
    (u : Counting b.leds)
    (hrun : Transition.run (step b.driver) (Counting.initial pins) es = some u) :
    ((∀ s, Transition.Reached (step b.driver) (Counting.initial pins) es s → s.Shown)
        ↔ Transition.AllOk (step b.driver) Aligned (Counting.initial pins) es)
      ∧ ∀ s, Transition.Reached (step b.driver) (Counting.initial pins) es s →
          0 ≤ s.cnt.toInt ∧ s.cnt.toInt < 2 ^ b.leds := by
  refine ⟨(Transition.allOk_iff_forall_reached displays_step (fun _ h => h.shown) not_shown_step
    (displays_initial pins) hrun).symm, fun s hr => ?_⟩
  have hcounts : s.Counts :=
    Transition.invariant counts_step (counts_initial pins) hr
  have hlt := hcounts.lt
  have hfit : 2 * 2 ^ b.leds < 2 ^ 32 := by
    rw [← pow_succ']
    exact Nat.pow_lt_pow_right (by omega) (by have := b.leds_lt; omega)
  rw [BitVec.toInt_eq_toNat_of_lt (by omega)]
  exact ⟨by omega, by exact_mod_cast hlt⟩

/-- A probe that gets all it asks for. -/
def goodProbe (n : ℕ) : ProbeEnv n := ⟨fun _ => none, none, 1, 0⟩

/-- Two presses, and one more in a new binding. -/
def rebindRun (n : ℕ) : List (Event n) :=
  [.probe (goodProbe n), .press, .press, .remove, .probe (goodProbe n), .press]

theorem counter_shown_iff_rebind :
    ∃ s, Transition.run (step Board.raspberryPi.driver) (Counting.initial fun _ => true)
        (rebindRun _) = some s ∧ s.Shown :=
  ⟨_, rfl, (counter_shown_iff .raspberryPi (fun _ => true) (rebindRun _) _ rfl).1.mpr
    (by decide) _ ⟨_, List.prefix_rfl, rfl⟩⟩

/-- The display is right in every state of every run of a board. -/
def Board.CountsPresses (b : Board) : Prop :=
  ∀ (pins : Levels b.leds) (es : List (Event b.leds)) (s : Counting b.leds),
    Transition.Reached (step b.driver) (Counting.initial pins) es s → s.Shown

/-- **Not over every run**, of neither board: a press before the binding is
counted with the one after it. -/
theorem not_countsPresses :
    ¬ Board.beagleBone.CountsPresses ∧ ¬ Board.raspberryPi.CountsPresses := by
  constructor
  · intro h
    have hshown := h (fun _ => false) [.probe (goodProbe 4), .press, .remove,
      .probe (goodProbe 4), .press] _ ⟨_, List.prefix_rfl, rfl⟩ rfl
    exact absurd (congrFun hshown (0 : Fin 4)) (by decide)
  · intro h
    have hshown := h (fun _ => false) [.probe (goodProbe 1), .press, .remove,
      .probe (goodProbe 1), .press] _ ⟨_, List.prefix_rfl, rfl⟩ rfl
    exact absurd (congrFun hshown (0 : Fin 1)) (by decide)

end Button
