import EmbeddedDrivers.Gpio
import Mathlib.Algebra.Group.Nat.Defs
import Mathlib.Data.Fintype.Basic

/-!
# The two button drivers

`btn_irq_led.c` of the BeagleBone and `btn_irq.c` of the Raspberry Pi: a button
with an interrupt, and LEDs that show how often it was pressed. The first has
four LEDs and counts modulo sixteen, the second has one and flips it.

The handler works on a static variable of the module, `irq_cnt` or `led_stat`,
that no other function touches; the probe and the remove touch the lines only.
So a driver is here its handler, its probe and its remove, as functions of what
they read, together with what is true of all three (`Driver`). Both drivers are
of this kind, and flipping is counting modulo two.
-/

namespace Button

open Gpio

/-- **What a probe meets with**: which of the LED lookups fail and how, the
lookup of the button, the result of `platform_get_irq`, and that of
`devm_request_threaded_irq`. -/
structure ProbeEnv (n : ℕ) where
  led : Fin n → Option Errno
  btn : Option Errno
  irq : ℤ
  request : ℤ

/-! ## `btn_irq_led.c` -/

namespace BtnIrqLed

/-- `button_irq_thread`: the counter afterwards and the lines it sets. -/
def buttonIrqThread (irqCnt : BitVec 32) : BitVec 32 × Writes 4 :=
  let irqCnt := (irqCnt + 1).srem 16
  (irqCnt, [(0, irqCnt &&& 0b0001 != 0), (1, irqCnt &&& 0b0010 != 0),
    (2, irqCnt &&& 0b0100 != 0), (3, irqCnt &&& 0b1000 != 0)])

/-- `btn_led_probe`: the value returned and the levels. -/
def btnLedProbe (env : ProbeEnv 4) (pins : Levels 4) : ℤ × Levels 4 :=
  match getLeds env.led (List.finRange 4) pins with
  | (pins, some e) => (e, pins)
  | (pins, none) =>
    match env.btn with
    | some e => (e, pins)
    | none =>
      if env.irq < 0 then (env.irq, pins)
      else if env.request ≠ 0 then (env.request, pins)
      else (0, pins)

/-- `btn_led_remove`: the lines it sets. -/
def btnLedRemove : Writes 4 := turnOff 4

end BtnIrqLed

/-! ## `btn_irq.c` -/

namespace BtnIrq

/-- `button_irq_thread`: `led_stat` afterwards and the line it sets. -/
def buttonIrqThread (ledStat : BitVec 32) : BitVec 32 × Writes 1 :=
  let ledStat := ledStat ^^^ 1
  (ledStat, [(0, ledStat != 0)])

/-- `btn_led_probe`. The LED, the button and the interrupt are all asked for
before the first of them is checked, so the LED is driven low even where the
probe then fails for one of the others. -/
def btnLedProbe (env : ProbeEnv 1) (pins : Levels 1) : ℤ × Levels 1 :=
  let led := getLeds env.led [0] pins
  match led.2 with
  | some e => (e, led.1)
  | none =>
    match env.btn with
    | some e => (e, led.1)
    | none =>
      if env.irq < 0 then (env.irq, led.1)
      else if env.request ≠ 0 then (env.request, led.1)
      else (0, led.1)

/-- `btn_led_remove`: the line it sets. -/
def btnLedRemove : Writes 1 := [(0, false)]

end BtnIrq

/-! ## What they have in common -/

/-- The binary digits of a number, LED `i` for bit `i`. -/
def digits (n k : ℕ) : Levels n := fun i => k.testBit i

/-- The digits tell the numbers apart that fit. -/
theorem digits_injective {n k m : ℕ} (hk : k < 2 ^ n) (hm : m < 2 ^ n)
    (h : digits n k = digits n m) : k = m := by
  refine Nat.eq_of_testBit_eq (fun i => ?_)
  by_cases hi : i < n
  · exact congrFun h ⟨i, hi⟩
  · have hle : 2 ^ n ≤ 2 ^ i := Nat.pow_le_pow_right (by omega) (by omega)
    rw [Nat.testBit_lt_two_pow (hk.trans_le hle), Nat.testBit_lt_two_pow (hm.trans_le hle)]

/-- **A button driver** with `n` LEDs: its handler, its probe and its remove.
The handler counts modulo `2 ^ n` and shows the digits, LED by LED; a probe
lights nothing, and one that succeeds leaves all LEDs off, as the remove
does. -/
structure Driver (n : ℕ) where
  buttonIrqThread : BitVec 32 → BitVec 32 × Writes n
  btnLedProbe : ProbeEnv n → Levels n → ℤ × Levels n
  btnLedRemove : Writes n
  counts : ∀ cnt, cnt.toNat < 2 ^ n →
    (buttonIrqThread cnt).1.toNat = (cnt.toNat + 1) % 2 ^ n
  shows : ∀ cnt, cnt.toNat < 2 ^ n →
    (buttonIrqThread cnt).2
      = (List.finRange n).map fun i => (i, digits n (buttonIrqThread cnt).1.toNat i)
  dark_probe : ∀ env pins, Dark pins → Dark (btnLedProbe env pins).2
  dark_bound : ∀ env pins, (btnLedProbe env pins).1 = 0 → Dark (btnLedProbe env pins).2
  remove_eq : btnLedRemove = turnOff n

/-- A property of the words below a bound, by looking at each. -/
theorem forall_word_lt {P : BitVec 32 → Prop} {m : ℕ} (h : ∀ k < m, P (BitVec.ofNat 32 k))
    (cnt : BitVec 32) (hcnt : cnt.toNat < m) : P cnt := by
  have hk := h cnt.toNat hcnt
  rwa [BitVec.ofNat_toNat, BitVec.setWidth_eq] at hk

/-- An error code is not zero. -/
theorem Errno.ne_zero (e : Errno) : e.1 ≠ 0 := by
  have := e.2.2
  omega

/-! ## The BeagleBone's is one -/

namespace BtnIrqLed

/-- The levels a probe leaves are those its lookups leave. -/
theorem probe_pins (env : ProbeEnv 4) (pins : Levels 4) :
    (btnLedProbe env pins).2 = (getLeds env.led (List.finRange 4) pins).1 := by
  unfold btnLedProbe
  obtain ⟨pins', err⟩ := getLeds env.led (List.finRange 4) pins
  cases err with
  | some e => rfl
  | none =>
    cases env.btn with
    | some e => rfl
    | none =>
      dsimp only
      split_ifs <;> rfl

/-- A probe that succeeds has got all its lines. -/
theorem probe_lines {env : ProbeEnv 4} {pins : Levels 4} (h : (btnLedProbe env pins).1 = 0) :
    (getLeds env.led (List.finRange 4) pins).2 = none := by
  unfold btnLedProbe at h
  generalize getLeds env.led (List.finRange 4) pins = got at h ⊢
  obtain ⟨pins', err⟩ := got
  cases err with
  | some e => exact absurd h (Errno.ne_zero e)
  | none => rfl

/-- **The BeagleBone's driver.** -/
def driver : Driver 4 where
  buttonIrqThread := buttonIrqThread
  btnLedProbe := btnLedProbe
  btnLedRemove := btnLedRemove
  counts := forall_word_lt (by decide)
  shows := forall_word_lt (by decide)
  dark_probe env pins h := by
    rw [probe_pins]
    exact dark_getLeds env.led (List.finRange 4) h
  dark_bound env pins h := by
    rw [probe_pins]
    exact dark_of_getLeds (probe_lines h)
  remove_eq := rfl

end BtnIrqLed

/-! ## The Raspberry Pi's is one -/

namespace BtnIrq

/-- The levels a probe leaves are those its lookup leaves. -/
theorem probe_pins (env : ProbeEnv 1) (pins : Levels 1) :
    (btnLedProbe env pins).2 = (getLeds env.led (List.finRange 1) pins).1 := by
  show (btnLedProbe env pins).2 = (getLeds env.led [0] pins).1
  unfold btnLedProbe
  dsimp only
  cases (getLeds env.led [0] pins).2 with
  | some e => rfl
  | none =>
    cases env.btn with
    | some e => rfl
    | none =>
      dsimp only
      split_ifs <;> rfl

/-- A probe that succeeds has got its line. -/
theorem probe_lines {env : ProbeEnv 1} {pins : Levels 1} (h : (btnLedProbe env pins).1 = 0) :
    (getLeds env.led (List.finRange 1) pins).2 = none := by
  show (getLeds env.led [0] pins).2 = none
  unfold btnLedProbe at h
  dsimp only at h
  cases hled : (getLeds env.led [0] pins).2 with
  | some e =>
    rw [hled] at h
    exact absurd h (Errno.ne_zero e)
  | none => rfl

/-- **The Raspberry Pi's driver.** -/
def driver : Driver 1 where
  buttonIrqThread := buttonIrqThread
  btnLedProbe := btnLedProbe
  btnLedRemove := btnLedRemove
  counts := forall_word_lt (by decide)
  shows := forall_word_lt (by decide)
  dark_probe env pins h := by
    rw [probe_pins]
    exact dark_getLeds env.led (List.finRange 1) h
  dark_bound env pins h := by
    rw [probe_pins]
    exact dark_of_getLeds (probe_lines h)
  remove_eq := rfl

end BtnIrq

/-! ## The two of them -/

/-- The boards with a button. -/
inductive Board
  | beagleBone
  | raspberryPi

/-- How many LEDs its driver has. -/
def Board.leds : Board → ℕ
  | .beagleBone => 4
  | .raspberryPi => 1

/-- Its driver. -/
def Board.driver : (b : Board) → Driver b.leds
  | .beagleBone => BtnIrqLed.driver
  | .raspberryPi => BtnIrq.driver

end Button
