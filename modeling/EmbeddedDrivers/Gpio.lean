import EmbeddedDrivers.Stores
import Mathlib.Data.List.FinRange

/-!
# Output lines and error pointers

What the LED drivers see of the GPIO consumer interface. A driver owns a few
output lines, one for each LED; a line has a level, and `gpiod_set_value` puts
one there. Getting a line with `GPIOD_OUT_LOW` makes it an output and drives it
low, so that a lookup is a write as well; a lookup that fails gives an error
pointer and leaves its line alone.

Two loops over the lines are shared by the drivers: the one of the probes,
which gets the lines in turn until one of them fails (`getLeds`), and the one
of the removes, which turns all of them off (`turnOff`).
-/

namespace Gpio

/-- **An error code**, as an error pointer carries it. -/
abbrev Errno := {e : ℤ // -4095 ≤ e ∧ e < 0}

/-- The levels of the lines of a driver with `n` LEDs, on or off. -/
abbrev Levels (n : ℕ) := Fin n → Bool

/-- Calls of `gpiod_set_value`, in their order. -/
abbrev Writes (n : ℕ) := List (Fin n × Bool)

variable {n : ℕ}

/-- The levels after some calls of `gpiod_set_value`. -/
def setValues (pins : Levels n) (ws : Writes n) : Levels n := Stores.storeAll pins ws

/-- All LEDs are off. -/
def Dark (pins : Levels n) : Prop := ∀ i, pins i = false

/-- The loop of the removes: `gpiod_set_value(led[i], 0)` for every LED. -/
def turnOff (n : ℕ) : Writes n := (List.finRange n).map fun i => (i, false)

/-- The loop of the probes: `devm_gpiod_get_index(…, i, GPIOD_OUT_LOW)` for the
lines in turn, given which of the lookups fail and how. It returns at the first
error; the lines it has got by then are low. -/
def getLeds (led : Fin n → Option Errno) : List (Fin n) → Levels n → Levels n × Option Errno
  | [], pins => (pins, none)
  | i :: is, pins =>
    match led i with
    | some e => (pins, some e)
    | none => getLeds led is (Function.update pins i false)

/-- The levels after one call for each line. -/
theorem setValues_finRange (pins v : Levels n) :
    setValues pins ((List.finRange n).map fun i => (i, v i)) = v := by
  funext i
  rw [setValues, Stores.storeAll_map, if_pos (List.mem_finRange i)]

/-- A call of the loop turns its LED off. -/
theorem off_of_mem {w : Fin n × Bool} (h : w ∈ turnOff n) : w.2 = false := by
  obtain ⟨i, -, rfl⟩ := List.mem_map.mp h
  rfl

/-- Driving some line low leaves a line low that was low. -/
theorem low_update {pins : Levels n} {j : Fin n} (h : pins j = false) (i : Fin n) :
    Function.update pins i false j = false := by
  by_cases hj : j = i
  · rw [hj, Function.update_self]
  · rw [Function.update_of_ne hj, h]

/-- Getting lines leaves a line low that was low. -/
theorem getLeds_low (led : Fin n → Option Errno) (is : List (Fin n)) {pins : Levels n}
    {i : Fin n} (h : pins i = false) : (getLeds led is pins).1 i = false := by
  induction is generalizing pins with
  | nil => exact h
  | cons k is ih =>
    rw [getLeds]
    cases led k with
    | some e => exact h
    | none => exact ih (low_update h k)

/-- **Getting lines lights none.** -/
theorem dark_getLeds (led : Fin n → Option Errno) (is : List (Fin n)) {pins : Levels n}
    (h : Dark pins) : Dark (getLeds led is pins).1 := fun i => getLeds_low led is (h i)

/-- The lines got are low when no lookup has failed. -/
theorem getLeds_of_mem {led : Fin n → Option Errno} {is : List (Fin n)} {pins : Levels n}
    (h : (getLeds led is pins).2 = none) {i : Fin n} (hi : i ∈ is) :
    (getLeds led is pins).1 i = false := by
  induction is generalizing pins with
  | nil => exact absurd hi List.not_mem_nil
  | cons k is ih =>
    rw [getLeds] at h ⊢
    cases hk : led k with
    | some e =>
      rw [hk] at h
      exact absurd h (Option.some_ne_none e)
    | none =>
      rw [hk] at h
      rcases List.mem_cons.mp hi with rfl | hmem
      · exact getLeds_low led is (Function.update_self i false pins)
      · exact ih h hmem

/-- **With all lines got, all LEDs are off.** -/
theorem dark_of_getLeds {led : Fin n → Option Errno} {pins : Levels n}
    (h : (getLeds led (List.finRange n) pins).2 = none) :
    Dark (getLeds led (List.finRange n) pins).1 :=
  fun i => getLeds_of_mem h (List.mem_finRange i)

end Gpio
