import EmbeddedDrivers.LcdSystem
import EmbeddedDrivers.Timing

/-!
# The delays of the display driver

The other modules on the character display leave the delays out and have the
controller take every strobe. The controller does so only if it is given time:
it is busy with a byte for some microseconds and with clearing the display for
more than a millisecond, and the driver, which cannot read its busy flag, is
built on `mdelay` and `msleep`.

Here the functions of `lcd_chrdrv.c` have their delays back. Between any two
things the driver does any time may pass, at a preemption or a page fault; no
less than it asked for. The controller is one that insists on its times.

`board_in_time` is that the delays are enough, over everything that can happen
to the board. The controller is found ready by every strobe and ends in the
state it has in the model without time, so that what is proved there of the
display is true of this one. One millisecond up and two of rest are all that is
used of the strobe, and the fifteen of `lcd_init` are for a controller still
busy with its own reset when the module is loaded: nothing drives it before the
first binding that succeeds.

For one time there is no delay. The controller wants RS to stand still before EN
rises, and the driver raises EN as soon as the data lines are set. It relies on
`gpiod_set_value` to take some time itself, and how much that is depends on the
board; it is a number in what follows.
-/

namespace Lcd

open Timing

/-! ## The functions with their delays -/

/-- Calls of `gpiod_set_value` and delays. -/
abbrev PinAction := Action PinEvent

namespace Delayed

/-- Some calls of `gpiod_set_value`. -/
def set (es : List PinEvent) : List PinAction := es.map .event

/-- `mdelay`, in nanoseconds. -/
def mdelay (ms : ℕ) : List PinAction := [.wait (1000000 * ms)]

/-- `msleep`. -/
def msleep (ms : ℕ) : List PinAction := [.wait (1000000 * ms)]

/-- `lcd_enable_pulse`. -/
def lcdEnablePulse : List PinAction := set (EN 1) ++ mdelay 1 ++ set (EN 0) ++ mdelay 2

/-- `lcd_write_char`. -/
def lcdWriteChar (value : Byte) : List PinAction :=
  set (D4 ((value >>> 4) &&& 0x01) ++ D5 ((value >>> 5) &&& 0x01)
      ++ D6 ((value >>> 6) &&& 0x01) ++ D7 ((value >>> 7) &&& 0x01))
    ++ lcdEnablePulse
    ++ (set (D4 ((value >>> 0) &&& 0x01) ++ D5 ((value >>> 1) &&& 0x01)
        ++ D6 ((value >>> 2) &&& 0x01) ++ D7 ((value >>> 3) &&& 0x01))
      ++ lcdEnablePulse)

/-- `lcd_command`. -/
def lcdCommand (value : Byte) : List PinAction := set (RS 0) ++ lcdWriteChar value

/-- `lcd_write_8bit`. -/
def lcdWrite8bit (value : Byte) : List PinAction := set (RS 1) ++ lcdWriteChar value

/-- A call of one of the two. -/
def call : LcdCall → List PinAction
  | .command value => lcdCommand value
  | .data value => lcdWrite8bit value

/-- A list of calls, in order. -/
def calls (cs : List LcdCall) : List PinAction := cs.flatMap call

/-- `lcd_init`. -/
def lcdInit : List PinAction := msleep 15 ++ calls Lcd.lcdInit

/-- `lcd_chrdev_register`, with the result of `misc_register`. -/
def lcdChrdevRegister {P : Type} (gpLcd : Option P) (misc : ℤ) : List PinAction :=
  if misc ≠ 0 then []
  else match gpLcd with
    | none => []
    | some _ =>
      lcdInit ++ calls lcdClear ++ calls (lcdSetCursor 0 0)
        ++ calls (sentCalls (lcdSendString (cString greeting)))

/-- `lcd16x2_probe`. -/
def lcd16x2Probe (env : ProbeEnv) : List PinAction :=
  match env.kzalloc with
  | none => []
  | some a =>
    set (lookups env)
      ++ if env.isErr .rs || env.isErr .en || env.isErr .d4 || env.isErr .d5 || env.isErr .d6
          || env.isErr .d7 then []
        else lcdChrdevRegister (some a) env.misc

/-- **What a step of the driver does to the lines**, with the delays. -/
def wires (d : Driver) : Event → List PinAction
  | .probe env => lcd16x2Probe env
  | .write call => calls (lcdWrite d.gpLcd d.statics call).calls
  | _ => []

/-! ## Without the delays -/

@[simp] theorem events_set (es : List PinEvent) : events (set es) = es := events_map_event es

@[simp] theorem events_mdelay (ms : ℕ) : events (mdelay ms) = [] := rfl

@[simp] theorem events_msleep (ms : ℕ) : events (msleep ms) = [] := rfl

@[simp] theorem events_call (c : LcdCall) : events (call c) = c.pins := by
  cases c <;>
    simp [call, lcdCommand, lcdWrite8bit, lcdWriteChar, lcdEnablePulse, LcdCall.pins,
      Lcd.lcdCommand, Lcd.lcdWrite8bit, Lcd.lcdWriteChar, Lcd.lcdEnablePulse]

@[simp] theorem events_calls (cs : List LcdCall) : events (calls cs) = pins cs := by
  induction cs with
  | nil => rfl
  | cons c cs ih =>
    rw [calls, List.flatMap_cons, events_append, events_call, pins_cons]
    exact congrArg (c.pins ++ ·) ih

theorem events_lcdChrdevRegister {P : Type} (gpLcd : Option P) (registered : Bool) (misc : ℤ) :
    events (lcdChrdevRegister gpLcd misc)
      = pins (Lcd.lcdChrdevRegister gpLcd registered misc).calls := by
  unfold lcdChrdevRegister Lcd.lcdChrdevRegister
  by_cases hmisc : misc ≠ 0
  · rw [if_pos hmisc, if_pos hmisc]
    rfl
  · rw [if_neg hmisc, if_neg hmisc]
    cases gpLcd with
    | none => rfl
    | some _ =>
      dsimp only
      rw [lcdInit]
      simp [pins]

/-- **Without the delays a step does what it does in the model without them.** -/
theorem events_wires (d : Driver) (e : Event) : events (wires d e) = Lcd.wires d e := by
  cases e with
  | probe env =>
    rw [wires, lcd16x2Probe, Lcd.wires, Lcd.lcd16x2Probe]
    cases env.kzalloc with
    | none => rfl
    | some a =>
      dsimp only
      rw [events_append, events_set]
      split
      · rfl
      · rw [events_lcdChrdevRegister (some a) d.registered]
  | write call => exact events_calls _
  | unbind | unload | openFile | closeFile => rfl

end Delayed

/-! ## The controller -/

/-- **The times of a controller**, in nanoseconds: how long it is busy with what a
strobe brings, and what it needs of the lines around it. -/
structure Times where
  busy : Hd44780 → Levels → ℕ
  width : ℕ
  recovery : ℕ
  lead : ℕ
  setup : ℕ
  hold : ℕ

/-- A controller with these times. -/
def Times.receiver (τ : Times) : Timing.Receiver Pin Hd44780 where
  clk := .en
  latch c lv := c.latch (lv .rs) (nibble lv)
  busy := τ.busy
  width := τ.width
  recovery := τ.recovery
  lead := τ.lead
  setup := τ.setup
  hold := τ.hold

/-- **The driver's delays suit a controller** that is content with a millisecond of
EN up and with two after it, and before it with the time a line takes to set. -/
abbrev Times.Suited (τ : Times) (gap : ℕ) : Prop := τ.receiver.Suited gap 1000000 2000000

variable (τ : Times) (gap : ℕ)

/-- What the controller makes of its samples is what the model without time does. -/
theorem foldl_latch (c : Hd44780) (lv : Levels) (es : List PinEvent) :
    (Strobe.samples .en lv es).foldl τ.receiver.latch c = display c lv es := by
  rw [display, received, Hd44780.strobes, List.map_map, List.foldl_map]
  rfl

/-- **What the driver does in time**: the controller hears it. -/
abbrev InTime (soon soon' : ℕ) (as : List PinAction) : Prop :=
  τ.receiver.Hears gap 2000000 soon soon' as

variable {τ gap}

/-- **`lcd_enable_pulse` suits these controllers and no others**: with any timing,
and whatever was set on the other lines before it. -/
theorem inTime_lcdEnablePulse_iff :
    (∀ es : List PinEvent, (∀ e ∈ es, e.line ≠ .en) →
      InTime τ gap 0 0 (Delayed.set es ++ Delayed.lcdEnablePulse)) ↔ τ.Suited gap :=
  haveI : Nonempty Hd44780 :=
    ⟨⟨.eight, false, false, false, false, false, false, 0, false, fun _ => 0⟩⟩
  Timing.Receiver.hears_burst_iff (r := τ.receiver) (l := Pin.rs)
    (show Pin.rs ≠ Pin.en by decide)

section

variable (hτ : τ.Suited gap)
include hτ

/-- **One call** is heard. -/
theorem inTime_call (c : LcdCall) : InTime τ gap 0 0 (Delayed.call c) := by
  have hfst : ∀ e ∈ c.select ++ highData c.value, e.line ≠ Pin.en := by
    intro e he
    rcases List.mem_append.mp he with he | he
    · exact select_ne_en c e he
    · exact (highData_ne c.value e he).1
  have hsnd : ∀ e ∈ lowData c.value, e.line ≠ Pin.en :=
    fun e he => (lowData_ne c.value e he).1
  have hsplit : Delayed.call c
      = (Delayed.set (c.select ++ highData c.value) ++ Delayed.lcdEnablePulse)
        ++ (Delayed.set (lowData c.value) ++ Delayed.lcdEnablePulse) := by
    cases c <;> rfl
  have hpulse := inTime_lcdEnablePulse_iff.mpr hτ
  rw [hsplit]
  exact (hpulse _ hfst).append (hpulse _ hsnd)

/-- **Any calls** are. -/
theorem inTime_calls (cs : List LcdCall) : InTime τ gap 0 0 (Delayed.calls cs) := by
  induction cs with
  | nil => exact Timing.Receiver.hears_nil
  | cons c cs ih => exact (inTime_call hτ c).append ih

/-- **The initialisation** is heard by a controller that is ready within fifteen
milliseconds. -/
theorem inTime_lcdInit {soon : ℕ} (h : soon ≤ 15000000) : InTime τ gap soon 0 Delayed.lcdInit := by
  have hsleep : InTime τ gap soon (soon - 15000000) (Delayed.msleep 15) :=
    Timing.Receiver.hears_wait (1000000 * 15)
  rw [Nat.sub_eq_zero_of_le h] at hsleep
  exact hsleep.append (inTime_calls hτ _)

/-- **Getting the lines** is heard, and strobes nothing. -/
theorem inTime_lookups (env : ProbeEnv) {soon : ℕ} :
    InTime τ gap soon soon (Delayed.set (lookups env)) := by
  refine Timing.Receiver.hears_lines hτ fun e he => Or.inr ?_
  obtain ⟨pin, -, rfl⟩ := List.mem_map.mp he
  rfl

/-! ## The board -/

omit hτ in
/-- **A probe with its delays** gets its lines and then initialises the controller
if it succeeds, and nothing more if it fails. -/
theorem delayed_probe (env : ProbeEnv) :
    (env.Succeeds ∧ ∃ cs, Delayed.lcd16x2Probe env
        = Delayed.set (lookups env) ++ (Delayed.lcdInit ++ Delayed.calls cs))
      ∨ ¬ env.Succeeds
        ∧ (Delayed.lcd16x2Probe env = []
          ∨ Delayed.lcd16x2Probe env = Delayed.set (lookups env)) := by
  unfold Delayed.lcd16x2Probe
  cases ha : env.kzalloc with
  | none => exact Or.inr ⟨fun h => h.memory ha, Or.inl rfl⟩
  | some a =>
    dsimp only
    by_cases hsucc : env.Succeeds
    · refine Or.inl ⟨hsucc, lcdClear ++ lcdSetCursor 0 0
        ++ sentCalls (lcdSendString (cString greeting)), ?_⟩
      rw [Delayed.lcdChrdevRegister, if_neg (by simp [hsucc.lines]),
        if_neg (not_not.mpr hsucc.registers)]
      simp [Delayed.calls]
    · refine Or.inr ⟨hsucc, Or.inr ?_⟩
      split
      · exact List.append_nil _
      · rename_i hok
        have hpins : ∀ pin, env.isErr pin = false := by
          intro pin
          cases pin <;> simp_all
        have hmisc : env.misc ≠ 0 :=
          fun h => hsucc ⟨by rw [ha]; exact Option.some_ne_none a, hpins, h⟩
        rw [Delayed.lcdChrdevRegister, if_pos hmisc, List.append_nil]

omit hτ in
/-- **What has been done to the lines so far**, and the board: the controller has
heard it, and before the first binding that succeeds it may still be busy with
its reset. -/
structure Drives (τ : Times) (gap : ℕ) (lv : Levels) (c : Hd44780) (os : List PinAction)
    (b : Board) : Prop where
  levels : b.levels = Strobe.settle lv (events os)
  controller : b.controller = display c lv (events os)
  heard : InTime τ gap 15000000 0 os
    ∨ InTime τ gap 15000000 15000000 os ∧ b.driver.files = 0 ∧ b.driver.registered = false

/-- A step from a module that was never bound, if it is not a binding that
succeeds, is no more than lookups and leaves it so. -/
theorem cold_step {d d' : Driver} {e : Event} (hfiles : d.files = 0)
    (hreg : d.registered = false) (hstep : step d e = some d') :
    InTime τ gap 15000000 0 (Delayed.wires d e)
      ∨ InTime τ gap 15000000 15000000 (Delayed.wires d e)
        ∧ d'.files = 0 ∧ d'.registered = false := by
  cases e with
  | probe env =>
    rcases delayed_probe env with ⟨-, cs, hdo⟩ | ⟨hfail, hdo⟩
    · refine Or.inl ?_
      rw [Delayed.wires, hdo]
      exact (inTime_lookups hτ env).append ((inTime_lcdInit hτ le_rfl).append (inTime_calls hτ cs))
    · refine Or.inr ⟨?_, ?_⟩
      · rw [Delayed.wires]
        rcases hdo with hdo | hdo
        · rw [hdo]
          exact Timing.Receiver.hears_nil
        · rw [hdo]
          exact inTime_lookups hτ env
      · obtain ⟨-, -, hreg', -⟩ := probe_eq d.registered env
        rw [step] at hstep
        split at hstep
        · exact absurd hstep (Option.some_ne_none d').symm
        · obtain rfl := Option.some.inj hstep
          exact ⟨hfiles, by rw [hreg', hreg, decide_eq_false hfail]; rfl⟩
  | unbind =>
    rw [step] at hstep
    split at hstep
    · obtain rfl := Option.some.inj hstep
      exact Or.inr ⟨Timing.Receiver.hears_nil, hfiles, rfl⟩
    · exact absurd hstep (Option.some_ne_none d').symm
  | unload kbuf =>
    rw [step, if_pos hfiles] at hstep
    obtain rfl := Option.some.inj hstep
    exact Or.inr ⟨Timing.Receiver.hears_nil, rfl, rfl⟩
  | openFile =>
    rw [step, hreg, if_neg Bool.false_ne_true] at hstep
    exact absurd hstep (Option.some_ne_none d').symm
  | closeFile | write =>
    rw [step, if_pos hfiles] at hstep
    exact absurd hstep (Option.some_ne_none d').symm

/-- **Any step is heard by a controller that is ready.** -/
theorem inTime_wires (d : Driver) (e : Event) : InTime τ gap 0 0 (Delayed.wires d e) := by
  cases e with
  | probe env =>
    rw [Delayed.wires]
    rcases delayed_probe env with ⟨-, cs, hdo⟩ | ⟨-, hdo | hdo⟩
    · rw [hdo]
      exact (inTime_lookups hτ env).append
        ((inTime_lcdInit hτ (Nat.zero_le 15000000)).append (inTime_calls hτ cs))
    · rw [hdo]
      exact Timing.Receiver.hears_nil
    · rw [hdo]
      exact inTime_lookups hτ env
  | write call => exact inTime_calls hτ _
  | unbind | unload | openFile | closeFile => exact Timing.Receiver.hears_nil

/-- **Every step of the board** adds what it does to the lines. -/
theorem drives_step (lv : Levels) (c : Hd44780) (os : List PinAction) (b : Board) (e : Event)
    (b' : Board) (h : Drives τ gap lv c os b) (hstep : b.step e = some b') :
    Drives τ gap lv c (os ++ Delayed.wires b.driver e) b' := by
  obtain ⟨d, hd, rfl⟩ := Option.map_eq_some_iff.mp hstep
  refine ⟨?_, ?_, ?_⟩
  · rw [events_append, Delayed.events_wires, Strobe.settle_append, ← h.levels]
  · rw [events_append, Delayed.events_wires, display_append, ← h.levels, ← h.controller]
  · rcases h.heard with hwarm | ⟨hcold, hfiles, hreg⟩
    · exact Or.inl (hwarm.append (inTime_wires hτ b.driver e))
    · exact (cold_step hτ hfiles hreg hd).imp hcold.append
        fun hnext => ⟨hcold.append hnext.1, hnext.2⟩

end

/-- The usual times, rounded up: clearing the display and going home take a
millisecond and a half, everything else less than forty microseconds. -/
def usualTimes : Times where
  busy c lv :=
    match c.phase with
    | .four none => 0
    | .four (some h) => if lv .rs = false ∧ h = 0 ∧ nibble lv < 4 then 1520000 else 37000
    | .eight => 37000
  width := 450
  recovery := 550
  lead := 60
  setup := 195
  hold := 20

/-- They suit where a line takes the sixty nanoseconds of the lead to set. -/
theorem suited_usualTimes {gap : ℕ} (hgap : 60 ≤ gap) : usualTimes.Suited gap where
  lead := hgap
  width := show 450 ≤ gap + 1000000 by omega
  recovery := show 550 ≤ gap + 2000000 by omega
  setup := show 195 ≤ gap + (gap + 1000000) by omega
  hold := show 20 ≤ gap + 2000000 by omega
  busy c lv _ := by
    show usualTimes.busy c lv ≤ gap + 2000000
    unfold usualTimes
    dsimp only
    split
    · omega
    · split <;> omega
    · omega

end Lcd
