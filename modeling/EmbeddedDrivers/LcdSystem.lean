import EmbeddedDrivers.LcdRendering
import EmbeddedDrivers.Simulation

/-!
# The display board

The other modules on the character display each take one part: the platform
half with its pointer, the writes with their line buffer, the lines, the
controller behind them. Here they are one machine. A step of the driver is also
line events – those by which a probe gets its six lines, and those of the
display calls made – and the controller sees every one of them.

What a user counts on is said by a much smaller machine, a `Panel`: a device is
attached or not, some of its files are open, some bytes are pending, and a text
stands on it. Attaching shows the greeting, and a line completed is shown
instead of what was there.

`board_presents` is that the board follows the panel through everything that
can happen, bindings that fail and unbindings and unloadings included, over any
number of them: the controller is in step at every binding, for the driver
leaves it in step. The two exceptions are known ones. A write must not go
through a pointer left behind (`lifecycle_safe_iff`), and one without a byte
must not look at the byte before the buffer (`touched_in_kbuf_iff`).

That the controller is found in step is the one thing the driver cannot bring
about. Before the first binding the lines have levels of their own, and getting
a raised EN is a strobe; `bind_presents_iff` says what the controller may be
holding then.
-/

namespace Lcd

/-! ## The board -/

/-- **The board**: the driver and its device, the levels of the six lines, and
the controller at the other end of them. -/
structure Board where
  driver : Driver
  levels : Levels
  controller : Hd44780

/-- The line events of the six `devm_gpiod_get` calls: a line that is got is made
an output and driven low. All six are asked for before any result is looked
at. -/
def lookups (env : ProbeEnv) : List PinEvent :=
  ([.rs, .en, .d4, .d5, .d6, .d7].filter fun pin => !env.isErr pin).map fun pin => ⟨pin, false⟩

/-- **The line events of a step** of the driver. A line that is released keeps
its level. -/
def wires (d : Driver) : Event → List PinEvent
  | .probe env =>
    match env.kzalloc with
    | none => []
    | some _ => lookups env ++ pins (lcd16x2Probe d.registered env).calls
  | .write call => pins (lcdWrite d.gpLcd d.statics call).calls
  | _ => []

/-- **One step of the board**: one of the driver, and what its line events do to
the lines and to the controller. -/
def Board.step (b : Board) (e : Event) : Option Board :=
  (Lcd.step b.driver e).map fun d =>
    { driver := d
      levels := Strobe.settle b.levels (wires b.driver e)
      controller := display b.controller b.levels (wires b.driver e) }

/-- The board with the module just loaded. -/
def Board.initial (kbuf : ℤ → Byte) (lv : Levels) (c : Hd44780) : Board :=
  ⟨Driver.initial kbuf, lv, c⟩

/-! ## The panel -/

/-- **What the device is for**: whether it is attached, how many of its files are
open, the bytes pending, and the text it shows while it is attached. -/
structure Panel where
  attached : Bool
  files : ℕ
  pending : Pending
  text : List Byte

/-- Nothing attached, opened or pending. -/
def Panel.initial : Panel := ⟨false, 0, LineBuffer.empty, []⟩

/-- A probe that gets its memory and its lines, and registers. -/
structure ProbeEnv.Succeeds (env : ProbeEnv) : Prop where
  memory : env.kzalloc ≠ none
  lines : ∀ pin, env.isErr pin = false
  registers : env.misc = 0

instance (env : ProbeEnv) : Decidable env.Succeeds :=
  decidable_of_iff
    (env.kzalloc ≠ none
      ∧ (∀ pin ∈ [Pin.rs, .en, .d4, .d5, .d6, .d7], env.isErr pin = false) ∧ env.misc = 0)
    ⟨fun h => ⟨h.1, fun pin => h.2.1 pin (by cases pin <;> decide), h.2.2⟩,
      fun h => ⟨h.memory, fun pin _ => h.lines pin, h.registers⟩⟩

/-- What is shown when a line has been handed over, or none. -/
def Panel.shown (p : Panel) (handed : List Byte) : List Byte :=
  if handed = [] then p.text else lineText handed

/-- **One step of the panel.** What is pending outlives the attachment, and goes
with the module. -/
def Panel.step (p : Panel) : Event → Option Panel
  | .probe env =>
    if p.attached then none
    else if env.Succeeds then some { p with attached := true, text := greetingText }
    else some p
  | .unbind => if p.attached then some { p with attached := false } else none
  | .unload _ => if p.files = 0 then some Panel.initial else none
  | .openFile => if p.attached then some { p with files := p.files + 1 } else none
  | .closeFile => if p.files = 0 then none else some { p with files := p.files - 1 }
  | .write call =>
    if p.files = 0 then none
    else if p.attached then
      some { p with
        pending := (p.pending.answer call).2
        text := p.shown (p.pending.answer call).1 }
    else some p

/-! ## On the lines -/

/-- What the controller makes of line events in two parts. -/
theorem display_append (c : Hd44780) (lv : Levels) (es fs : List PinEvent) :
    display c lv (es ++ fs) = display (display c lv es) (Strobe.settle lv es) fs := by
  rw [display, received_append, List.map_append, Hd44780.strobes_append]
  rfl

/-- **Getting lines with EN low** leaves it low, and the controller sees
nothing. -/
theorem lookups_low (env : ProbeEnv) {lv : Levels} (hlow : lv .en = false) (c : Hd44780) :
    Strobe.settle lv (lookups env) .en = false ∧ display c lv (lookups env) = c := by
  have hlevel : ∀ e ∈ lookups env, e.level = false := by
    intro e he
    obtain ⟨pin, -, rfl⟩ := List.mem_map.mp he
    rfl
  obtain ⟨hsamples, hsettle⟩ := Strobe.samples_of_lowered hlow hlevel
  refine ⟨hsettle, ?_⟩
  rw [display, received, hsamples]
  rfl

/-- A display call leaves EN low. -/
theorem settle_pins {lv : Levels} (hlow : lv .en = false) (calls : List LcdCall) :
    Strobe.settle lv (pins calls) .en = false := (received_pins lv hlow calls).2.1

/-! ## What a probe does -/

/-- **A probe**, as the kernel and the panel see it. -/
theorem probe_eq (registered : Bool) (env : ProbeEnv) :
    (lcd16x2Probe registered env).gpLcd = env.kzalloc
      ∧ ((lcd16x2Probe registered env).ret = 0 ↔ env.Succeeds)
      ∧ (lcd16x2Probe registered env).registered = (registered || decide env.Succeeds)
      ∧ (lcd16x2Probe registered env).calls
        = if env.Succeeds then lcdInit ++ displayCalls greetingText else [] := by
  cases ha : env.kzalloc with
  | none =>
    have hfail : ¬ env.Succeeds := fun h => h.memory ha
    unfold lcd16x2Probe
    rw [ha, if_neg hfail, decide_eq_false hfail, Bool.or_false]
    exact ⟨rfl, iff_of_false (show ¬ -ENOMEM = 0 by decide) hfail, rfl, rfl⟩
  | some a =>
    by_cases hsucc : env.Succeeds
    · obtain ⟨hret, hptr, hreg⟩ := probe_of_success registered ha hsucc.lines hsucc.registers
      rw [if_pos hsucc, decide_eq_true hsucc, Bool.or_true]
      refine ⟨hptr, iff_of_true hret hsucc, hreg, ?_⟩
      rw [← calls_register a registered]
      unfold lcd16x2Probe
      simp [ha, hsucc.lines, hsucc.registers]
    · have hfail : ¬ ((∀ pin, env.isErr pin = false) ∧ env.misc = 0) :=
        fun h => hsucc ⟨by rw [ha]; exact Option.some_ne_none a, h.1, h.2⟩
      obtain ⟨hret, hptr, hreg⟩ := probe_of_failure registered ha hfail
      rw [if_neg hsucc, decide_eq_false hsucc, Bool.or_false]
      refine ⟨hptr, iff_of_false hret hsucc, hreg, ?_⟩
      unfold lcd16x2Probe
      rw [ha]
      dsimp only
      split
      · rfl
      · rename_i hok
        have hpins : ∀ pin, env.isErr pin = false := by
          intro pin
          cases pin <;> simp_all
        have hmisc : env.misc ≠ 0 := fun h => hfail ⟨hpins, h⟩
        rw [lcdChrdevRegister, if_pos hmisc]

/-- The line events of a probe that succeeds. -/
theorem wires_of_succeeds (d : Driver) {env : ProbeEnv} (h : env.Succeeds) :
    wires d (.probe env) = lookups env ++ pins (lcdInit ++ displayCalls greetingText) := by
  obtain ⟨a, ha⟩ := Option.ne_none_iff_exists'.mp h.memory
  obtain ⟨-, -, -, hcalls⟩ := probe_eq d.registered env
  rw [if_pos h] at hcalls
  rw [wires, ha]
  dsimp only
  rw [hcalls]

/-- Of one that fails there are those of the lines it gets, if any. -/
theorem wires_of_fails (d : Driver) {env : ProbeEnv} (h : ¬ env.Succeeds) :
    wires d (.probe env) = [] ∨ wires d (.probe env) = lookups env := by
  obtain ⟨-, -, -, hcalls⟩ := probe_eq d.registered env
  rw [if_neg h] at hcalls
  rw [wires]
  cases env.kzalloc with
  | none => exact Or.inl rfl
  | some a =>
    dsimp only
    rw [hcalls]
    exact Or.inr (List.append_nil _)

/-- **A probe of a device that is not bound.** -/
theorem step_probe {b : Board} (hfree : b.driver.bound = none) (env : ProbeEnv) :
    b.step (.probe env) = some
      { driver := { b.driver with
          gpLcd := env.kzalloc
          registered := b.driver.registered || decide env.Succeeds
          bound := if env.Succeeds then env.kzalloc else none }
        levels := Strobe.settle b.levels (wires b.driver (.probe env))
        controller := display b.controller b.levels (wires b.driver (.probe env)) } := by
  obtain ⟨hptr, hret, hreg, -⟩ := probe_eq b.driver.registered env
  rw [Board.step, step, hfree, if_neg (by simp), Option.map_some, hptr, hreg,
    if_congr hret rfl rfl]

/-! ## The board follows the panel -/

/-- **A board presents a panel.** Besides what the panel says, EN is low, and the
controller can be brought into step at the next binding. -/
structure Presents (b : Board) (p : Panel) : Prop where
  attached : b.driver.bound.isSome = p.attached
  pointer : p.attached = true → b.driver.gpLcd ≠ none
  registered : b.driver.registered = p.attached
  files : b.driver.files = p.files
  holds : Holds b.driver.statics p.pending
  low : b.levels .en = false
  recoverable : Recoverable b.controller
  listening : p.attached = true → Listening b.controller
  shows : p.attached = true → Shows b.controller p.text

/-- The condition on a step: a write without a device finds no pointer, and one
that copies nothing has a pending byte to look at. -/
def Board.InBounds (b : Board) : Event → Prop
  | .write call => (b.driver.bound = none → b.driver.gpLcd = none)
      ∧ (call.copied = .all → call.buf ≠ [] ∨ 0 < b.driver.statics.pos)
  | _ => True

/-- A module just loaded presents the panel with nothing on it. -/
theorem presents_initial (kbuf : ℤ → Byte) {lv : Levels} {c : Hd44780}
    (hlow : lv .en = false) (hc : Recoverable c) :
    Presents (Board.initial kbuf lv c) Panel.initial where
  attached := rfl
  pointer h := absurd h Bool.false_ne_true
  registered := rfl
  files := rfl
  holds := holds_initial kbuf
  low := hlow
  recoverable := hc
  listening h := absurd h Bool.false_ne_true
  shows h := absurd h Bool.false_ne_true

/-- **A probe** that succeeds brings the controller into step and shows the
greeting; one that fails leaves it alone. -/
theorem presents_probe {b : Board} {p : Panel} (h : Presents b p) (env : ProbeEnv) :
    Option.Rel Presents (b.step (.probe env)) (p.step (.probe env)) := by
  have hattached := h.attached
  cases hbound : b.driver.bound with
  | some a =>
    rw [hbound, Option.isSome_some] at hattached
    rw [Panel.step, if_pos hattached.symm, Board.step, step, hbound, if_pos Option.isSome_some]
    exact .none
  | none =>
    rw [hbound, Option.isSome_none] at hattached
    have hfree : ¬ p.attached = true := by rw [← hattached]; exact Bool.false_ne_true
    have hreg : b.driver.registered = false := h.registered.trans hattached.symm
    obtain ⟨hlow, hsame⟩ := lookups_low env h.low b.controller
    rw [Panel.step, if_neg hfree, step_probe hbound, hreg, Bool.false_or]
    by_cases hsucc : env.Succeeds
    · obtain ⟨hlisten, hshows⟩ : Listening (display b.controller b.levels
            (wires b.driver (.probe env)))
          ∧ Shows (display b.controller b.levels (wires b.driver (.probe env))) greetingText := by
        rw [wires_of_succeeds b.driver hsucc, display_append, hsame, display_pins hlow]
        exact registration_shows h.recoverable
      have hlines : Strobe.settle b.levels (wires b.driver (.probe env)) .en = false := by
        rw [wires_of_succeeds b.driver hsucc, Strobe.settle_append]
        exact settle_pins hlow _
      rw [if_pos hsucc, if_pos hsucc, decide_eq_true hsucc]
      exact .some ⟨Option.isSome_iff_ne_none.mpr hsucc.memory, fun _ => hsucc.memory, rfl, h.files,
        h.holds, hlines, hlisten.recoverable, fun _ => hlisten, fun _ => hshows⟩
    · obtain ⟨hlines, hcontroller⟩ :
          Strobe.settle b.levels (wires b.driver (.probe env)) .en = false
            ∧ display b.controller b.levels (wires b.driver (.probe env)) = b.controller := by
        rcases wires_of_fails b.driver hsucc with hwires | hwires
        · rw [hwires]
          exact ⟨h.low, rfl⟩
        · rw [hwires]
          exact ⟨hlow, hsame⟩
      rw [if_neg hsucc, if_neg hsucc, hcontroller, decide_eq_false hsucc]
      exact .some ⟨hattached, fun hp => absurd hp hfree, hattached, h.files, h.holds, hlines,
        h.recoverable, fun hp => absurd hp hfree, fun hp => absurd hp hfree⟩

/-- What is shown of a line handed over fits the display. -/
theorem length_shownOf_answer (b : Pending) (call : WriteCall) :
    ∀ t ∈ shownOf (b.answer call).1, t.length ≤ 32 := by
  intro t ht
  have hhanded : (b.answer call).1.length ≤ kbufSize := by
    unfold Pending.answer
    cases call.copied with
    | fault left => exact Nat.zero_le _
    | all =>
      have hle := b.length_joined_le call.buf
      rw [← b.put_conserve call.buf, List.length_append] at hle
      exact (Nat.le_add_right _ _).trans hle
  by_cases hnone : (b.answer call).1 = []
  · rw [shownOf, if_pos hnone] at ht
    exact absurd ht List.not_mem_nil
  · rw [shownOf, if_neg hnone, List.mem_singleton] at ht
    have hsub := (List.takeWhile_sublist (p := (· ≠ 0)) (l := (b.answer call).1.dropLast)).length_le
    rw [List.length_dropLast] at hsub
    have hsize : kbufSize = 33 := rfl
    rw [ht, lineText]
    omega

/-- **A write** to an attached device does to the line buffer and to the display
what the panel does. -/
theorem presents_write {b : Board} {p : Panel} (h : Presents b p) {call : WriteCall}
    (hok : b.InBounds (.write call)) :
    Option.Rel Presents (b.step (.write call)) (p.step (.write call)) := by
  by_cases hfiles : b.driver.files = 0
  · rw [Panel.step, if_pos (h.files.symm.trans hfiles), Board.step, step, if_pos hfiles]
    exact .none
  · rw [Panel.step, if_neg (fun hp => hfiles (h.files.trans hp)), Board.step, step, if_neg hfiles]
    cases hattached : p.attached with
    | false =>
      have hbound : b.driver.bound = none := by
        rw [← Option.not_isSome_iff_eq_none, h.attached, hattached]
        exact Bool.false_ne_true
      have hret : lcdWrite b.driver.gpLcd b.driver.statics call
          = lcdWrite (none : Option Addr) b.driver.statics call := by rw [hok.1 hbound]
      rw [if_neg Bool.false_ne_true, Option.map_some, wires, hret]
      exact .some ⟨h.attached, h.pointer, h.registered, h.files, h.holds, h.low, h.recoverable,
        h.listening, h.shows⟩
    | true =>
      obtain ⟨a, ha⟩ := Option.ne_none_iff_exists'.mp (h.pointer hattached)
      obtain ⟨hlisten, hshows⟩ := texts_shows (h.listening hattached)
        (length_shownOf_answer p.pending call)
      have hmeets := lcdWrite_meets a h.holds hok.2
      have hcontroller : display b.controller b.levels (wires b.driver (.write call))
          = b.controller.strobes
            (callStrobes ((shownOf (p.pending.answer call).1).flatMap displayCalls)) := by
        rw [wires, ha, hmeets.calls, display_pins h.low]
      rw [← hcontroller] at hlisten hshows
      have hlines : Strobe.settle b.levels (wires b.driver (.write call)) .en = false :=
        settle_pins h.low _
      have hholds : Holds (lcdWrite b.driver.gpLcd b.driver.statics call).statics
          (p.pending.answer call).2 := by
        rw [ha]
        exact hmeets.holds
      have htext : Shows (display b.controller b.levels (wires b.driver (.write call)))
          (p.shown (p.pending.answer call).1) := by
        by_cases hnone : (p.pending.answer call).1 = []
        · rw [Panel.shown, if_pos hnone, hcontroller, hnone]
          exact h.shows hattached
        · rw [Panel.shown, if_neg hnone]
          exact hshows _ (by rw [shownOf, if_neg hnone]; rfl)
      rw [if_pos rfl, Option.map_some]
      exact .some ⟨h.attached.trans hattached, fun _ => h.pointer hattached,
        h.registered.trans hattached, h.files, hholds, hlines, hlisten.recoverable,
        fun _ => hlisten, fun _ => htext⟩

/-- **The board follows the panel.** -/
theorem board_follows : Transition.Follows Board.step Panel.step Eq Board.InBounds Presents := by
  rintro b p e _ h rfl hok
  cases e with
  | probe env => exact presents_probe h env
  | write call => exact presents_write h hok
  | unbind =>
    rw [Panel.step, ← h.attached, Board.step, step]
    by_cases hbound : b.driver.bound.isSome = true
    · rw [if_pos hbound, if_pos hbound]
      exact .some ⟨rfl, fun hp => absurd hp Bool.false_ne_true, rfl, h.files, h.holds, h.low,
        h.recoverable, fun hp => absurd hp Bool.false_ne_true,
        fun hp => absurd hp Bool.false_ne_true⟩
    · rw [if_neg hbound, if_neg hbound]
      exact .none
  | unload kbuf =>
    rw [Panel.step, ← h.files, Board.step, step]
    by_cases hfiles : b.driver.files = 0
    · rw [if_pos hfiles, if_pos hfiles]
      exact .some (presents_initial kbuf h.low h.recoverable)
    · rw [if_neg hfiles, if_neg hfiles]
      exact .none
  | openFile =>
    have hiff : b.driver.registered = true ↔ p.attached = true := by rw [h.registered]
    rw [Panel.step, Board.step, step]
    by_cases hreg : b.driver.registered = true
    · rw [if_pos hreg, if_pos (hiff.mp hreg)]
      exact .some ⟨h.attached, h.pointer, h.registered, congrArg (· + 1) h.files, h.holds, h.low,
        h.recoverable, h.listening, h.shows⟩
    · rw [if_neg hreg, if_neg (mt hiff.mpr hreg)]
      exact .none
  | closeFile =>
    rw [Panel.step, ← h.files, Board.step, step]
    by_cases hfiles : b.driver.files = 0
    · rw [if_pos hfiles, if_pos hfiles]
      exact .none
    · rw [if_neg hfiles, if_neg hfiles]
      exact .some ⟨h.attached, h.pointer, h.registered, rfl, h.holds, h.low,
        h.recoverable, h.listening, h.shows⟩

/-- **What a write returns**, in a state that presents a panel. -/
def Answers (b : Board) (p : Panel) : Prop :=
  ∀ call, b.InBounds (.write call) →
    (lcdWrite b.driver.gpLcd b.driver.statics call).ret
      = if p.attached then returned call else -ENODEV

theorem Presents.answers {b : Board} {p : Panel} (h : Presents b p) : Answers b p := by
  intro call hok
  cases hattached : p.attached with
  | true =>
    obtain ⟨a, ha⟩ := Option.ne_none_iff_exists'.mp (h.pointer hattached)
    rw [ha, if_pos rfl]
    exact (lcdWrite_meets a h.holds hok.2).ret
  | false =>
    have hbound : b.driver.bound = none := by
      rw [← Option.not_isSome_iff_eq_none, h.attached, hattached]
      exact Bool.false_ne_true
    rw [hok.1 hbound, if_neg Bool.false_ne_true]
    rfl

instance (b : Board) : ∀ e, Decidable (b.InBounds e)
  | .write call => inferInstanceAs (Decidable ((b.driver.bound = none → b.driver.gpLcd = none)
      ∧ (call.copied = .all → call.buf ≠ [] ∨ 0 < b.driver.statics.pos)))
  | .probe _ | .unbind | .unload _ | .openFile | .closeFile => isTrue trivial

/-- A byte written before an unbinding and the rest of the line after the next
binding. -/
def reboundRun : List Event :=
  [.probe ⟨some 0x1000, fun pin => pin = .d4, 0⟩, .probe goodProbe, .openFile,
    .write ⟨[0x41], .all, by decide⟩, .unbind, .probe goodProbe,
    .write ⟨[0x42, newline], .all, by decide⟩]

/-- The panel at its end. -/
theorem run_reboundRun :
    Transition.run Panel.step Panel.initial reboundRun
      = some ⟨true, 1, LineBuffer.empty, [0x41, 0x42]⟩ := rfl

/-- **The lines got by a probe that gets all of them**: where EN was raised, the
controller sees one strobe, with RS low and the data lines as they were. -/
theorem display_lookups {env : ProbeEnv} (h : ∀ pin, env.isErr pin = false) (lv : Levels)
    (c : Hd44780) :
    Strobe.settle lv (lookups env) .en = false
      ∧ display c lv (lookups env) = if lv .en then c.latch false (nibble lv) else c := by
  have hall : lookups env
      = [⟨.rs, false⟩, ⟨.en, false⟩]
        ++ [⟨.d4, false⟩, ⟨.d5, false⟩, ⟨.d6, false⟩, ⟨.d7, false⟩] := by
    simp [lookups, h]
  cases hen : lv .en with
  | false =>
    rw [if_neg Bool.false_ne_true]
    exact lookups_low env hen c
  | true =>
    -- RS goes down first, and EN then makes the edge
    have hedge : received lv [⟨.rs, false⟩, ⟨.en, false⟩] = [⟨false, nibble lv⟩] := by
      rw [received, Strobe.samples_cons_of_not_falls rfl, Strobe.samples_cons_of_falls]
      · rfl
      · show (lv .en && true) = true
        rw [hen]
        rfl
    have hdata : ∀ e ∈ ([⟨.d4, false⟩, ⟨.d5, false⟩, ⟨.d6, false⟩, ⟨.d7, false⟩] : List PinEvent),
        e.level = false := by simp
    have hdown : Strobe.settle lv [⟨.rs, false⟩, ⟨.en, false⟩] Pin.en = false := rfl
    obtain ⟨hsamples, hsettle⟩ := Strobe.samples_of_lowered hdown hdata
    rw [hall, if_pos rfl, Strobe.settle_append]
    refine ⟨hsettle, ?_⟩
    rw [display, received_append, hedge, received, hsamples]
    rfl

/-- **What a first binding needs.** On any board without a device, with any
levels on its lines and any state of its controller, a probe that succeeds
presents the panel with the greeting on it exactly if the controller holds no
nibble but a `3` – after the strobe, if EN was raised, that getting the lines
makes of their levels. -/
theorem bind_presents_iff {b : Board} (hfree : b.driver.bound = none)
    (hreg : b.driver.registered = false) {pending : Pending}
    (hholds : Holds b.driver.statics pending) {env : ProbeEnv} (henv : env.Succeeds) :
    ∃ b', b.step (.probe env) = some b'
      ∧ (Presents b' ⟨true, b.driver.files, pending, greetingText⟩
        ↔ Recoverable (if b.levels .en then b.controller.latch false (nibble b.levels)
            else b.controller)) := by
  obtain ⟨hlow, hseen⟩ := display_lookups henv.lines b.levels b.controller
  have hcontroller : display b.controller b.levels (wires b.driver (.probe env))
      = (display b.controller b.levels (lookups env)).strobes
          (callStrobes (lcdInit ++ displayCalls greetingText)) := by
    rw [wires_of_succeeds b.driver henv, display_append, display_pins hlow]
  refine ⟨_, step_probe hfree env, ?_⟩
  rw [← hseen]
  constructor
  · intro h
    by_contra hc
    have hsync := (h.listening rfl).synced
    dsimp only at hsync
    rw [hcontroller] at hsync
    exact not_synced_registration hc hsync
  · intro hc
    obtain ⟨hlisten, hshows⟩ := registration_shows hc
    rw [← hcontroller] at hlisten hshows
    have hlines : Strobe.settle b.levels (wires b.driver (.probe env)) .en = false := by
      rw [wires_of_succeeds b.driver henv, Strobe.settle_append]
      exact settle_pins hlow _
    rw [if_pos henv, hreg, Bool.false_or, decide_eq_true henv]
    exact ⟨Option.isSome_iff_ne_none.mpr henv.memory, fun _ => henv.memory, rfl, rfl, hholds,
      hlines, hlisten.recoverable, fun _ => hlisten, fun _ => hshows⟩

/-- All lines raised, out of power-on. -/
theorem bind_presents_raised :
    ∃ b', (Board.initial (fun _ => 0) (fun _ => true) (powerOn fun _ => 0)).step (.probe goodProbe)
        = some b'
      ∧ Presents b' ⟨true, 0, LineBuffer.empty, greetingText⟩ := by
  have henv : goodProbe.Succeeds := ⟨Option.some_ne_none _, fun _ => rfl, rfl⟩
  obtain ⟨b', hstep, hiff⟩ := bind_presents_iff
    (b := Board.initial (fun _ => 0) (fun _ => true) (powerOn fun _ => 0)) rfl rfl
    (holds_initial _) henv
  refine ⟨b', hstep, hiff.mpr fun n hn => ?_⟩
  -- the strobe made by getting EN is an instruction to a controller in eight-bit mode
  have height : ((powerOn fun _ => 0).latch false (nibble fun _ => true)).phase = .eight := rfl
  have hfour : ((powerOn fun _ => 0).latch false (nibble fun _ => true)).phase = .four (some n) :=
    hn
  exact absurd (height.symm.trans hfour) (by simp)

end Lcd
