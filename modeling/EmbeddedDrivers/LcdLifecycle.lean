import EmbeddedDrivers.LcdWrite
import EmbeddedDrivers.Transition

/-!
# Loading, binding and unbinding the character display

The platform half of the driver, `lcd_pltdrv.c`, and the registration of the
character device. The two halves share one variable, the pointer `gp_lcd`:
the probe sets it to what it has allocated, and `lcd_write` takes it for the
sign that there is a device.

The allocation belongs to the device, and the kernel frees it when the probe
fails and after the remove. The pointer belongs to the module, and neither
exit path takes it back. A file that is still open then writes through it:
`lcd_write` finds a pointer, and drives the lines of a structure that is no
longer there.

`lifecycle_safe_iff` says over which runs the pointer is right: those without
an unbinding, and without a probe that fails once it has its allocation. An
unloading is harmless, for the variable goes with the module. The registration
of the device is right over all runs.
-/

namespace Lcd

/-! ## Registering the character device -/

def ENOMEM : ℤ := 12
def EINVAL : ℤ := 22

/-- A string literal in memory, terminated. -/
def cString (l : List Byte) : ℕ → Byte := fun i => l.getD i 0

/-- The text shown at registration, "Hello Linux" and what follows, a row of
sixteen and the beginning of the next. -/
def greeting : List Byte :=
  [0x48, 0x65, 0x6C, 0x6C, 0x6F, 0x20, 0x4C, 0x69, 0x6E, 0x75, 0x78, 0x20, 0x20, 0x20, 0x20, 0x20,
    0x59, 0x6F, 0x75, 0x27, 0x72, 0x65, 0x20, 0x43, 0x6F, 0x6F, 0x6C]

/-- **What registering has done**: the value returned, whether the device is
registered, and the display calls. -/
structure Registration where
  ret : ℤ
  registered : Bool
  calls : List LcdCall

/-- `lcd_chrdev_register`, with the result of `misc_register`. -/
def lcdChrdevRegister {P : Type} (gpLcd : Option P) (registered : Bool) (misc : ℤ) :
    Registration :=
  if misc ≠ 0 then ⟨misc, registered, []⟩
  else match gpLcd with
    -- the pointer is tested when the device is registered already
    | none => ⟨-ENODEV, true, []⟩
    | some _ =>
      ⟨0, true, lcdInit ++ lcdClear ++ lcdSetCursor 0 0
        ++ sentCalls (lcdSendString (cString greeting))⟩

/-! ## Probe and remove -/

/-- The address of an `lcd16x2` structure. -/
abbrev Addr := ℕ

/-- **What a probe meets with**: the result of `devm_kzalloc`, which of the six
`devm_gpiod_get` calls return an error, and the result of `misc_register`. -/
structure ProbeEnv where
  kzalloc : Option Addr
  isErr : Pin → Bool
  misc : ℤ

/-- **What a probe has done**: the value returned, the pointer, and what
registering has done if it came to that. -/
structure Probe where
  ret : ℤ
  gpLcd : Option Addr
  registered : Bool
  calls : List LcdCall

/-- `lcd16x2_probe`. -/
def lcd16x2Probe (registered : Bool) (env : ProbeEnv) : Probe :=
  match env.kzalloc with
  | none => ⟨-ENOMEM, none, registered, []⟩
  | some a =>
    -- from here on the pointer is set, and no exit resets it
    if env.isErr .rs || env.isErr .en || env.isErr .d4 || env.isErr .d5 || env.isErr .d6
        || env.isErr .d7 then
      ⟨-EINVAL, some a, registered, []⟩
    else
      let r := lcdChrdevRegister (some a) registered env.misc
      ⟨r.ret, some a, r.registered, r.calls⟩

/-- `lcd16x2_remove`, by way of `lcd_chrdev_unregister`: the pointer afterwards
and whether the device is registered. -/
def lcd16x2Remove (gpLcd : Option Addr) : Option Addr × Bool := (gpLcd, false)

/-! ## The system -/

/-- **The driver and its one device**: the module's variables, the allocation
the kernel holds for the device while it is bound, whether the character
device is registered, and how many of its files are open. -/
structure Driver where
  gpLcd : Option Addr
  statics : Statics
  bound : Option Addr
  registered : Bool
  files : ℕ

/-- What can happen to it. -/
inductive Event
  | probe (env : ProbeEnv)
  | unbind
  | unload (kbuf : ℤ → Byte)
  | openFile
  | closeFile
  | write (call : WriteCall)

/-- The module just loaded, its device not yet bound. -/
def Driver.initial (kbuf : ℤ → Byte) : Driver := ⟨none, Statics.initial kbuf, none, false, 0⟩

/-- **One step.** The kernel binds the device when the probe returns zero, and
frees the allocation otherwise, as it does after a remove. An open file holds
the module; unloading it therefore needs all files closed, removes the device
if there is one, and ends, for what follows, in a module just loaded. -/
def step (d : Driver) : Event → Option Driver
  | .probe env =>
    if d.bound.isSome then none
    else
      let r := lcd16x2Probe d.registered env
      some { d with
        gpLcd := r.gpLcd
        registered := r.registered
        bound := if r.ret = 0 then env.kzalloc else none }
  | .unbind =>
    if d.bound.isSome then
      some { d with
        gpLcd := (lcd16x2Remove d.gpLcd).1
        registered := (lcd16x2Remove d.gpLcd).2
        bound := none }
    else none
  | .unload kbuf => if d.files = 0 then some (Driver.initial kbuf) else none
  | .openFile => if d.registered then some { d with files := d.files + 1 } else none
  | .closeFile => if d.files = 0 then none else some { d with files := d.files - 1 }
  | .write call =>
    if d.files = 0 then none
    else some { d with statics := (lcdWrite d.gpLcd d.statics call).statics }

/-- **What the guard in `lcd_write` is for**, in a state: without a device the
pointer is NULL and a write returns `-ENODEV`, a write that drives the lines
does so through the structure of the bound device, and the character device
is registered exactly while there is one. -/
structure PointerSafe (d : Driver) : Prop where
  pointer : d.bound = none → d.gpLcd = none
  guard : d.bound = none → ∀ call, (lcdWrite d.gpLcd d.statics call).ret = -ENODEV
  driven : ∀ call, (lcdWrite d.gpLcd d.statics call).calls ≠ [] →
    d.bound ≠ none ∧ d.gpLcd = d.bound
  registered : d.registered = true ↔ d.bound ≠ none

/-- The condition on an event: it is no unbinding, and no probe that fails with
its allocation made. -/
def TakesBack : Event → Prop
  | .unbind => False
  | .probe env => env.kzalloc ≠ none → (∀ pin, env.isErr pin = false) ∧ env.misc = 0
  | _ => True

/-! ## What a probe does -/

/-- A probe that has its allocation and its lines, and registers, succeeds. -/
theorem probe_of_success (registered : Bool) {env : ProbeEnv} {a : Addr}
    (ha : env.kzalloc = some a) (hpins : ∀ pin, env.isErr pin = false) (hmisc : env.misc = 0) :
    (lcd16x2Probe registered env).ret = 0 ∧ (lcd16x2Probe registered env).gpLcd = some a
      ∧ (lcd16x2Probe registered env).registered = true := by
  unfold lcd16x2Probe lcdChrdevRegister
  simp [ha, hpins, hmisc]

/-- **A probe that fails after its allocation** leaves the pointer behind, and
the registration as it was. -/
theorem probe_of_failure (registered : Bool) {env : ProbeEnv} {a : Addr}
    (ha : env.kzalloc = some a) (hfail : ¬ ((∀ pin, env.isErr pin = false) ∧ env.misc = 0)) :
    (lcd16x2Probe registered env).ret ≠ 0 ∧ (lcd16x2Probe registered env).gpLcd = some a
      ∧ (lcd16x2Probe registered env).registered = registered := by
  unfold lcd16x2Probe
  rw [ha]
  dsimp only
  split
  · exact ⟨show -EINVAL ≠ 0 by decide, rfl, rfl⟩
  · rename_i hok
    have hpins : ∀ pin, env.isErr pin = false := by
      intro pin
      cases pin <;> simp_all
    have hmisc : env.misc ≠ 0 := fun h => hfail ⟨hpins, h⟩
    rw [lcdChrdevRegister, if_pos hmisc]
    exact ⟨hmisc, rfl, rfl⟩

/-! ## What a step does -/

/-- **The moves of the system**: all that a step can do to the variables the
two halves share. Opening, closing and writing leave them alone. -/
inductive Move (d : Driver) : Event → Driver → Prop
  | noMemory (env : ProbeEnv) (hnone : d.bound = none) (ha : env.kzalloc = none) :
      Move d (.probe env) { d with gpLcd := none }
  | binds (env : ProbeEnv) (a : Addr) (ha : env.kzalloc = some a)
      (hsucc : (∀ pin, env.isErr pin = false) ∧ env.misc = 0) :
      Move d (.probe env) { d with gpLcd := some a, bound := some a, registered := true }
  | fails (env : ProbeEnv) (a : Addr) (hnone : d.bound = none) (ha : env.kzalloc = some a)
      (hfail : ¬ ((∀ pin, env.isErr pin = false) ∧ env.misc = 0)) :
      Move d (.probe env) { d with gpLcd := some a }
  | unbinds (a : Addr) (hbound : d.bound = some a) :
      Move d .unbind { d with bound := none, registered := false }
  | unloads (kbuf : ℤ → Byte) : Move d (.unload kbuf) (Driver.initial kbuf)
  | uses (e : Event) (files : ℕ) (statics : Statics) (he : TakesBack e) :
      Move d e { d with files := files, statics := statics }

/-- **Every step is one of them.** -/
theorem move_of_step {d d' : Driver} {e : Event} (h : step d e = some d') : Move d e d' := by
  cases e with
  | probe env =>
    obtain ⟨gpLcd, statics, bound, registered, files⟩ := d
    cases bound with
    | some a => exact absurd h (by simp [step])
    | none =>
      obtain rfl := Option.some.inj h
      cases ha : env.kzalloc with
      | none =>
        rw [lcd16x2Probe, ha]
        exact Move.noMemory env rfl ha
      | some a =>
        by_cases hsucc : (∀ pin, env.isErr pin = false) ∧ env.misc = 0
        · obtain ⟨hret, hptr, hreg⟩ := probe_of_success registered ha hsucc.1 hsucc.2
          rw [hret, hptr, hreg, if_pos rfl]
          exact Move.binds env a ha hsucc
        · obtain ⟨hret, hptr, hreg⟩ := probe_of_failure registered ha hsucc
          rw [hptr, hreg, if_neg hret]
          exact Move.fails env a rfl ha hsucc
  | unbind =>
    cases hbound : d.bound with
    | none => simp [step, hbound] at h
    | some a =>
      rw [step, if_pos (by rw [hbound]; rfl)] at h
      exact Option.some.inj h ▸ Move.unbinds a hbound
  | unload kbuf =>
    by_cases hfiles : d.files = 0
    · rw [step, if_pos hfiles] at h
      exact Option.some.inj h ▸ Move.unloads kbuf
    · simp [step, hfiles] at h
  | openFile =>
    by_cases hreg : d.registered = true
    · rw [step, if_pos hreg] at h
      exact Option.some.inj h ▸ Move.uses .openFile (d.files + 1) d.statics trivial
    · simp [step, hreg] at h
  | closeFile =>
    by_cases hfiles : d.files = 0
    · simp [step, hfiles] at h
    · rw [step, if_neg hfiles] at h
      exact Option.some.inj h ▸ Move.uses .closeFile (d.files - 1) d.statics trivial
  | write call =>
    by_cases hfiles : d.files = 0
    · simp [step, hfiles] at h
    · rw [step, if_neg hfiles] at h
      exact Option.some.inj h ▸ Move.uses (.write call) d.files _ trivial

/-! ## The registration and the pointer -/

/-- The character device is registered exactly while a device is bound. -/
def RegisteredWhileBound (d : Driver) : Prop := d.registered = true ↔ d.bound ≠ none

/-- **Every step keeps the registration right.** -/
theorem registered_step (d : Driver) (e : Event) (d' : Driver) (h : RegisteredWhileBound d)
    (hstep : step d e = some d') : RegisteredWhileBound d' := by
  cases move_of_step hstep with
  | noMemory | fails | uses => exact h
  | binds env a => exact iff_of_true rfl (Option.some_ne_none a)
  | unbinds => exact iff_of_false Bool.false_ne_true (fun hne => hne rfl)
  | unloads => exact iff_of_false Bool.false_ne_true (fun hne => hne rfl)

/-- The invariant: the pointer is the bound device's, and the registration is
right. -/
structure PointerMatches (d : Driver) : Prop where
  pointer : d.gpLcd = d.bound
  registered : RegisteredWhileBound d

theorem pointerMatches_initial (kbuf : ℤ → Byte) : PointerMatches (Driver.initial kbuf) :=
  ⟨rfl, iff_of_false Bool.false_ne_true (fun hne => hne rfl)⟩

/-- **A step keeps the pointer right that takes it back.** -/
theorem pointerMatches_step (d : Driver) (e : Event) (d' : Driver) (h : PointerMatches d)
    (he : TakesBack e) (hstep : step d e = some d') : PointerMatches d' := by
  refine ⟨?_, registered_step d e d' h.registered hstep⟩
  cases move_of_step hstep with
  | noMemory env hnone => exact hnone.symm
  | binds => rfl
  | fails env a hnone ha hfail => exact absurd (he (by rw [ha]; exact Option.some_ne_none a)) hfail
  | unbinds => exact he.elim
  | unloads => rfl
  | uses => exact h.pointer

/-- **A step that does not take the pointer back leaves it without a
device.** -/
theorem not_pointerSafe_step (d : Driver) (e : Event) (d' : Driver) (h : PointerMatches d)
    (he : ¬ TakesBack e) (hstep : step d e = some d') : ¬ PointerSafe d' := by
  intro hsafe
  cases move_of_step hstep with
  | noMemory env hnone ha => exact he (fun hne => absurd ha hne)
  | binds env a ha hsucc => exact he (fun _ => hsucc)
  | fails env a hnone => exact absurd (hsafe.pointer hnone) (Option.some_ne_none a)
  | unbinds a hbound =>
    have hptr : d.gpLcd = none := hsafe.pointer rfl
    rw [h.pointer, hbound] at hptr
    exact absurd hptr (Option.some_ne_none a)
  | unloads => exact he trivial
  | uses e files statics htakes => exact he htakes

/-- With the right pointer the guard does what it is for. -/
theorem pointerSafe_of_matches (d : Driver) (h : PointerMatches d) : PointerSafe d := by
  refine ⟨fun hnone => h.pointer.trans hnone, fun hnone call => ?_,
    fun call hcalls => ⟨?_, h.pointer⟩, h.registered⟩
  · rw [h.pointer, hnone]
    rfl
  · intro hnone
    rw [h.pointer, hnone] at hcalls
    exact hcalls rfl

/-- **When the pointer is right.** Over every run of the driver with one
device – any probes with any results of the allocation, of the six line
lookups and of the registration, any unbindings and unloadings, and any files
opened, written to and closed in between – the guard in `lcd_write` does what
it is for in every state exactly when the run has no unbinding and no probe
that fails with its allocation made. The character device is registered
exactly while a device is bound in every state of any run. -/
theorem lifecycle_safe_iff (kbuf : ℤ → Byte) (es : List Event) (u : Driver)
    (hrun : Transition.run step (Driver.initial kbuf) es = some u) :
    ((∀ d, Transition.Reached step (Driver.initial kbuf) es d → PointerSafe d)
        ↔ ∀ e ∈ es, TakesBack e)
      ∧ ∀ d, Transition.Reached step (Driver.initial kbuf) es d → RegisteredWhileBound d := by
  have hinit := pointerMatches_initial kbuf
  refine ⟨?_, fun d hr => ?_⟩
  · rw [← Transition.allOk_iff_forall_mem hrun,
      Transition.allOk_iff_forall_reached pointerMatches_step pointerSafe_of_matches
        not_pointerSafe_step hinit hrun]
  · exact Transition.invariant registered_step hinit.registered hr

/-- A probe that gets all it asks for. -/
def goodProbe : ProbeEnv := ⟨some 0x1000, fun _ => false, 0⟩

/-- A probe without memory, one that succeeds, a file opened and closed, the
module unloaded and the device bound again. -/
def reloadRun : List Event :=
  [.probe ⟨none, fun _ => false, 0⟩, .probe goodProbe, .openFile, .closeFile,
    .unload (fun _ => 0), .probe goodProbe]

theorem lifecycle_safe_iff_reload :
    ∃ d, Transition.run step (Driver.initial fun _ => 0) reloadRun = some d ∧ PointerSafe d :=
  ⟨_, rfl, (lifecycle_safe_iff (fun _ => 0) reloadRun _ rfl).1.mpr
    (by simp [reloadRun, TakesBack, goodProbe]) _ ⟨_, List.prefix_rfl, rfl⟩⟩

/-- **Not over every run**: a file opened before the device is unbound writes
through the pointer left behind. -/
theorem not_forall_lifecycle_safe :
    ¬ ∀ (kbuf : ℤ → Byte) (es : List Event) (d : Driver),
        Transition.Reached step (Driver.initial kbuf) es d → PointerSafe d := by
  intro h
  have hsafe := h (fun _ => 0) [.probe goodProbe, .openFile, .unbind] _ ⟨_, List.prefix_rfl, rfl⟩
  have hdriven := hsafe.driven ⟨[newline], .all, by decide⟩ (by decide)
  exact hdriven.1 rfl

end Lcd
