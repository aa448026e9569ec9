import EmbeddedDrivers.Gpio
import EmbeddedDrivers.Transition

/-!
# A thread that blinks

`led_ker.c` with three LEDs and `usr_led_ker.c` with four: a kernel thread
lights the LEDs one after another for as long as the device is bound. The two
programs differ in the number of LEDs and in the time each is lit.

The thread is started at the end of the probe and stopped at the beginning of
the remove, by way of a pointer that belongs to the module. What `kthread_run`
returns goes into the pointer unchecked, an error pointer too, and no exit path
takes it back; the remove tests it for NULL only. What keeps the remove from
stopping a thread that is no longer there, or never was, is that the kernel
calls it for a bound device, and a device is bound by a probe that has just set
the pointer to a thread.

Probe, remove and thread are taken apart into single lookups and single calls,
so that the thread may take a step between any two of theirs. `blink_safe` is
over all runs of this.
-/

namespace Blink

open Gpio

variable {n : ℕ}

/-! ## The thread -/

/-- **Where a thread is**: created and not yet run, before one of the tests of
its two loops, before turning an LED on, asleep before turning it off, or
returned. -/
inductive Pc (n : ℕ)
  | created
  | whileTest
  | forTest (i : ℕ)
  | setOn (i : Fin n)
  | setOff (i : Fin n)
  | returned

/-- `blink_fn`, one step of it, given whether the thread should stop: where it
goes and the levels. A thread asked to stop before it has run returns without
calling the function. -/
def blinkFn (shouldStop : Bool) (pins : Levels n) : Pc n → Option (Pc n × Levels n)
  | .created => some (if shouldStop then .returned else .whileTest, pins)
  | .whileTest => some (if shouldStop then .returned else .forTest 0, pins)
  | .forTest i => some (if h : i < n then .setOn ⟨i, h⟩ else .whileTest, pins)
  | .setOn i => some (.setOff i, Function.update pins i true)
  | .setOff i => some (.forTest (i + 1), Function.update pins i false)
  | .returned => none

/-- **A thread**: where it is, whether it has been asked to stop, and the probe
that has started it. -/
structure Thread (n : ℕ) where
  pc : Pc n
  shouldStop : Bool
  startedBy : ℕ

/-- What `blink_thread` may be: NULL, an error pointer, or a thread, by its
number among all that were ever started. -/
inductive Pointer
  | null
  | err (e : Errno)
  | task (t : ℕ)

/-! ## The system -/

/-- **Where the driver is**: not bound; in the probe, with some lines still to
get; bound; in the remove, about to call `kthread_stop`, waiting for a thread
in it, or turning the LEDs off. -/
inductive Phase (n : ℕ)
  | idle
  | probing (todo : List (Fin n))
  | bound
  | stopping (p : Pointer)
  | waiting (t : ℕ)
  | clearing (todo : Writes n)

/-- **A driver and its device**: the levels of the LEDs, the module's pointer,
all threads ever started, and the phase. Beside them, how many probes there
have been and whether a remove has completed. -/
structure System (n : ℕ) where
  pins : Levels n
  blinkThread : Pointer
  threads : List (Thread n)
  phase : Phase n
  probes : ℕ
  removed : Bool

/-- What can happen to it. A lookup and `kthread_run` come with the error they
return, if they do. -/
inductive Event
  | probe
  | lookup (r : Option Errno)
  | kthreadRun (r : Option Errno)
  | thread (t : ℕ)
  | remove
  | kthreadStop
  | kthreadStopReturns
  | ledOff
  | removeReturns

/-- The module just loaded. -/
def initial (pins : Levels n) : System n := ⟨pins, .null, [], .idle, 0, false⟩

/-- `myleds_probe`, step by step. -/
def myledsProbe (s : System n) : Event → Option (System n)
  | .probe =>
    match s.phase with
    | .idle => some { s with phase := .probing (List.finRange n), probes := s.probes + 1 }
    | _ => none
  | .lookup r =>
    match s.phase, r with
    | .probing (_ :: _), some _ => some { s with phase := .idle }
    | .probing (i :: is), none =>
      some { s with pins := Function.update s.pins i false, phase := .probing is }
    | _, _ => none
  | .kthreadRun r =>
    match s.phase, r with
    -- the error pointer stays in the variable
    | .probing [], some e => some { s with blinkThread := .err e, phase := .idle }
    | .probing [], none =>
      some { s with
        blinkThread := .task s.threads.length
        threads := s.threads ++ [⟨.created, false, s.probes⟩]
        phase := .bound }
    | _, _ => none
  | _ => none

/-- `if (blink_thread)`: an error pointer passes the test. -/
def afterTest : Pointer → Phase n
  | .null => .clearing (turnOff n)
  | p => .stopping p

/-- `myleds_remove`, step by step. A call of `kthread_stop` through anything but
a thread has no next state. -/
def myledsRemove (s : System n) : Event → Option (System n)
  | .remove =>
    match s.phase with
    | .bound => some { s with phase := afterTest s.blinkThread }
    | _ => none
  | .kthreadStop =>
    match s.phase with
    | .stopping (.task t) =>
      some { s with
        threads := s.threads.modify t fun th => { th with shouldStop := true }
        phase := .waiting t }
    | _ => none
  | .kthreadStopReturns =>
    match s.phase with
    | .waiting t =>
      match s.threads[t]? with
      | some ⟨.returned, _, _⟩ => some { s with phase := .clearing (turnOff n) }
      | _ => none
    | _ => none
  | .ledOff =>
    match s.phase with
    | .clearing ((i, v) :: todo) =>
      some { s with pins := Function.update s.pins i v, phase := .clearing todo }
    | _ => none
  | .removeReturns =>
    match s.phase with
    | .clearing [] => some { s with phase := .idle, removed := true }
    | _ => none
  | _ => none

/-- A step of a thread. -/
def threadStep (s : System n) (t : ℕ) : Option (System n) :=
  match s.threads[t]? with
  | none => none
  | some th =>
    (blinkFn th.shouldStop s.pins th.pc).map fun r =>
      { s with pins := r.2, threads := s.threads.set t { th with pc := r.1 } }

/-- **One step** of any of them. -/
def step (s : System n) : Event → Option (System n)
  | .thread t => threadStep s t
  | .probe => myledsProbe s .probe
  | .lookup r => myledsProbe s (.lookup r)
  | .kthreadRun r => myledsProbe s (.kthreadRun r)
  | e => myledsRemove s e

/-- At most one LED is lit. -/
def AtMostOne (pins : Levels n) : Prop := ∀ i j, pins i = true → pins j = true → i = j

/-- All threads have returned. -/
def NoThread (s : System n) : Prop := ∀ th ∈ s.threads, th.pc = .returned

/-- The device is not bound, and no remove is at work. -/
def Phase.Unbound : Phase n → Prop
  | .idle | .probing _ => True
  | _ => False

/-- **What the driver promises** of a state, for a module loaded with some
levels on the lines: at most one LED is lit, as soon as that was so at the
beginning and in any case while the device is bound; a call of `kthread_stop`
is through a thread that the last probe has started and that was not asked to
stop; and after a remove, until a thread is started again, there is no thread
and no LED is lit. -/
structure Safe (pins : Levels n) (s : System n) : Prop where
  oneLit : AtMostOne pins → AtMostOne s.pins
  oneLitBound : ¬ s.phase.Unbound → AtMostOne s.pins
  stops : ∀ p, s.phase = .stopping p → ∃ t th, p = .task t ∧ s.threads[t]? = some th
    ∧ th.startedBy = s.probes ∧ th.shouldStop = false
  afterRemove : s.removed = true → s.phase.Unbound → NoThread s ∧ Dark s.pins

/-! ## What a step does -/

/-- **The moves of the system.** -/
inductive Move (s : System n) : Event → System n → Prop
  | probes (hphase : s.phase = .idle) :
      Move s .probe { s with phase := .probing (List.finRange n), probes := s.probes + 1 }
  | lookupFails (e : Errno) (i : Fin n) (is : List (Fin n))
      (hphase : s.phase = .probing (i :: is)) :
      Move s (.lookup (some e)) { s with phase := .idle }
  | lookups (i : Fin n) (is : List (Fin n)) (hphase : s.phase = .probing (i :: is)) :
      Move s (.lookup none)
        { s with pins := Function.update s.pins i false, phase := .probing is }
  | runFails (e : Errno) (hphase : s.phase = .probing []) :
      Move s (.kthreadRun (some e)) { s with blinkThread := .err e, phase := .idle }
  | runs (hphase : s.phase = .probing []) :
      Move s (.kthreadRun none)
        { s with
          blinkThread := .task s.threads.length
          threads := s.threads ++ [⟨.created, false, s.probes⟩]
          phase := .bound }
  | threadSteps (t : ℕ) (th : Thread n) (r : Pc n × Levels n) (hth : s.threads[t]? = some th)
      (hr : blinkFn th.shouldStop s.pins th.pc = some r) :
      Move s (.thread t) { s with pins := r.2, threads := s.threads.set t { th with pc := r.1 } }
  | removes (hphase : s.phase = .bound) :
      Move s .remove { s with phase := afterTest s.blinkThread }
  | stops (t : ℕ) (hphase : s.phase = .stopping (.task t)) :
      Move s .kthreadStop
        { s with
          threads := s.threads.modify t fun th => { th with shouldStop := true }
          phase := .waiting t }
  | stopReturns (t : ℕ) (th : Thread n) (hphase : s.phase = .waiting t)
      (hth : s.threads[t]? = some th) (hpc : th.pc = .returned) :
      Move s .kthreadStopReturns { s with phase := .clearing (turnOff n) }
  | ledOff (i : Fin n) (v : Bool) (todo : Writes n)
      (hphase : s.phase = .clearing ((i, v) :: todo)) :
      Move s .ledOff { s with pins := Function.update s.pins i v, phase := .clearing todo }
  | removeReturns (hphase : s.phase = .clearing []) :
      Move s .removeReturns { s with phase := .idle, removed := true }

/-- The moves of a probe. -/
theorem move_of_probe {s s' : System n} {e : Event} (h : myledsProbe s e = some s') :
    Move s e s' := by
  cases e with
  | probe =>
    cases hphase : s.phase with
    | idle =>
      rw [myledsProbe, hphase] at h
      exact Option.some.inj h ▸ Move.probes hphase
    | _ => simp [myledsProbe, hphase] at h
  | lookup r =>
    cases hphase : s.phase with
    | probing todo =>
      cases todo with
      | nil => simp [myledsProbe, hphase] at h
      | cons i is =>
        cases r with
        | none =>
          simp only [myledsProbe, hphase] at h
          exact Option.some.inj h ▸ Move.lookups i is hphase
        | some e =>
          simp only [myledsProbe, hphase] at h
          exact Option.some.inj h ▸ Move.lookupFails e i is hphase
    | _ => simp [myledsProbe, hphase] at h
  | kthreadRun r =>
    cases hphase : s.phase with
    | probing todo =>
      cases todo with
      | cons i is => simp [myledsProbe, hphase] at h
      | nil =>
        cases r with
        | none =>
          simp only [myledsProbe, hphase] at h
          exact Option.some.inj h ▸ Move.runs hphase
        | some e =>
          simp only [myledsProbe, hphase] at h
          exact Option.some.inj h ▸ Move.runFails e hphase
    | _ => simp [myledsProbe, hphase] at h
  | _ => simp [myledsProbe] at h

/-- The moves of a remove. -/
theorem move_of_remove {s s' : System n} {e : Event} (h : myledsRemove s e = some s') :
    Move s e s' := by
  cases e with
  | remove =>
    cases hphase : s.phase with
    | bound =>
      rw [myledsRemove, hphase] at h
      exact Option.some.inj h ▸ Move.removes hphase
    | _ => simp [myledsRemove, hphase] at h
  | kthreadStop =>
    cases hphase : s.phase with
    | stopping p =>
      cases p with
      | task t =>
        rw [myledsRemove, hphase] at h
        exact Option.some.inj h ▸ Move.stops t hphase
      | _ => simp [myledsRemove, hphase] at h
    | _ => simp [myledsRemove, hphase] at h
  | kthreadStopReturns =>
    cases hphase : s.phase with
    | waiting t =>
      rw [myledsRemove, hphase] at h
      dsimp only at h
      split at h
      · rename_i hth
        exact Option.some.inj h ▸ Move.stopReturns t _ hphase hth rfl
      · exact absurd h (Option.some_ne_none s').symm
    | _ => simp [myledsRemove, hphase] at h
  | ledOff =>
    cases hphase : s.phase with
    | clearing todo =>
      cases todo with
      | nil => simp [myledsRemove, hphase] at h
      | cons w todo =>
        rw [myledsRemove, hphase] at h
        exact Option.some.inj h ▸ Move.ledOff w.1 w.2 todo hphase
    | _ => simp [myledsRemove, hphase] at h
  | removeReturns =>
    cases hphase : s.phase with
    | clearing todo =>
      cases todo with
      | nil =>
        rw [myledsRemove, hphase] at h
        exact Option.some.inj h ▸ Move.removeReturns hphase
      | cons w todo => simp [myledsRemove, hphase] at h
    | _ => simp [myledsRemove, hphase] at h
  | _ => simp [myledsRemove] at h

/-- **Every step is one of them.** -/
theorem move_of_step {s s' : System n} {e : Event} (h : step s e = some s') : Move s e s' := by
  cases e with
  | thread t =>
    rw [step, threadStep] at h
    cases hth : s.threads[t]? with
    | none =>
      rw [hth] at h
      exact absurd h (Option.some_ne_none s').symm
    | some th =>
      rw [hth] at h
      obtain ⟨r, hr, rfl⟩ := Option.map_eq_some_iff.mp h
      exact Move.threadSteps t th r hth hr
  | probe | lookup | kthreadRun => exact move_of_probe h
  | remove | kthreadStop | kthreadStopReturns | ledOff | removeReturns => exact move_of_remove h

/-- **The lookups of a probe**, one after another up to the first that fails,
are the loop over the lines. -/
theorem run_lookups (led : Fin n → Option Errno) (is : List (Fin n)) (s : System n)
    (hphase : s.phase = .probing is) :
    ∃ k, Transition.run step s ((is.take k).map fun i => .lookup (led i)) = some { s with
      pins := (getLeds led is s.pins).1
      phase := if (getLeds led is s.pins).2 = none then .probing [] else .idle } := by
  obtain ⟨pins, p, threads, phase, probes, removed⟩ := s
  obtain rfl : phase = .probing is := hphase
  induction is generalizing pins with
  | nil => exact ⟨0, rfl⟩
  | cons i is ih =>
    cases hled : led i with
    | some e =>
      refine ⟨1, ?_⟩
      rw [getLeds, hled, List.take_succ_cons, List.map_cons, hled]
      exact Transition.run_cons_of_eq rfl []
    | none =>
      obtain ⟨k, hk⟩ := ih (Function.update pins i false)
      refine ⟨k + 1, ?_⟩
      rw [getLeds, hled, List.take_succ_cons, List.map_cons, hled]
      exact (Transition.run_cons_of_eq rfl _).trans hk

/-! ## The light of a thread -/

/-- **The LEDs a thread leaves on**, by where it is: the one it is about to turn
off, and no other. -/
def Pc.Lights : Pc n → Levels n → Prop
  | .setOff i, pins => ∀ j, pins j = decide (j = i)
  | _, pins => Dark pins

theorem atMostOne_of_dark {pins : Levels n} (h : Dark pins) : AtMostOne pins :=
  fun i _ hi _ => absurd ((h i).symm.trans hi) Bool.false_ne_true

theorem Pc.Lights.atMostOne {pc : Pc n} {pins : Levels n} (h : pc.Lights pins) :
    AtMostOne pins := by
  cases pc with
  | setOff k =>
    intro i j hi hj
    rw [h i] at hi
    rw [h j] at hj
    exact (of_decide_eq_true hi).trans (of_decide_eq_true hj).symm
  | _ => exact atMostOne_of_dark h

/-- **Every step of a thread keeps it so.** -/
theorem lights_step {shouldStop : Bool} {pins : Levels n} {pc : Pc n} {r : Pc n × Levels n}
    (h : pc.Lights pins) (hr : blinkFn shouldStop pins pc = some r) : r.1.Lights r.2 := by
  cases pc with
  | created | whileTest =>
    obtain rfl := Option.some.inj hr
    cases shouldStop <;> exact h
  | forTest i =>
    obtain rfl := Option.some.inj hr
    by_cases hi : i < n
    · rw [dif_pos hi]
      exact h
    · rw [dif_neg hi]
      exact h
  | setOn i =>
    obtain rfl := Option.some.inj hr
    intro j
    show Function.update pins i true j = decide (j = i)
    by_cases hj : j = i
    · rw [hj, Function.update_self, decide_eq_true rfl]
    · rw [Function.update_of_ne hj, h j, decide_eq_false hj]
  | setOff i =>
    obtain rfl := Option.some.inj hr
    intro j
    show Function.update pins i false j = false
    by_cases hj : j = i
    · rw [hj, Function.update_self]
    · rw [Function.update_of_ne hj, h j, decide_eq_false hj]
  | returned => exact absurd hr (Option.some_ne_none r).symm

/-- A thread that has returned takes no step. -/
theorem not_step_of_returned {th : Thread n} {pins : Levels n} {r : Pc n × Levels n}
    (h : th.pc = .returned) : blinkFn th.shouldStop pins th.pc ≠ some r := by
  rw [h]
  exact (Option.some_ne_none r).symm

/-! ## The running thread -/

/-- **One thread runs**: the others have returned, and the LEDs are as it leaves
them. -/
structure Running (s : System n) (t : ℕ) (stop : Bool) : Prop where
  others : ∀ t' th, s.threads[t']? = some th → t' ≠ t → th.pc = .returned
  thread : ∃ th, s.threads[t]? = some th ∧ th.startedBy = s.probes ∧ th.shouldStop = stop
    ∧ th.pc.Lights s.pins

theorem Running.atMostOne {s : System n} {t : ℕ} {stop : Bool} (h : Running s t stop) :
    AtMostOne s.pins := by
  obtain ⟨th, -, -, -, hlights⟩ := h.thread
  exact hlights.atMostOne

/-- A step of some thread is one of this thread. -/
theorem Running.threadSteps {s : System n} {t t' : ℕ} {stop : Bool} {th : Thread n}
    {r : Pc n × Levels n} (h : Running s t stop) (hth : s.threads[t']? = some th)
    (hr : blinkFn th.shouldStop s.pins th.pc = some r) :
    Running { s with pins := r.2, threads := s.threads.set t' { th with pc := r.1 } } t stop := by
  obtain rfl : t' = t := by
    by_contra hne
    exact not_step_of_returned (h.others t' th hth hne) hr
  obtain ⟨th', hth', hby, hstop, hlights⟩ := h.thread
  obtain rfl : th = th' := Option.some.inj (hth.symm.trans hth')
  have hlt : t' < s.threads.length := (List.getElem?_eq_some_iff.mp hth).1
  refine ⟨fun k th'' hk hne => ?_, ⟨{ th with pc := r.1 }, ?_, hby, hstop, lights_step hlights hr⟩⟩
  · rw [List.getElem?_set_ne hne.symm] at hk
    exact h.others k th'' hk hne
  · exact List.getElem?_set_self hlt

/-- Asked to stop, it is still the only one. -/
theorem Running.stops {s : System n} {t : ℕ} (h : Running s t false) :
    Running { s with
      threads := s.threads.modify t fun th => { th with shouldStop := true }
      phase := .waiting t } t true := by
  obtain ⟨th, hth, hby, -, hlights⟩ := h.thread
  refine ⟨fun k th' hk hne => ?_, ⟨{ th with shouldStop := true }, ?_, hby, rfl, hlights⟩⟩
  · exact h.others k th' ((List.getElem?_modify_ne _ s.threads hne.symm).symm.trans hk) hne
  · show (s.threads.modify t fun th => { th with shouldStop := true })[t]? = _
    rw [List.getElem?_modify_eq, hth]
    rfl

/-- **When it has returned, there is no thread and no light.** -/
theorem Running.returned {s : System n} {t : ℕ} {stop : Bool} {th : Thread n}
    (h : Running s t stop) (hth : s.threads[t]? = some th) (hpc : th.pc = .returned) :
    NoThread s ∧ Dark s.pins := by
  obtain ⟨th', hth', -, -, hlights⟩ := h.thread
  obtain rfl : th = th' := Option.some.inj (hth.symm.trans hth')
  rw [hpc] at hlights
  refine ⟨fun th' hmem => ?_, hlights⟩
  obtain ⟨k, hk⟩ := List.mem_iff_getElem?.mp hmem
  by_cases hne : k = t
  · rw [hne, hth] at hk
    exact Option.some.inj hk ▸ hpc
  · exact h.others k th' hk hne

/-- **A thread just started** is the only one, where there was none. -/
theorem running_start {s : System n} (hno : NoThread s) (hdark : Dark s.pins) :
    Running { s with
      blinkThread := .task s.threads.length
      threads := s.threads ++ [⟨.created, false, s.probes⟩]
      phase := .bound } s.threads.length false := by
  refine ⟨fun k th hk hne => hno th ?_, ⟨_, List.getElem?_concat_length, rfl, rfl, hdark⟩⟩
  have hlt : k < s.threads.length := by
    have := (List.getElem?_eq_some_iff.mp hk).1
    rw [List.length_append, List.length_singleton] at this
    omega
  rw [List.getElem?_append_left hlt] at hk
  exact List.mem_of_getElem? hk

/-! ## The invariant -/

/-- **While no thread runs**, the LEDs that are on were on from the beginning,
and none is after a remove. -/
structure Still (pins : Levels n) (s : System n) : Prop where
  noThread : NoThread s
  lit : ∀ i, s.pins i = true → pins i = true
  dark : s.removed = true → Dark s.pins

/-- **The invariant**, by the phase. -/
def Holds (pins : Levels n) (s : System n) : Prop :=
  match s.phase with
  | .idle => Still pins s
  | .probing todo => Still pins s ∧ ∀ i ∉ todo, s.pins i = false
  | .bound => ∃ t, s.blinkThread = .task t ∧ Running s t false
  | .stopping p => ∃ t, p = .task t ∧ Running s t false
  | .waiting t => Running s t true
  | .clearing todo => (NoThread s ∧ Dark s.pins) ∧ ∀ w ∈ todo, w.2 = false

theorem holds_initial (pins : Levels n) : Holds pins (initial pins) where
  noThread _ h := absurd h List.not_mem_nil
  lit _ h := h
  dark h := absurd h Bool.false_ne_true

/-- A line driven low is no LED lit. -/
theorem lit_of_update {pins : Levels n} {i j : Fin n}
    (h : Function.update pins i false j = true) : pins j = true := by
  cases hj : pins j with
  | true => rfl
  | false => exact absurd ((low_update hj i).symm.trans h) Bool.false_ne_true

/-- No thread, no step of a thread. -/
theorem NoThread.not_step {s : System n} {t : ℕ} {th : Thread n} {r : Pc n × Levels n}
    (h : NoThread s) (hth : s.threads[t]? = some th) :
    blinkFn th.shouldStop s.pins th.pc ≠ some r :=
  not_step_of_returned (h th (List.mem_of_getElem? hth))

/-- **A step of a thread keeps the invariant**, in every phase. -/
theorem holds_threadSteps {pins : Levels n} {s : System n} {t : ℕ} {th : Thread n}
    {r : Pc n × Levels n} (h : Holds pins s) (hth : s.threads[t]? = some th)
    (hr : blinkFn th.shouldStop s.pins th.pc = some r) :
    Holds pins { s with pins := r.2, threads := s.threads.set t { th with pc := r.1 } } := by
  obtain ⟨levels, p, threads, phase, probes, removed⟩ := s
  cases phase with
  | idle =>
    have hstill : Still pins _ := h
    exact absurd hr (hstill.noThread.not_step hth)
  | probing todo =>
    have hstill : Still pins _ := h.1
    exact absurd hr (hstill.noThread.not_step hth)
  | clearing todo =>
    have hno : NoThread _ := h.1.1
    exact absurd hr (hno.not_step hth)
  | bound | stopping =>
    obtain ⟨t', ht', hrun⟩ := h
    exact ⟨t', ht', hrun.threadSteps hth hr⟩
  | waiting t' => exact Running.threadSteps h hth hr

/-- **Every step keeps the invariant.** -/
theorem holds_step (pins : Levels n) (s : System n) (e : Event) (s' : System n)
    (h : Holds pins s) (hstep : step s e = some s') : Holds pins s' := by
  cases move_of_step hstep with
  | threadSteps t th r hth hr => exact holds_threadSteps h hth hr
  | probes hphase =>
    rw [Holds, hphase] at h
    obtain ⟨hno, hlit, hdark⟩ := h
    exact ⟨⟨hno, hlit, hdark⟩, fun i hi => absurd (List.mem_finRange i) hi⟩
  | lookupFails e i is hphase =>
    rw [Holds, hphase] at h
    obtain ⟨⟨hno, hlit, hdark⟩, -⟩ := h
    exact ⟨hno, hlit, hdark⟩
  | lookups i is hphase =>
    rw [Holds, hphase] at h
    obtain ⟨⟨hno, hlit, hdark⟩, hlow⟩ := h
    refine ⟨⟨hno, fun j hj => hlit j (lit_of_update hj), fun hrem j => low_update (hdark hrem j) i⟩,
      fun j hj => ?_⟩
    show Function.update s.pins i false j = false
    by_cases hji : j = i
    · rw [hji, Function.update_self]
    · exact low_update (hlow j (mt List.mem_cons.mp (not_or.mpr ⟨hji, hj⟩))) i
  | runFails e hphase =>
    rw [Holds, hphase] at h
    obtain ⟨⟨hno, hlit, hdark⟩, -⟩ := h
    exact ⟨hno, hlit, hdark⟩
  | runs hphase =>
    rw [Holds, hphase] at h
    have hdark : Dark s.pins := fun i => h.2 i List.not_mem_nil
    exact ⟨_, rfl, running_start h.1.noThread hdark⟩
  | removes hphase =>
    rw [Holds, hphase] at h
    obtain ⟨t, ht, hrun⟩ := h
    rw [ht]
    exact ⟨t, rfl, hrun.others, hrun.thread⟩
  | stops t hphase =>
    rw [Holds, hphase] at h
    obtain ⟨t', ht, hrun⟩ := h
    obtain rfl := Pointer.task.inj ht
    exact hrun.stops
  | stopReturns t th hphase hth hpc =>
    rw [Holds, hphase] at h
    exact ⟨h.returned hth hpc, fun _ => off_of_mem⟩
  | ledOff i v todo hphase =>
    rw [Holds, hphase] at h
    obtain ⟨⟨hno, hdark⟩, hoff⟩ := h
    obtain rfl : v = false := hoff (i, v) List.mem_cons_self
    exact ⟨⟨hno, fun j => low_update (hdark j) i⟩, fun w hw => hoff w (List.mem_cons_of_mem _ hw)⟩
  | removeReturns hphase =>
    rw [Holds, hphase] at h
    obtain ⟨⟨hno, hdark⟩, -⟩ := h
    exact ⟨hno, fun i hi => absurd ((hdark i).symm.trans hi) Bool.false_ne_true, fun _ => hdark⟩

/-! ## What the invariant gives -/

theorem still_of_holds {pins : Levels n} {s : System n} (h : Holds pins s)
    (hun : s.phase.Unbound) : Still pins s := by
  unfold Holds at h
  cases hphase : s.phase with
  | idle =>
    rw [hphase] at h
    exact h
  | probing todo =>
    rw [hphase] at h
    exact h.1
  | bound | stopping | waiting | clearing =>
    rw [hphase] at hun
    exact hun.elim

theorem atMostOne_of_holds {pins : Levels n} {s : System n} (h : Holds pins s)
    (hun : ¬ s.phase.Unbound) : AtMostOne s.pins := by
  unfold Holds at h
  cases hphase : s.phase with
  | idle | probing =>
    rw [hphase] at hun
    exact absurd trivial hun
  | bound | stopping =>
    rw [hphase] at h
    obtain ⟨t, -, hrun⟩ := h
    exact hrun.atMostOne
  | waiting t =>
    rw [hphase] at h
    exact Running.atMostOne h
  | clearing todo =>
    rw [hphase] at h
    exact atMostOne_of_dark h.1.2

/-- **A call of `kthread_stop`** is through the thread that runs. -/
theorem stops_of_holds {pins : Levels n} {s : System n} (h : Holds pins s) {p : Pointer}
    (hphase : s.phase = .stopping p) :
    ∃ t th, p = .task t ∧ s.threads[t]? = some th ∧ th.startedBy = s.probes
      ∧ th.shouldStop = false := by
  rw [Holds, hphase] at h
  obtain ⟨t, ht, hrun⟩ := h
  obtain ⟨th, hth, hby, hstop, -⟩ := hrun.thread
  exact ⟨t, th, ht, hth, hby, hstop⟩

/-- **The invariant gives what is promised.** -/
theorem safe_of_holds {pins : Levels n} {s : System n} (h : Holds pins s) : Safe pins s where
  oneLit hone := by
    by_cases hun : s.phase.Unbound
    · have hstill := still_of_holds h hun
      exact fun i j hi hj => hone i j (hstill.lit i hi) (hstill.lit j hj)
    · exact atMostOne_of_holds h hun
  oneLitBound := atMostOne_of_holds h
  stops _ := stops_of_holds h
  afterRemove hrem hun :=
    ⟨(still_of_holds h hun).noThread, (still_of_holds h hun).dark hrem⟩

/-! ## The two drivers -/

/-- The programs with a blinking thread. -/
inductive Program
  | ledKer
  | usrLedKer

/-- `ARRAY_SIZE(led)`. -/
def Program.leds : Program → ℕ
  | .ledKer => 3
  | .usrLedKer => 4

/-- **What the blinking drivers promise** holds in every state of every run of
either of them: any probes with any results of the lookups and of
`kthread_run`, removes of a bound device, and the thread taking its steps in
between wherever it likes. -/
theorem blink_safe (p : Program) (pins : Levels p.leds) (es : List Event) (s : System p.leds)
    (hr : Transition.Reached step (initial pins) es s) : Safe pins s :=
  safe_of_holds (Transition.invariant (holds_step pins) (holds_initial pins) hr)

/-- A binding that fails at the second LED, one that fails at the thread, and
one that is removed while the first LED is lit. -/
def blinkRun : List Event :=
  [.probe, .lookup none, .lookup (some ⟨-2, by decide⟩),
    .probe, .lookup none, .lookup none, .lookup none, .kthreadRun (some ⟨-12, by decide⟩),
    .probe, .lookup none, .lookup none, .lookup none, .kthreadRun none,
    .thread 0, .thread 0, .thread 0, .thread 0, .remove, .kthreadStop,
    .thread 0, .thread 0, .thread 0, .thread 0, .thread 0, .thread 0, .thread 0, .thread 0,
    .thread 0, .kthreadStopReturns, .ledOff, .ledOff, .ledOff, .removeReturns]

theorem blink_safe_blinkRun :
    ∃ s : System Program.ledKer.leds,
      Transition.run step (initial fun _ => false) blinkRun = some s ∧ Safe (fun _ => false) s :=
  ⟨_, rfl, blink_safe .ledKer (fun _ => false) blinkRun _ ⟨_, List.prefix_rfl, rfl⟩⟩

end Blink
