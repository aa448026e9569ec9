import EmbeddedDrivers.ButtonCounter

/-!
# Removing a button driver

The remove of a button driver turns the LEDs off and returns; only then does
the kernel release what the device has asked for, the interrupt among it. Until
that is done a press still starts the handler, which then sets the LEDs that
the remove has just turned off. Nothing turns them off again.

The model takes both apart into single calls of `gpiod_set_value`, so that any
call of the one may come between any two of the other. A variable the driver
does not have keeps track of the LEDs the handler was late for, those it has
set after the remove has turned them off.

`removal_dark_iff` is over all runs of this: the LEDs are off after every
removal exactly when no cleanup finds a digit of the counter on at an LED the
handler was late for. The counting of whole presses is what is left when
nothing comes in between (`removal_of_run`).
-/

namespace Button

open Gpio

variable {n : ℕ}

/-! ## The system -/

/-- Where a device is: unbound and never yet removed, bound, being removed with
some calls of the remove still to come, or removed and cleaned up. -/
inductive Phase (n : ℕ)
  | idle
  | bound
  | removing (todo : Writes n)
  | released

namespace Phase

/-- The interrupt is there: from the probe to the end of the cleanup. -/
def HasIrq : Phase n → Bool
  | .bound | .removing _ => true
  | .idle | .released => false

/-- The remove has turned the LED off. -/
def Passed : Phase n → Fin n → Bool
  | .removing todo, i => i ∉ todo.map Prod.fst
  | _, _ => false

theorem ne_removing {p : Phase n} (h : p.HasIrq = false) (todo : Writes n) :
    p ≠ .removing todo := by
  rintro rfl
  exact Bool.true_eq_false_eq_False h

theorem ne_released {p : Phase n} (h : p.HasIrq = true) : p ≠ .released := by
  rintro rfl
  exact Bool.true_eq_false_eq_False h.symm

end Phase

/-- **A device under removal**: the module's counter, the levels of the LEDs,
the phase, and the calls a running handler has still to make. Beside them, the
LEDs the handler was late for. -/
structure Removal (n : ℕ) where
  cnt : BitVec 32
  pins : Levels n
  phase : Phase n
  handler : Writes n
  late : Fin n → Bool

namespace Removal

/-- What can happen to it. -/
inductive Event (n : ℕ)
  | probe (env : ProbeEnv n)
  | press
  | handlerSets
  | remove
  | removeSets
  | cleanup

/-- The module just loaded. -/
def initial (pins : Levels n) : Removal n := ⟨0, pins, .idle, [], fun _ => false⟩

variable (d : Driver n)

/-- **One step.** A press starts the handler, which counts at once and sets its
LEDs one by one; the kernel starts no second one while the first is running.
The cleanup waits for the handler. -/
def step (s : Removal n) : Event n → Option (Removal n)
  | .probe env =>
    match s.phase with
    | .idle | .released =>
      let r := d.btnLedProbe env s.pins
      some { s with pins := r.2, phase := if r.1 = 0 then .bound else s.phase }
    | _ => none
  | .press =>
    if s.phase.HasIrq ∧ s.handler = [] then
      some { s with cnt := (d.buttonIrqThread s.cnt).1, handler := (d.buttonIrqThread s.cnt).2 }
    else none
  | .handlerSets =>
    match s.handler with
    | [] => none
    | (i, v) :: rest =>
      some { s with
        pins := Function.update s.pins i v
        handler := rest
        late := Function.update s.late i (s.phase.Passed i) }
  | .remove =>
    match s.phase with
    | .bound => some { s with phase := .removing d.btnLedRemove, late := fun _ => false }
    | _ => none
  | .removeSets =>
    match s.phase with
    | .removing ((i, v) :: todo) =>
      some { s with pins := Function.update s.pins i v, phase := .removing todo }
    | _ => none
  | .cleanup =>
    match s.phase with
    | .removing [] => if s.handler = [] then some { s with phase := .released } else none
    | _ => none

/-- **Off after the removal**: once the cleanup has completed, and until a probe
binds the device again, all LEDs are off. -/
def OffAfter (s : Removal n) : Prop := s.phase = .released → Dark s.pins

/-- The condition: a cleanup finds the digit off at every LED the handler was
late for. -/
def InTime (s : Removal n) : Event n → Prop
  | .cleanup => ∀ i, s.late i = true → digits n s.cnt.toNat i = false
  | _ => True

instance (s : Removal n) : ∀ e, Decidable (s.InTime e)
  | .cleanup =>
    inferInstanceAs (Decidable (∀ i, s.late i = true → digits n s.cnt.toNat i = false))
  | .probe _ | .press | .handlerSets | .remove | .removeSets => isTrue trivial

/-! ## What a step does -/

variable {d}

/-- **The moves of the system.** -/
inductive Move (d : Driver n) (s : Removal n) : Event n → Removal n → Prop
  | fails (env : ProbeEnv n) (pins : Levels n) (hirq : s.phase.HasIrq = false)
      (hdark : Dark s.pins → Dark pins) : Move d s (.probe env) { s with pins := pins }
  | binds (env : ProbeEnv n) (pins : Levels n) (hirq : s.phase.HasIrq = false) :
      Move d s (.probe env) { s with pins := pins, phase := .bound }
  | presses (hirq : s.phase.HasIrq = true) (hhandler : s.handler = []) :
      Move d s .press
        { s with cnt := (d.buttonIrqThread s.cnt).1, handler := (d.buttonIrqThread s.cnt).2 }
  | handlerSets (i : Fin n) (v : Bool) (rest : Writes n) (hhandler : s.handler = (i, v) :: rest) :
      Move d s .handlerSets
        { s with
          pins := Function.update s.pins i v
          handler := rest
          late := Function.update s.late i (s.phase.Passed i) }
  | starts (hphase : s.phase = .bound) :
      Move d s .remove { s with phase := .removing (turnOff n), late := fun _ => false }
  | removeSets (i : Fin n) (v : Bool) (todo : Writes n)
      (hphase : s.phase = .removing ((i, v) :: todo)) :
      Move d s .removeSets
        { s with pins := Function.update s.pins i v, phase := .removing todo }
  | cleans (hphase : s.phase = .removing []) (hhandler : s.handler = []) :
      Move d s .cleanup { s with phase := .released }

/-- A probe of a device without its interrupt. -/
theorem move_of_probe {s s' : Removal n} {env : ProbeEnv n} (hirq : s.phase.HasIrq = false)
    (h : step d s (.probe env) = some s') : Move d s (.probe env) s' := by
  have hstep : step d s (.probe env)
      = some { s with
          pins := (d.btnLedProbe env s.pins).2
          phase := if (d.btnLedProbe env s.pins).1 = 0 then .bound else s.phase } := by
    obtain ⟨cnt, pins, phase, handler, late⟩ := s
    cases phase with
    | idle | released => rfl
    | bound | removing => exact absurd hirq Bool.true_eq_false_eq_False
  rw [hstep] at h
  obtain rfl := Option.some.inj h
  by_cases hret : (d.btnLedProbe env s.pins).1 = 0
  · rw [if_pos hret]
    exact Move.binds env _ hirq
  · rw [if_neg hret]
    exact Move.fails env _ hirq (d.dark_probe env s.pins)

/-- **Every step is one of them.** -/
theorem move_of_step {s s' : Removal n} {e : Event n} (h : step d s e = some s') :
    Move d s e s' := by
  cases e with
  | probe env =>
    refine move_of_probe ?_ h
    cases hphase : s.phase with
    | idle | released => rfl
    | bound | removing => simp [step, hphase] at h
  | press =>
    rw [step] at h
    split at h
    · rename_i hcond
      exact Option.some.inj h ▸ Move.presses hcond.1 hcond.2
    · exact absurd h (Option.some_ne_none s').symm
  | handlerSets =>
    cases hhandler : s.handler with
    | nil => simp [step, hhandler] at h
    | cons w rest =>
      rw [step, hhandler] at h
      exact Option.some.inj h ▸ Move.handlerSets w.1 w.2 rest hhandler
  | remove =>
    cases hphase : s.phase with
    | bound =>
      rw [step, hphase, d.remove_eq] at h
      exact Option.some.inj h ▸ Move.starts hphase
    | idle | removing | released => simp [step, hphase] at h
  | removeSets =>
    cases hphase : s.phase with
    | removing todo =>
      cases todo with
      | nil => simp [step, hphase] at h
      | cons w todo =>
        rw [step, hphase] at h
        exact Option.some.inj h ▸ Move.removeSets w.1 w.2 todo hphase
    | idle | bound | released => simp [step, hphase] at h
  | cleanup =>
    cases hphase : s.phase with
    | removing todo =>
      cases todo with
      | nil =>
        rw [step, hphase] at h
        dsimp only at h
        split at h
        · rename_i hhandler
          exact Option.some.inj h ▸ Move.cleans hphase hhandler
        · exact absurd h (Option.some_ne_none s').symm
      | cons w todo => simp [step, hphase] at h
    | idle | bound | released => simp [step, hphase] at h

/-! ## The remove and the handler -/

/-- **While the device is being removed**: the calls to come turn LEDs off; an
LED the remove has turned off is off as long as no handler was late for it, and
then shows the digit of the counter, once the handler has made its call. -/
structure Removing (s : Removal n) (todo : Writes n) : Prop where
  turnsOff : ∀ w ∈ todo, w.2 = false
  passed : ∀ i, s.late i = true → i ∉ todo.map Prod.fst
  off : ∀ i, i ∉ todo.map Prod.fst → s.late i = false → s.pins i = false
  shown : ∀ i, s.late i = true → i ∉ s.handler.map Prod.fst →
    s.pins i = digits n s.cnt.toNat i

/-- Every LED is one of those set by one call for each. -/
theorem mem_keys (v : Levels n) (i : Fin n) :
    i ∈ ((List.finRange n).map fun i => (i, v i)).map Prod.fst := by
  rw [List.map_map]
  exact List.mem_map_of_mem (List.mem_finRange i)

/-- The remove has all its calls to come at its start. -/
theorem removing_start (s : Removal n) :
    Removing { s with phase := .removing (turnOff n), late := fun _ => false } (turnOff n) where
  turnsOff _ := off_of_mem
  passed _ hlate := absurd hlate Bool.false_ne_true
  off i hi := absurd (mem_keys (fun _ => false) i) hi
  shown _ hlate := absurd hlate Bool.false_ne_true

/-- **A press in between**: the handler just started has every LED still to
set. -/
theorem Removing.presses {s : Removal n} {todo : Writes n} (h : Removing s todo)
    (hcnt : s.cnt.toNat < 2 ^ n) :
    Removing { s with
      cnt := (d.buttonIrqThread s.cnt).1, handler := (d.buttonIrqThread s.cnt).2 } todo := by
  refine ⟨h.turnsOff, h.passed, h.off, fun i _ hdone => absurd ?_ hdone⟩
  show i ∈ (d.buttonIrqThread s.cnt).2.map Prod.fst
  rw [d.shows s.cnt hcnt]
  exact mem_keys (digits n (d.buttonIrqThread s.cnt).1.toNat) i

/-- **One call of the remove.** -/
theorem Removing.removeSets {s : Removal n} {i : Fin n} {v : Bool} {todo : Writes n}
    (h : Removing s ((i, v) :: todo)) :
    Removing { s with pins := Function.update s.pins i v, phase := .removing todo } todo := by
  have hv : v = false := h.turnsOff (i, v) List.mem_cons_self
  have hlate : ∀ j, s.late j = true → j ≠ i ∧ j ∉ todo.map Prod.fst := fun j hj =>
    not_or.mp (mt List.mem_cons.mpr (h.passed j hj))
  refine ⟨fun w hw => h.turnsOff w (List.mem_cons_of_mem _ hw), fun j hj => (hlate j hj).2,
    fun j hj hnot => ?_, fun j hj hdone => ?_⟩
  · show Function.update s.pins i v j = false
    by_cases hji : j = i
    · rw [hji, Function.update_self, hv]
    · rw [Function.update_of_ne hji]
      exact h.off j (mt List.mem_cons.mp (not_or.mpr ⟨hji, hj⟩)) hnot
  · show Function.update s.pins i v j = digits n s.cnt.toNat j
    rw [Function.update_of_ne (hlate j hj).1]
    exact h.shown j hj hdone

/-- **One call of a handler**: it is late where the remove has been. -/
theorem Removing.handlerSets {s : Removal n} {i : Fin n} {v : Bool} {rest todo : Writes n}
    (h : Removing s todo) (hphase : s.phase = .removing todo)
    (hhandler : s.handler = (i, v) :: rest) (hv : v = digits n s.cnt.toNat i) :
    Removing { s with
      pins := Function.update s.pins i v
      handler := rest
      late := Function.update s.late i (s.phase.Passed i) } todo := by
  have hpassed : s.phase.Passed i = decide (i ∉ todo.map Prod.fst) := by rw [hphase]; rfl
  refine ⟨h.turnsOff, fun j (hj : Function.update s.late i _ j = true) => ?_,
    fun j hj (hnot : Function.update s.late i _ j = false) => ?_,
    fun j (hj : Function.update s.late i _ j = true) hdone => ?_⟩
  · by_cases hji : j = i
    · rw [hji, Function.update_self, hpassed] at hj
      exact hji ▸ of_decide_eq_true hj
    · rw [Function.update_of_ne hji] at hj
      exact h.passed j hj
  · show Function.update s.pins i v j = false
    by_cases hji : j = i
    · rw [hji, Function.update_self, hpassed] at hnot
      exact absurd (hji ▸ hj) (of_decide_eq_false hnot)
    · rw [Function.update_of_ne hji] at hnot ⊢
      exact h.off j hj hnot
  · show Function.update s.pins i v j = digits n s.cnt.toNat j
    by_cases hji : j = i
    · rw [hji, Function.update_self, hv]
    · rw [Function.update_of_ne hji] at hj ⊢
      refine h.shown j hj ?_
      rw [hhandler]
      exact mt List.mem_cons.mp (not_or.mpr ⟨hji, hdone⟩)

/-- **What the removal leaves**: the digits of the counter at the LEDs a handler
was late for, and the others off. -/
theorem Removing.pins {s : Removal n} (h : Removing s []) (hhandler : s.handler = [])
    (i : Fin n) : s.pins i = (s.late i && digits n s.cnt.toNat i) := by
  cases hlate : s.late i with
  | false => exact h.off i List.not_mem_nil hlate
  | true => exact h.shown i hlate (by rw [hhandler]; exact List.not_mem_nil)

/-! ## The invariant -/

/-- **The invariant**: the counter in its range, a running handler on its way to
show it, no handler without the interrupt, the removal as it should be, and the
LEDs off after it. -/
structure Tracks (s : Removal n) : Prop where
  counter : s.cnt.toNat < 2 ^ n
  handler : ∀ w ∈ s.handler, w.2 = digits n s.cnt.toNat w.1
  idle : s.phase.HasIrq = false → s.handler = []
  removing : ∀ todo, s.phase = .removing todo → Removing s todo
  off : s.OffAfter

theorem tracks_initial (pins : Levels n) : Tracks (initial pins) where
  counter := Nat.two_pow_pos n
  handler _ hw := absurd hw List.not_mem_nil
  idle _ := rfl
  removing _ h := by cases h
  off h := by cases h

/-- **A step keeps it that meets the condition.** -/
theorem tracks_step (s : Removal n) (e : Event n) (s' : Removal n) (h : Tracks s)
    (he : InTime s e) (hstep : step d s e = some s') : Tracks s' := by
  cases move_of_step hstep with
  | fails env pins hirq hdark =>
    exact ⟨h.counter, h.handler, h.idle,
      fun todo hphase => absurd hphase (Phase.ne_removing hirq todo),
      fun hphase => hdark (h.off hphase)⟩
  | binds env pins hirq =>
    refine ⟨h.counter, h.handler, fun _ => h.idle hirq, fun todo hphase => ?_, fun hphase => ?_⟩
    · cases hphase
    · cases hphase
  | presses hirq hhandler =>
    refine ⟨?_, fun w hw => ?_, fun hnot => ?_, fun todo hphase => ?_, fun hphase => ?_⟩
    · show (d.buttonIrqThread s.cnt).1.toNat < 2 ^ n
      rw [d.counts s.cnt h.counter]
      exact Nat.mod_lt _ (Nat.two_pow_pos n)
    · have hshows : w ∈ (d.buttonIrqThread s.cnt).2 := hw
      rw [d.shows s.cnt h.counter] at hshows
      obtain ⟨i, -, rfl⟩ := List.mem_map.mp hshows
      rfl
    · exact absurd (hirq.symm.trans hnot) Bool.true_eq_false_eq_False
    · exact (h.removing todo hphase).presses h.counter
    · exact absurd hphase (Phase.ne_released hirq)
  | handlerSets i v rest hhandler =>
    have hv : v = digits n s.cnt.toNat i :=
      h.handler (i, v) (by rw [hhandler]; exact List.mem_cons_self)
    have hirq : s.phase.HasIrq = true := by
      refine Bool.eq_true_of_not_eq_false (fun hnot => ?_)
      rw [h.idle hnot] at hhandler
      exact absurd hhandler (List.cons_ne_nil _ _).symm
    refine ⟨h.counter, fun w hw => h.handler w ?_,
      fun hnot => absurd (hirq.symm.trans hnot) Bool.true_eq_false_eq_False,
      fun todo hphase => (h.removing todo hphase).handlerSets hphase hhandler hv,
      fun hphase => absurd hphase (Phase.ne_released hirq)⟩
    rw [hhandler]
    exact List.mem_cons_of_mem _ hw
  | starts hphase =>
    refine ⟨h.counter, h.handler, fun hnot => ?_, fun todo htodo => ?_, fun hrel => ?_⟩
    · cases hnot
    · obtain rfl := Phase.removing.inj htodo
      exact removing_start s
    · cases hrel
  | removeSets i v todo hphase =>
    refine ⟨h.counter, h.handler, fun hnot => ?_, fun todo' htodo => ?_, fun hrel => ?_⟩
    · cases hnot
    · obtain rfl := Phase.removing.inj htodo
      exact (h.removing _ hphase).removeSets
    · cases hrel
  | cleans hphase hhandler =>
    refine ⟨h.counter, h.handler, fun _ => hhandler, fun todo htodo => ?_, fun _ i => ?_⟩
    · cases htodo
    · show s.pins i = false
      rw [(h.removing [] hphase).pins hhandler i]
      cases hlate : s.late i with
      | false => rfl
      | true => rw [he i hlate]; rfl

/-- **A step that does not meet it leaves an LED on.** -/
theorem not_offAfter_step (s : Removal n) (e : Event n) (s' : Removal n) (h : Tracks s)
    (he : ¬ InTime s e) (hstep : step d s e = some s') : ¬ s'.OffAfter := by
  cases move_of_step hstep with
  | fails | binds | presses | handlerSets | starts | removeSets => exact absurd trivial he
  | cleans hphase hhandler =>
    intro hoff
    refine he (fun i hlate => ?_)
    have hpins : s.pins i = false := hoff rfl i
    rwa [(h.removing [] hphase).pins hhandler i, hlate, Bool.true_and] at hpins

/-- **When the LEDs are off after a removal.** Over every run of either board –
any probes, any presses while the interrupt is there, any removals, and any
order of the calls of a handler and of the remove – the LEDs are off in every
state after a cleanup, until a probe binds the device again, exactly when each
cleanup finds the digit of the counter off at every LED that the handler has
set after the remove has turned it off. -/
theorem removal_dark_iff (b : Board) (pins : Levels b.leds) (es : List (Event b.leds))
    (u : Removal b.leds)
    (hrun : Transition.run (step b.driver) (initial pins) es = some u) :
    (∀ s, Transition.Reached (step b.driver) (initial pins) es s → s.OffAfter)
      ↔ Transition.AllOk (step b.driver) InTime (initial pins) es :=
  (Transition.allOk_iff_forall_reached tracks_step (fun _ h => h.off) not_offAfter_step
    (tracks_initial pins) hrun).symm

/-- A run in which a second press comes after the remove has turned the LED
off, and turns it off once more. -/
def secondPress (n : ℕ) : List (Event n) :=
  [.probe (goodProbe n), .press, .handlerSets, .remove, .removeSets, .press, .handlerSets,
    .cleanup]

theorem removal_dark_iff_secondPress :
    ∃ s, Transition.run (step Board.raspberryPi.driver) (initial fun _ => true) (secondPress _)
        = some s ∧ s.OffAfter :=
  ⟨_, rfl, (removal_dark_iff .raspberryPi (fun _ => true) (secondPress _) _ rfl).mpr
    (by decide) _ ⟨_, List.prefix_rfl, rfl⟩⟩

/-- The LEDs of a board are off after every removal, in every run. -/
def LedsOff (b : Board) : Prop :=
  ∀ (pins : Levels b.leds) (es : List (Event b.leds)) (s : Removal b.leds),
    Transition.Reached (step b.driver) (initial pins) es s → s.OffAfter

/-- A press that comes when the remove has made all its calls. -/
def latePress (n : ℕ) : List (Event n) :=
  [.probe (goodProbe n), .remove] ++ List.replicate n .removeSets ++ [.press]
    ++ List.replicate n .handlerSets ++ [.cleanup]

/-- **Not over every run**, of neither board: a press between the remove and the
cleanup leaves an LED on. -/
theorem not_ledsOff : ¬ LedsOff .beagleBone ∧ ¬ LedsOff .raspberryPi := by
  constructor
  · intro h
    have hoff := h (fun _ => false) (latePress 4) _ ⟨_, List.prefix_rfl, rfl⟩ rfl
    exact absurd (hoff (0 : Fin 4)) (by decide)
  · intro h
    have hoff := h (fun _ => false) (latePress 1) _ ⟨_, List.prefix_rfl, rfl⟩ rfl
    exact absurd (hoff (0 : Fin 1)) (by decide)

/-! ## Nothing in between

Where no handler and no remove is interrupted, the model is the one that counts
presses. -/

/-- A running handler of a bound device, left alone. -/
theorem run_handlerSets (s : Removal n) (hphase : s.phase = .bound) :
    ∃ late, Transition.run (step d) s (List.replicate s.handler.length .handlerSets)
      = some { s with pins := setValues s.pins s.handler, handler := [], late := late } := by
  obtain ⟨cnt, pins, phase, handler, late⟩ := s
  obtain rfl : phase = .bound := hphase
  induction handler generalizing pins late with
  | nil => exact ⟨late, rfl⟩
  | cons w rest ih =>
    obtain ⟨late', hrun⟩ := ih (Function.update pins w.1 w.2) (Function.update late w.1 false)
    exact ⟨late', (Transition.run_cons_of_eq rfl _).trans hrun⟩

/-- A remove, left alone. -/
theorem run_removeSets (s : Removal n) (todo : Writes n) (hphase : s.phase = .removing todo) :
    Transition.run (step d) s (List.replicate todo.length .removeSets)
      = some { s with pins := setValues s.pins todo, phase := .removing [] } := by
  obtain ⟨cnt, pins, phase, handler, late⟩ := s
  obtain rfl : phase = .removing todo := hphase
  induction todo generalizing pins with
  | nil => rfl
  | cons w todo ih =>
    exact (Transition.run_cons_of_eq rfl _).trans (ih (Function.update pins w.1 w.2))

/-- **The state of the counting model**, with no handler and no remove at work. -/
structure Matches (c : Counting n) (s : Removal n) : Prop where
  cnt : s.cnt = c.cnt
  pins : s.pins = c.pins
  handler : s.handler = []
  bound : c.bound = true → s.phase = .bound
  unbound : c.bound = false → s.phase = .idle ∨ s.phase = .released

/-- A probe of a device without its interrupt is possible. -/
theorem step_probe (s : Removal n) (env : ProbeEnv n)
    (hphase : s.phase = .idle ∨ s.phase = .released) :
    step d s (.probe env) = some { s with
      pins := (d.btnLedProbe env s.pins).2
      phase := if (d.btnLedProbe env s.pins).1 = 0 then .bound else s.phase } := by
  rcases hphase with hphase | hphase <;> rw [step, hphase]

/-- **A step of the counting model is a run of this one.** -/
theorem removal_of_step {c c' : Counting n} {s : Removal n} {e : Button.Event n}
    (h : Matches c s) (hstep : Button.step d c e = some c') :
    ∃ es s', Transition.run (step d) s es = some s' ∧ Matches c' s' := by
  cases Button.move_of_step hstep with
  | fails env hidle hret =>
    refine ⟨[.probe env], _, Transition.run_cons_of_eq (step_probe s env (h.unbound hidle)) [],
      h.cnt, ?_, h.handler, fun hb => absurd (hidle.symm.trans hb) Bool.false_ne_true, fun _ => ?_⟩
    · rw [h.pins]
    · rw [h.pins, if_neg hret]
      exact h.unbound hidle
  | binds env hidle hret =>
    refine ⟨[.probe env], _, Transition.run_cons_of_eq (step_probe s env (h.unbound hidle)) [],
      h.cnt, ?_, h.handler, fun _ => ?_, fun hnot => absurd hnot Bool.true_eq_false_eq_False⟩
    · rw [h.pins]
    · rw [h.pins, if_pos hret]
  | presses hb =>
    obtain ⟨cnt, pins, phase, handler, late⟩ := s
    obtain ⟨rfl, rfl, rfl, hbound, -⟩ := h
    obtain rfl : phase = .bound := hbound hb
    obtain ⟨late', hrun⟩ := run_handlerSets (d := d)
      ⟨(d.buttonIrqThread c.cnt).1, c.pins, .bound, (d.buttonIrqThread c.cnt).2, late⟩ rfl
    exact ⟨.press :: List.replicate (d.buttonIrqThread c.cnt).2.length .handlerSets,
      ⟨_, _, .bound, [], late'⟩, (Transition.run_cons_of_eq rfl _).trans hrun, rfl, rfl, rfl,
      fun _ => rfl, fun hnot => absurd (hb.symm.trans hnot) Bool.true_eq_false_eq_False⟩
  | removes hb =>
    obtain ⟨cnt, pins, phase, handler, late⟩ := s
    obtain ⟨rfl, rfl, rfl, hbound, -⟩ := h
    obtain rfl : phase = .bound := hbound hb
    refine ⟨.remove :: (List.replicate d.btnLedRemove.length .removeSets ++ [.cleanup]),
      ⟨_, _, .released, [], fun _ => false⟩, ?_, rfl, rfl, rfl,
      fun hnot => absurd hnot Bool.false_ne_true, fun _ => Or.inr rfl⟩
    rw [Transition.run_cons_of_eq rfl, Transition.run_append_of_eq
      (run_removeSets ⟨c.cnt, c.pins, .removing d.btnLedRemove, [], fun _ => false⟩ _ rfl)]
    rfl

theorem run_of_matches {c c' : Counting n} {s : Removal n} {es : List (Button.Event n)}
    (h : Matches c s) (hrun : Transition.run (Button.step d) c es = some c') :
    ∃ fs s', Transition.run (step d) s fs = some s' ∧ Matches c' s' := by
  induction es generalizing c s with
  | nil => exact ⟨[], s, rfl, Option.some.inj hrun ▸ h⟩
  | cons e es ih =>
    rw [Transition.run_cons] at hrun
    obtain ⟨c₁, hstep, hrest⟩ := Option.bind_eq_some_iff.mp hrun
    obtain ⟨fs, s₁, hfs, hmatch⟩ := removal_of_step h hstep
    obtain ⟨gs, s', hgs, hmatch'⟩ := ih hmatch hrest
    exact ⟨fs ++ gs, s', (Transition.run_append_of_eq hfs gs).trans hgs, hmatch'⟩

/-- **A run of the counting model is one of this**, from the loading of the
module on. -/
theorem removal_of_run (pins : Levels n) {c : Counting n} {es : List (Button.Event n)}
    (hrun : Transition.run (Button.step d) (Counting.initial pins) es = some c) :
    ∃ fs s, Transition.run (step d) (initial pins) fs = some s ∧ Matches c s :=
  run_of_matches
    ⟨rfl, rfl, rfl, fun h => absurd h Bool.false_ne_true, fun _ => Or.inl rfl⟩ hrun

end Removal

end Button
