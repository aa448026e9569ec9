import EmbeddedDrivers.ButtonCounter
import EmbeddedDrivers.Simulation

/-!
# One button driver inside the other

The driver with one LED keeps a bit and flips it, the one with four keeps a
number and counts to sixteen. Put side by side – the same presses, the same
bindings and unbindings – the one is a part of the other: its LED shows what the
first LED of the other shows, and its bit is the last bit of the other's
counter.

The same bindings means no more than that a probe of the one succeeds where a
probe of the other does. They ask for different lines, and where both fail they
may fail for different reasons, with different codes and different lines got by
then. A probe succeeds if nothing that is asked for is missing (`Succeeds`), and
that is all the two boards have to have in common.

This is not said of a count that starts with the binding. Both keep their
variable when the device is unbound, and so both are wrong in the same way after
a new binding, and they still agree. What they do not agree on is a device that
is not bound: the levels of its lines then depend on which lookups have
succeeded.
-/

namespace Button

open Gpio

/-! ## Any two drivers -/

section Drivers

variable {n m : ℕ}

/-- **A probe that is given all it asks for.** -/
structure ProbeEnv.Succeeds (env : ProbeEnv n) : Prop where
  leds : ∀ i, env.led i = none
  button : env.btn = none
  irq : 0 ≤ env.irq
  request : env.request = 0

/-- **The same events**: presses and removes, and probes that succeed together or
fail together, each for its own reasons. -/
inductive Alike : Event n → Event m → Prop
  | probe {env : ProbeEnv n} {env' : ProbeEnv m} (h : env.Succeeds ↔ env'.Succeeds) :
      Alike (.probe env) (.probe env')
  | press : Alike .press .press
  | remove : Alike .remove .remove

/-- **Two drivers agree**: they are bound or not together, have seen the same
presses, and while they are bound the LEDs that both have are the same. -/
structure Agree (hle : m ≤ n) (s : Counting n) (t : Counting m) : Prop where
  bound : t.bound = s.bound
  before : t.before = s.before
  since : t.since = s.since
  counts : s.Counts
  counts' : t.Counts
  leds : s.bound = true → ∀ i, t.pins i = s.pins (Fin.castLE hle i)

/-- The lower digits of a number are those of its remainder. -/
theorem digits_castLE (hle : m ≤ n) (k : ℕ) (i : Fin m) :
    digits m (k % 2 ^ m) i = digits n (k % 2 ^ n) (Fin.castLE hle i) := by
  show (k % 2 ^ m).testBit i = (k % 2 ^ n).testBit i
  rw [Nat.testBit_mod_two_pow, Nat.testBit_mod_two_pow, decide_eq_true i.isLt,
    decide_eq_true (i.isLt.trans_le hle)]

/-- The counter of the one is the remainder of the other's. -/
theorem Agree.cnt {hle : m ≤ n} {s : Counting n} {t : Counting m} (h : Agree hle s t) :
    t.cnt.toNat = s.cnt.toNat % 2 ^ m := by
  rw [show t.cnt.toNat = _ from h.counts', show s.cnt.toNat = _ from h.counts, h.before, h.since,
    Nat.mod_mod_of_dvd _ (pow_dvd_pow 2 hle)]

theorem agree_initial (hle : m ≤ n) (pins : Levels n) (pins' : Levels m) :
    Agree hle (Counting.initial pins) (Counting.initial pins') :=
  ⟨rfl, rfl, rfl, counts_initial pins, counts_initial pins', fun h => absurd h Bool.false_ne_true⟩

variable {d : Driver n} {d' : Driver m}

/-- **Step by step**, where a probe returns zero if it is given all it asks for. -/
theorem agree_follows (hle : m ≤ n) (hd : ∀ env pins, (d.btnLedProbe env pins).1 = 0 ↔ env.Succeeds)
    (hd' : ∀ env pins, (d'.btnLedProbe env pins).1 = 0 ↔ env.Succeeds) :
    Transition.Follows (step d) (step d') Alike (fun _ _ => True) (Agree hle) := by
  rintro s t e f h hef -
  cases hbound : s.bound with
  | false =>
    have hidle : t.bound = false := h.bound.trans hbound
    cases hef with
    | press | remove => simp [step, hbound, hidle]
    | @probe env env' halike =>
      have hret : (d'.btnLedProbe env' t.pins).1 = 0 ↔ (d.btnLedProbe env s.pins).1 = 0 :=
        (hd' env' t.pins).trans (halike.symm.trans (hd env s.pins).symm)
      simp only [step, hbound, hidle, Bool.false_eq_true, if_false]
      by_cases hzero : (d.btnLedProbe env s.pins).1 = 0
      · rw [if_pos hzero, if_pos (hret.mpr hzero)]
        -- both are dark after it
        have hdark := d.dark_bound env s.pins hzero
        have hdark' := d'.dark_bound env' t.pins (hret.mpr hzero)
        have hsum : t.before + t.since = s.before + s.since := by rw [h.before, h.since]
        exact .some ⟨rfl, hsum, rfl, h.counts, h.counts',
          fun _ i => (hdark' i).trans (hdark (Fin.castLE hle i)).symm⟩
      · rw [if_neg hzero, if_neg (mt hret.mp hzero)]
        exact .some ⟨rfl, h.before, h.since, h.counts, h.counts',
          fun hb => absurd hb Bool.false_ne_true⟩
  | true =>
    have hup : t.bound = true := h.bound.trans hbound
    cases hef with
    | probe => simp [step, hbound, hup]
    | press =>
      have hs : step d s .press = some _ := if_pos hbound
      have ht : step d' t .press = some _ := if_pos hup
      have hcounts := counts_step s .press _ h.counts hs
      have hcounts' := counts_step t .press _ h.counts' ht
      rw [hs, ht]
      refine .some ⟨h.bound, h.before, congrArg (· + 1) h.since, hcounts, hcounts', fun _ i => ?_⟩
      dsimp only
      rw [pins_of_press h.counts, pins_of_press h.counts', h.before, h.since]
      exact digits_castLE hle _ i
    | remove =>
      have hs : step d s .remove = some _ := if_pos hbound
      have ht : step d' t .remove = some _ := if_pos hup
      rw [hs, ht]
      exact .some ⟨rfl, h.before, h.since, h.counts, h.counts',
        fun hb => absurd hb Bool.false_ne_true⟩

end Drivers

/-! ## The two boards -/

/-- The error of the loop is that of the first lookup that fails. -/
theorem getLeds_error {n : ℕ} (led : Fin n → Option Errno) (is : List (Fin n)) (pins : Levels n) :
    (getLeds led is pins).2 = is.findSome? led := by
  induction is generalizing pins with
  | nil => rfl
  | cons i is ih =>
    rw [getLeds, List.findSome?_cons]
    cases led i with
    | some e => rfl
    | none => exact ih _

/-- There is none if all lines are got. -/
theorem getLeds_eq_none_iff {n : ℕ} (led : Fin n → Option Errno) (pins : Levels n) :
    (getLeds led (List.finRange n) pins).2 = none ↔ ∀ i, led i = none := by
  rw [getLeds_error, List.findSome?_eq_none_iff]
  exact ⟨fun h i => h i (List.mem_finRange i), fun h i _ => h i⟩

/-- The checks both probes end with. -/
theorem checks_eq_zero_iff {α : Type} (irq request : ℤ) (pins : α) :
    (if irq < 0 then (irq, pins) else if request ≠ 0 then (request, pins) else (0, pins)).1 = 0
      ↔ 0 ≤ irq ∧ request = 0 := by
  by_cases hirq : irq < 0
  · rw [if_pos hirq]
    exact iff_of_false hirq.ne (fun h => absurd h.1 (by omega))
  · rw [if_neg hirq]
    by_cases hrequest : request = 0
    · rw [if_neg (not_not.mpr hrequest)]
      exact iff_of_true rfl ⟨by omega, hrequest⟩
    · rw [if_pos hrequest]
      exact iff_of_false hrequest (fun h => hrequest h.2)

/-- **The BeagleBone's probe** returns zero if it is given all it asks for. -/
theorem BtnIrqLed.probe_eq_zero_iff (env : ProbeEnv 4) (pins : Levels 4) :
    (btnLedProbe env pins).1 = 0 ↔ env.Succeeds := by
  have hleds := getLeds_eq_none_iff env.led pins
  unfold btnLedProbe
  generalize getLeds env.led (List.finRange 4) pins = got at hleds ⊢
  obtain ⟨left, err⟩ := got
  cases err with
  | some e =>
    exact iff_of_false (Errno.ne_zero e) fun h => absurd (hleds.mpr h.leds) (Option.some_ne_none e)
  | none =>
    dsimp only
    cases hbtn : env.btn with
    | some e =>
      exact iff_of_false (Errno.ne_zero e)
        fun h => absurd (hbtn.symm.trans h.button) (Option.some_ne_none e)
    | none =>
      exact (checks_eq_zero_iff env.irq env.request left).trans
        ⟨fun h => ⟨hleds.mp rfl, hbtn, h.1, h.2⟩, fun h => ⟨h.irq, h.request⟩⟩

/-- **So does the Raspberry Pi's.** -/
theorem BtnIrq.probe_eq_zero_iff (env : ProbeEnv 1) (pins : Levels 1) :
    (btnLedProbe env pins).1 = 0 ↔ env.Succeeds := by
  have hled : (getLeds env.led [0] pins).2 = none ↔ ∀ i, env.led i = none :=
    getLeds_eq_none_iff env.led pins
  unfold btnLedProbe
  dsimp only
  generalize getLeds env.led [0] pins = got at hled ⊢
  obtain ⟨left, err⟩ := got
  cases err with
  | some e =>
    exact iff_of_false (Errno.ne_zero e) fun h => absurd (hled.mpr h.leds) (Option.some_ne_none e)
  | none =>
    dsimp only
    cases hbtn : env.btn with
    | some e =>
      exact iff_of_false (Errno.ne_zero e)
        fun h => absurd (hbtn.symm.trans h.button) (Option.some_ne_none e)
    | none =>
      exact (checks_eq_zero_iff env.irq env.request left).trans
        ⟨fun h => ⟨hled.mp rfl, hbtn, h.1, h.2⟩, fun h => ⟨h.irq, h.request⟩⟩

/-- **The LED of the Raspberry Pi is the first of the BeagleBone.** Through any
events that are the same for both – presses and removes in any order, and probes
that succeed together or fail together, for whatever reasons – the one driver can
go exactly as far as the other, its variable is the last bit of the other's
counter, and while the device is bound its LED shows what the other's first LED
shows. A probe of either succeeds exactly if it is given all it asks for. -/
theorem boards_agree (pins : Levels 4) (pins' : Levels 1) {es : List (Event 4)}
    {es' : List (Event 1)} (hes : List.Forall₂ Alike es es') :
    Option.Rel (fun s t => t.bound = s.bound ∧ t.cnt.toNat = s.cnt.toNat % 2
        ∧ (s.bound = true → t.pins 0 = s.pins 0))
      (Transition.run (step BtnIrqLed.driver) (Counting.initial pins) es)
      (Transition.run (step BtnIrq.driver) (Counting.initial pins') es')
      ∧ (∀ env u, (BtnIrqLed.btnLedProbe env u).1 = 0 ↔ env.Succeeds)
      ∧ ∀ env u, (BtnIrq.btnLedProbe env u).1 = 0 ↔ env.Succeeds := by
  have hfollows : Transition.Follows (step BtnIrqLed.driver) (step BtnIrq.driver) Alike
      (fun _ _ => True) (Agree (show 1 ≤ 4 by decide)) :=
    agree_follows _ BtnIrqLed.probe_eq_zero_iff BtnIrq.probe_eq_zero_iff
  have hok : Transition.AllOk (step BtnIrqLed.driver) (fun _ _ => True)
      (Counting.initial pins) es :=
    Transition.allOk_of_forall (fun _ _ => trivial) _ es
  exact ⟨hfollows.runs_imp (fun s t h => ⟨h.bound, h.cnt, fun hb => h.leds hb 0⟩)
    (agree_initial _ pins pins') hes hok, BtnIrqLed.probe_eq_zero_iff, BtnIrq.probe_eq_zero_iff⟩

/-- A probe that fails, for the second LED on the one board and for the button on the
other, then one that succeeds, and three presses: both LEDs are lit. -/
theorem boards_agree_presses :
    ∃ s t, Transition.run (step BtnIrqLed.driver) (Counting.initial fun _ => false)
          [.probe ⟨fun i => if i = 1 then some ⟨-16, by decide⟩ else none, none, 0, 0⟩,
            .probe ⟨fun _ => none, none, 0, 0⟩, .press, .press, .press] = some s
      ∧ Transition.run (step BtnIrq.driver) (Counting.initial fun _ => true)
          [.probe ⟨fun _ => none, some ⟨-2, by decide⟩, 0, 0⟩,
            .probe ⟨fun _ => none, none, 0, 0⟩, .press, .press, .press] = some t
      ∧ s.pins 0 = true ∧ t.pins 0 = s.pins 0 := by
  have hfails : ¬ (⟨fun i => if i = 1 then some ⟨-16, by decide⟩ else none, none, 0, 0⟩ :
      ProbeEnv 4).Succeeds := fun h => absurd (h.leds 1) (by decide)
  have hfails' : ¬ (⟨fun _ => none, some ⟨-2, by decide⟩, 0, 0⟩ : ProbeEnv 1).Succeeds :=
    fun h => absurd h.button (by decide)
  have hboth : (⟨fun _ => none, none, 0, 0⟩ : ProbeEnv 4).Succeeds
      ↔ (⟨fun _ => none, none, 0, 0⟩ : ProbeEnv 1).Succeeds :=
    iff_of_true ⟨fun _ => rfl, rfl, le_rfl, rfl⟩ ⟨fun _ => rfl, rfl, le_rfl, rfl⟩
  have hrel := (boards_agree (fun _ => false) (fun _ => true)
    (.cons (.probe (iff_of_false hfails hfails')) (.cons (.probe hboth)
      (.cons .press (.cons .press (.cons .press .nil)))))).1
  cases hrel with
  | some h => exact ⟨_, _, rfl, rfl, by decide, h.2.2 rfl⟩

end Button
