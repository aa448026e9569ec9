import EmbeddedDrivers.Strobe
import EmbeddedDrivers.Transition

/-!
# Delays on a strobed bus

A receiver on a strobed bus is no ideal one. The lines have to stand still for
some time before the strobe rises, before it falls and after it, the strobe has
to be up for some time and down for some time, and what the receiver then does
takes time in which it must not be strobed again. A sender that cannot ask the
receiver whether it is ready waits, and all it knows of time is that a wait takes
no less than what it asked for.

There is one time no wait is there for, that from the last line set to the rising
of the strobe. What a sender has for it is the time that setting a line takes, and
so that is a number here too (`gap`); it may be zero.

So a sender is a list of *actions*, events and waits, and what happens is one of
its *timings* (`Timed`): the events with the times at which they came, as late
as they like and as early as the waits before them allow. `Receiver.step` is the
receiver that insists on all its times, with no next state where one is not
kept.

`Hears` is that the receiver gets from a list of actions, whatever their timing,
exactly what `Strobe.samples` says of the events alone. It is compositional, and
a burst with its two waits is heard (`hears_burst`). For a sender built of those
the times may be forgotten.
-/

namespace Timing

/-! ## Timings -/

variable {ε : Type}

/-- **An action**: an event, or a wait. -/
inductive Action (ε : Type)
  | event (e : ε)
  | wait (d : ℕ)

/-- The events among some actions. -/
def events (as : List (Action ε)) : List ε :=
  as.filterMap fun
    | .event e => some e
    | .wait _ => none

@[simp] theorem events_append (as bs : List (Action ε)) :
    events (as ++ bs) = events as ++ events bs := List.filterMap_append

@[simp] theorem events_map_event (es : List ε) : events (es.map .event) = es := by
  induction es with
  | nil => rfl
  | cons e es ih => exact congrArg (e :: ·) ih

/-- **A timing** of some actions, begun at one time and over at another: their
events, each with its time. An event takes the gap at least. -/
inductive Timed (gap : ℕ) : ℕ → List (Action ε) → List (ℕ × ε) → ℕ → Prop
  | nil {t t' : ℕ} (h : t ≤ t') : Timed gap t [] [] t'
  | event {t t₁ t' : ℕ} {e : ε} {as : List (Action ε)} {ts : List (ℕ × ε)} (h : t ≤ t₁)
      (rest : Timed gap (t₁ + gap) as ts t') : Timed gap t (.event e :: as) ((t₁, e) :: ts) t'
  | wait {t t₁ t' d : ℕ} {as : List (Action ε)} {ts : List (ℕ × ε)} (h : t + d ≤ t₁)
      (rest : Timed gap t₁ as ts t') : Timed gap t (.wait d :: as) ts t'

variable {gap : ℕ}

/-- A timing of one list of actions after another is one of each. -/
theorem timed_append {t t' : ℕ} {as bs : List (Action ε)} {ts : List (ℕ × ε)}
    (h : Timed gap t (as ++ bs) ts t') :
    ∃ us vs t₁, ts = us ++ vs ∧ Timed gap t as us t₁ ∧ Timed gap t₁ bs vs t' := by
  induction as generalizing t ts with
  | nil => exact ⟨[], ts, t, rfl, .nil le_rfl, h⟩
  | cons a as ih =>
    cases h with
    | event hle rest =>
      obtain ⟨us, vs, t₁, rfl, hus, hvs⟩ := ih rest
      exact ⟨_, vs, t₁, rfl, .event hle hus, hvs⟩
    | wait hle rest =>
      obtain ⟨us, vs, t₁, rfl, hus, hvs⟩ := ih rest
      exact ⟨us, vs, t₁, rfl, .wait hle hus, hvs⟩

/-- The timing that loses no time: the timed events, and the time it is over. -/
def prompt (gap : ℕ) : ℕ → List (Action ε) → List (ℕ × ε) × ℕ
  | t, [] => ([], t)
  | t, .event e :: as => ((t, e) :: (prompt gap (t + gap) as).1, (prompt gap (t + gap) as).2)
  | t, .wait d :: as => prompt gap (t + d) as

theorem timed_prompt (gap t : ℕ) (as : List (Action ε)) :
    Timed gap t as (prompt gap t as).1 (prompt gap t as).2 := by
  induction as generalizing t with
  | nil => exact .nil le_rfl
  | cons a as ih =>
    cases a with
    | event e => exact .event le_rfl (ih (t + gap))
    | wait d => exact .wait le_rfl (ih (t + d))

/-! ## A receiver that needs time -/

variable {L : Type} [DecidableEq L] {σ : Type}

/-- **A receiver**: what it makes of a sample, and the times it needs. The strobe
is up for the *width* and down for the *recovery* at least, the other lines
stand still for the *lead* before it rises, for the *set-up* before it falls and
the *hold* after, and it is left alone while the receiver is *busy* with the
sample before. -/
structure Receiver (L σ : Type) where
  clk : L
  latch : σ → Strobe.Levels L → σ
  busy : σ → Strobe.Levels L → ℕ
  width : ℕ
  recovery : ℕ
  lead : ℕ
  setup : ℕ
  hold : ℕ

/-- **A receiver at work**: the levels of the lines, when the strobe last rose
and fell, when another line was last set, the end of its being busy, and its
state. -/
structure Wired (L σ : Type) where
  levels : Strobe.Levels L
  rose : ℕ
  fell : ℕ
  moved : ℕ
  free : ℕ
  state : σ

namespace Receiver

variable (r : Receiver L σ)

/-- **One event at its time.** There is no next state where the receiver is not
given a time it needs, or a line is set under the strobe. -/
def step (w : Wired L σ) (x : ℕ × Strobe.Event L) : Option (Wired L σ) :=
  let levels := Strobe.apply w.levels x.2
  if x.2.line ≠ r.clk then
    if w.levels r.clk = false ∧ w.fell + r.hold ≤ x.1 then
      some { w with levels := levels, moved := x.1 }
    else none
  else if Strobe.falls r.clk w.levels x.2 then
    if w.rose + r.width ≤ x.1 ∧ w.moved + r.setup ≤ x.1 ∧ w.free ≤ x.1 then
      some { w with
        levels := levels
        fell := x.1
        free := x.1 + r.busy w.state w.levels
        state := r.latch w.state w.levels }
    else none
  else if x.2.level = true ∧ w.levels r.clk = false then
    if w.fell + r.recovery ≤ x.1 ∧ w.moved + r.lead ≤ x.1 ∧ w.free ≤ x.1 then
      some { w with levels := levels, rose := x.1 }
    else none
  else some { w with levels := levels }

/-- **The receiver is suited** by a sender that waits for one time with the strobe
up and for another after each pulse, and sets no line in less than the gap. -/
structure Suited (gap up rest : ℕ) : Prop where
  lead : r.lead ≤ gap
  width : r.width ≤ gap + up
  setup : r.setup ≤ gap + (gap + up)
  recovery : r.recovery ≤ gap + rest
  hold : r.hold ≤ gap + rest
  busy : ∀ s lv, lv r.clk = true → r.busy s lv ≤ gap + rest

/-- **The bus is at rest** at a time: the strobe is low, the rest after its last
fall is over, no line has just been set, and the receiver will be free soon. -/
structure Rests (gap rest soon : ℕ) (w : Wired L σ) (t : ℕ) : Prop where
  low : w.levels r.clk = false
  fell : w.fell + (gap + rest) ≤ t
  moved : w.moved + gap ≤ t
  free : w.free ≤ t + soon

variable {r}

omit [DecidableEq L] in
theorem Rests.later {rest soon : ℕ} {w : Wired L σ} {t t' : ℕ} (h : r.Rests gap rest soon w t)
    (hle : t ≤ t') : r.Rests gap rest soon w t' :=
  ⟨h.low, h.fell.trans hle, h.moved.trans hle, h.free.trans (Nat.add_le_add_right hle soon)⟩

/-- A line other than the strobe is set. -/
theorem step_line {w : Wired L σ} {t : ℕ} {e : Strobe.Event L} (hne : e.line ≠ r.clk) :
    r.step w (t, e)
      = if w.levels r.clk = false ∧ w.fell + r.hold ≤ t then
          some { w with levels := Strobe.apply w.levels e, moved := t }
        else none := if_pos hne

/-- The strobe rises. -/
theorem step_rise {w : Wired L σ} {t : ℕ} (hlow : w.levels r.clk = false) :
    r.step w (t, ⟨r.clk, true⟩)
      = if w.fell + r.recovery ≤ t ∧ w.moved + r.lead ≤ t ∧ w.free ≤ t then
          some { w with levels := Strobe.apply w.levels ⟨r.clk, true⟩, rose := t }
        else none := by
  have hf : Strobe.falls r.clk w.levels ⟨r.clk, true⟩ = false := by
    rw [Strobe.falls, hlow, Bool.and_false, Bool.false_and]
  rw [step, if_neg (not_not.mpr rfl), if_neg (by rw [hf]; exact Bool.false_ne_true),
    if_pos ⟨rfl, hlow⟩]

/-- It falls, and the lines are sampled. -/
theorem step_fall {w : Wired L σ} {t : ℕ} (hup : w.levels r.clk = true) :
    r.step w (t, ⟨r.clk, false⟩)
      = if w.rose + r.width ≤ t ∧ w.moved + r.setup ≤ t ∧ w.free ≤ t then
          some { w with
            levels := Strobe.apply w.levels ⟨r.clk, false⟩
            fell := t
            free := t + r.busy w.state w.levels
            state := r.latch w.state w.levels }
        else none := by
  have hf : Strobe.falls r.clk w.levels ⟨r.clk, false⟩ = true := by
    rw [Strobe.falls, decide_eq_true rfl, hup]
    rfl
  rw [step, if_neg (not_not.mpr rfl), if_pos hf]

/-- **What is heard.** From a bus at rest, the receiver takes the actions with
any timing, sees what an ideal one sees of the events, and leaves the bus at
rest. -/
def Hears (r : Receiver L σ) (gap rest soon soon' : ℕ) (as : List (Action (Strobe.Event L))) :
    Prop :=
  ∀ ⦃w t ts t'⦄, r.Rests gap rest soon w t → Timed gap t as ts t' →
    ∃ w', Transition.run r.step w ts = some w' ∧ r.Rests gap rest soon' w' t'
      ∧ w'.levels = Strobe.settle w.levels (events as)
      ∧ w'.state = (Strobe.samples r.clk w.levels (events as)).foldl r.latch w.state

variable {rest soon soon' soon'' : ℕ}

theorem hears_nil : r.Hears gap rest soon soon [] := by
  intro w t ts t' hw ht
  cases ht with
  | nil hle => exact ⟨w, rfl, hw.later hle, rfl, rfl⟩

/-- **One list of actions after another.** -/
theorem Hears.append {as bs : List (Action (Strobe.Event L))} (has : r.Hears gap rest soon soon' as)
    (hbs : r.Hears gap rest soon' soon'' bs) : r.Hears gap rest soon soon'' (as ++ bs) := by
  intro w t ts t' hw ht
  obtain ⟨us, vs, t₁, rfl, hus, hvs⟩ := timed_append ht
  obtain ⟨w₁, hrun₁, hw₁, hlevels₁, hstate₁⟩ := has hw hus
  obtain ⟨w₂, hrun₂, hw₂, hlevels₂, hstate₂⟩ := hbs hw₁ hvs
  refine ⟨w₂, (Transition.run_append_of_eq hrun₁ vs).trans hrun₂, hw₂, ?_, ?_⟩
  · rw [hlevels₂, hlevels₁, events_append, Strobe.settle_append]
  · rw [hstate₂, hstate₁, hlevels₁, events_append, Strobe.samples_append, List.foldl_append]

/-- **A wait** brings the receiver nearer to being free. -/
theorem hears_wait (d : ℕ) : r.Hears gap rest soon (soon - d) [.wait d] := by
  intro w t ts t' hw ht
  cases ht with
  | wait hle ht =>
    cases ht with
    | nil hle' =>
      obtain ⟨hlow, hfell, hmoved, hfree⟩ := hw
      exact ⟨w, rfl, ⟨hlow, by omega, by omega, by omega⟩, rfl, rfl⟩

/-- **Another line, set at rest**, is heard, and nothing is seen. -/
theorem hears_line {up : ℕ} (hr : r.Suited gap up rest) {e : Strobe.Event L}
    (hne : e.line ≠ r.clk) :
    r.Hears gap rest soon soon [.event e] := by
  intro w t ts t' hw ht
  cases ht with
  | @event _ t₁ _ _ _ _ hle ht =>
    cases ht with
    | nil hle' =>
      obtain ⟨hlow, hfell, hmoved, hfree⟩ := hw
      have hhold := hr.hold
      have hstep : r.step w (t₁, e)
          = some { w with levels := Strobe.apply w.levels e, moved := t₁ } := by
        rw [step_line hne, if_pos ⟨hlow, show w.fell + r.hold ≤ t₁ by omega⟩]
      have hlow' : Strobe.apply w.levels e r.clk = false := (Strobe.apply_of_ne hne).trans hlow
      have hnone : Strobe.samples r.clk w.levels [e] = [] :=
        Strobe.samples_of_forall_ne fun e' he' => List.mem_singleton.mp he' ▸ hne
      refine ⟨_, Transition.run_cons_of_eq hstep [], ⟨hlow', ?_, hle', ?_⟩, rfl, ?_⟩
      · show w.fell + (gap + rest) ≤ t'
        omega
      · show w.free ≤ t' + soon
        omega
      · show w.state = (Strobe.samples r.clk w.levels [e]).foldl r.latch w.state
        rw [hnone]
        rfl

/-- **A strobe set low that is low** is no edge. -/
theorem hears_lowered : r.Hears gap rest soon soon [.event ⟨r.clk, false⟩] := by
  intro w t ts t' hw ht
  cases ht with
  | @event _ t₁ _ _ _ _ hle ht =>
    cases ht with
    | nil hle' =>
      have hf : Strobe.falls r.clk w.levels ⟨r.clk, false⟩ = false := by
        rw [Strobe.falls, hw.low, Bool.and_false, Bool.false_and]
      have hstep : r.step w (t₁, ⟨r.clk, false⟩)
          = some { w with levels := Strobe.apply w.levels ⟨r.clk, false⟩ } := by
        rw [step, if_neg (not_not.mpr rfl), if_neg (by rw [hf]; exact Bool.false_ne_true),
          if_neg (fun h => absurd h.1 Bool.false_ne_true)]
      obtain ⟨-, hfell, hmoved, hfree⟩ :=
        hw.later (hle.trans ((Nat.le_add_right t₁ gap).trans hle'))
      refine ⟨_, Transition.run_cons_of_eq hstep [], ⟨Function.update_self _ _ _, hfell, hmoved,
        hfree⟩, rfl, ?_⟩
      show w.state = (Strobe.samples r.clk w.levels [⟨r.clk, false⟩]).foldl r.latch w.state
      rw [Strobe.samples_cons_of_not_falls hf]
      rfl

/-- **Lines set at rest**, none of them raising the strobe. -/
theorem hears_lines {up : ℕ} (hr : r.Suited gap up rest) {es : List (Strobe.Event L)}
    (h : ∀ e ∈ es, e.line ≠ r.clk ∨ e.level = false) :
    r.Hears gap rest soon soon (es.map .event) := by
  induction es with
  | nil => exact hears_nil
  | cons e es ih =>
    have hfirst : r.Hears gap rest soon soon [.event e] := by
      obtain ⟨line, level⟩ := e
      by_cases hline : line = r.clk
      · obtain rfl : level = false :=
          (h _ List.mem_cons_self).resolve_left (not_not.mpr hline)
        rw [hline]
        exact hears_lowered
      · exact hears_line hr hline
    exact hfirst.append (ih fun e' he' => h e' (List.mem_cons_of_mem e he'))

/-! ## Pulses and bursts -/

/-- A pulse with its two waits. -/
def timedPulse (clk : L) (up rest : ℕ) : List (Action (Strobe.Event L)) :=
  [.event ⟨clk, true⟩, .wait up, .event ⟨clk, false⟩, .wait rest]

omit [DecidableEq L] in
/-- The times of its two edges. -/
theorem timed_timedPulse {clk : L} {up rest t t' : ℕ} {ts : List (ℕ × Strobe.Event L)}
    (h : Timed gap t (timedPulse clk up rest) ts t') :
    ∃ t₁ t₂, ts = [(t₁, ⟨clk, true⟩), (t₂, ⟨clk, false⟩)]
      ∧ t ≤ t₁ ∧ t₁ + (gap + up) ≤ t₂ ∧ t₂ + (gap + rest) ≤ t' := by
  cases h with
  | @event _ t₁ _ _ _ _ hle₁ h =>
    cases h with
    | wait hle₂ h =>
      cases h with
      | @event _ t₂ _ _ _ _ hle₃ h =>
        cases h with
        | wait hle₄ h =>
          cases h with
          | nil hle₅ => exact ⟨t₁, t₂, rfl, hle₁, by omega, by omega⟩

/-- **A pulse with its two waits** is seen as one sample. -/
theorem hears_pulse {up : ℕ} (hr : r.Suited gap up rest) :
    r.Hears gap rest 0 0 (timedPulse r.clk up rest) := by
  intro w t ts t' hw ht
  obtain ⟨t₁, t₂, rfl, hle₁, hle₂, hle₃⟩ := timed_timedPulse ht
  obtain ⟨hlow, hfell, hmoved, hfree⟩ := hw
  obtain ⟨hlead, hwidth, hsetup, hrecovery, -, hbusy⟩ := hr
  have hup : Strobe.apply w.levels ⟨r.clk, true⟩ r.clk = true := Function.update_self _ _ _
  have hrise := step_rise (r := r) (t := t₁) hlow
  have hfall := step_fall (r := r) (t := t₂)
    (w := { w with levels := Strobe.apply w.levels ⟨r.clk, true⟩, rose := t₁ }) hup
  have hrests := hbusy w.state _ hup
  rw [if_pos (by omega)] at hrise
  rw [if_pos (by dsimp only; omega)] at hfall
  refine ⟨_, (Transition.run_cons_of_eq hrise _).trans (Transition.run_cons_of_eq hfall []),
    ⟨Function.update_self _ _ _, hle₃, ?_, ?_⟩, rfl, ?_⟩
  · show w.moved + gap ≤ t'
    omega
  · show t₂ + r.busy w.state (Strobe.apply w.levels ⟨r.clk, true⟩) ≤ t' + 0
    omega
  · show r.latch w.state (Strobe.apply w.levels ⟨r.clk, true⟩)
      = (Strobe.samples r.clk w.levels (Strobe.pulse r.clk)).foldl r.latch w.state
    rw [Strobe.samples_pulse hlow]
    rfl

/-- **A burst with its two waits** is heard. -/
theorem hears_burst {up : ℕ} (hr : r.Suited gap up rest) {es : List (Strobe.Event L)}
    (h : ∀ e ∈ es, e.line ≠ r.clk) :
    r.Hears gap rest 0 0 (es.map .event ++ timedPulse r.clk up rest) :=
  (hears_lines hr fun e he => .inl (h e he)).append (hears_pulse hr)

/-- A bus that has just come to rest. -/
theorem rests_low (s : σ) (lv : Strobe.Levels L) :
    r.Rests gap rest 0 ⟨Function.update lv r.clk false, 0, 0, 0, 0, s⟩ (gap + rest) :=
  ⟨Function.update_self _ _ _, (Nat.zero_add _).le, by dsimp only; omega, Nat.zero_le _⟩

/-- **A pulse heard without losing time**: the strobe has been down for no more than
the rest. -/
theorem recovery_of_hears {up : ℕ} (s : σ) (lv : Strobe.Levels L)
    (h : r.Hears gap rest 0 0 (timedPulse r.clk up rest)) : r.recovery ≤ gap + rest := by
  obtain ⟨w', hrun, -⟩ := h (rests_low s lv) (timed_prompt gap (gap + rest) _)
  simp only [timedPulse, prompt] at hrun
  rw [Transition.run_cons, step_rise (Function.update_self _ _ _)] at hrun
  obtain ⟨w₁, hrise, -⟩ := Option.bind_eq_some_iff.mp hrun
  obtain ⟨⟨hrecovery, -⟩, -⟩ := Option.ite_some_none_eq_some.mp hrise
  dsimp only at hrecovery
  omega

/-- **A burst heard without losing time.** The receiver has been given no more than
the waits and the gaps. -/
theorem suited_of_hears {up : ℕ} {l : L} (hl : l ≠ r.clk) (s : σ) {lv : Strobe.Levels L}
    (hlv : lv r.clk = true)
    (h : r.Hears gap rest 0 0 ([.event ⟨l, lv l⟩] ++ timedPulse r.clk up rest)) :
    r.lead ≤ gap ∧ r.width ≤ gap + up ∧ r.setup ≤ gap + (gap + up) ∧ r.hold ≤ gap + rest
      ∧ r.busy s lv ≤ gap + rest := by
  obtain ⟨w', hrun, hw', -⟩ := h (rests_low s lv) (timed_prompt gap (gap + rest) _)
  simp only [timedPulse, List.cons_append, List.nil_append, prompt] at hrun hw'
  rw [Transition.run_cons, step_line hl] at hrun
  obtain ⟨w₁, hline, hrun⟩ := Option.bind_eq_some_iff.mp hrun
  obtain ⟨⟨-, hhold⟩, rfl⟩ := Option.ite_some_none_eq_some.mp hline
  have hlow : Strobe.apply (Function.update lv r.clk false) ⟨l, lv l⟩ r.clk = false :=
    (Strobe.apply_of_ne hl).trans (Function.update_self _ _ _)
  rw [Transition.run_cons, step_rise hlow] at hrun
  obtain ⟨w₂, hrise, hrun⟩ := Option.bind_eq_some_iff.mp hrun
  obtain ⟨⟨-, hlead, -⟩, rfl⟩ := Option.ite_some_none_eq_some.mp hrise
  rw [Transition.run_cons, step_fall (Function.update_self _ _ _)] at hrun
  obtain ⟨w₃, hfall, hrun⟩ := Option.bind_eq_some_iff.mp hrun
  obtain ⟨⟨hwidth, hsetup, -⟩, rfl⟩ := Option.ite_some_none_eq_some.mp hfall
  obtain rfl := Option.some.inj hrun
  -- the lines as they are sampled
  have hlevels : Strobe.apply (Strobe.apply (Function.update lv r.clk false) ⟨l, lv l⟩)
      ⟨r.clk, true⟩ = lv := by
    funext k
    by_cases hk : k = r.clk
    · rw [hk, hlv]
      exact Function.update_self _ _ _
    · rw [Strobe.apply_of_ne (Ne.symm hk)]
      by_cases hkl : k = l
      · rw [hkl]
        exact Function.update_self _ _ _
      · rw [Strobe.apply_of_ne (Ne.symm hkl), Function.update_of_ne hk]
  have hbusy := hw'.free
  dsimp only at hhold hlead hwidth hsetup hbusy
  rw [hlevels] at hbusy
  exact ⟨by omega, by omega, by omega, by omega, by omega⟩

/-- **The waits of a pulse are right for these receivers and no others.** Every
burst with its two waits is heard exactly by the receivers the waits suit. -/
theorem hears_burst_iff [Nonempty σ] {up : ℕ} {l : L} (hl : l ≠ r.clk) :
    (∀ es : List (Strobe.Event L), (∀ e ∈ es, e.line ≠ r.clk) →
      r.Hears gap rest 0 0 (es.map .event ++ timedPulse r.clk up rest))
      ↔ r.Suited gap up rest := by
  refine ⟨fun h => ?_, fun hr es hes => hears_burst hr hes⟩
  have hall (s : σ) (lv : Strobe.Levels L) (hlv : lv r.clk = true) :=
    suited_of_hears hl s hlv (h [⟨l, lv l⟩] fun e he => List.mem_singleton.mp he ▸ hl)
  obtain ⟨s⟩ := ‹Nonempty σ›
  obtain ⟨hlead, hwidth, hsetup, hhold, -⟩ := hall s (fun _ => true) rfl
  have hrecovery := recovery_of_hears s (fun _ => true)
    (h [] fun e he => absurd he List.not_mem_nil)
  exact ⟨hlead, hwidth, hsetup, hrecovery, hhold, fun s lv hlv => (hall s lv hlv).2.2.2.2⟩

end Receiver

end Timing
