import EmbeddedDrivers.LedBlink

/-!
# The rounds of a blinking thread

That a blinking driver is safe says nothing about blinking, nor that a remove
ever comes to an end: a thread that does nothing is safe, and a remove waits for
the thread inside `kthread_stop`.

What a thread does is a list of calls, `gpiod_set_value` and `msleep`, and it is
made of *rounds*: each LED on, asleep, and off, one LED after another. The test
for the stop is made between two rounds only. So the list is some whole rounds
and the beginning of another, in any run (`blink_rounds`), and a thread that has
returned has done whole rounds: every LED was lit equally often.

The price is paid by the remove, which has to sit out the round.
`remove_completes` bounds what it waits for by the calls the thread still owes
to its round. From there on nothing can hold the remove up: whatever the order
of the steps, some step is possible until it returns, and there are no more of
them than four for each LED and four.
-/

namespace Blink

open Gpio

variable {n : ℕ}

/-! ## Rounds -/

/-- **What a thread does** that can be seen from outside. -/
inductive Act (n : ℕ)
  | setValue (i : Fin n) (value : Bool)
  | msleep
  deriving DecidableEq

/-- The calls of one step of a thread. It is asleep where it is about to turn its
LED off. -/
def Pc.acts : Pc n → List (Act n)
  | .setOn i => [.setValue i true, .msleep]
  | .setOff i => [.setValue i false]
  | _ => []

/-- What a thread does to one LED. -/
def blink (i : Fin n) : List (Act n) := [.setValue i true, .msleep, .setValue i false]

/-- **A round.** -/
def round (n : ℕ) : List (Act n) := (List.finRange n).flatMap blink

/-- The calls of its round a thread has made. -/
def Pc.made : Pc n → List (Act n)
  | .forTest i => ((List.finRange n).take i).flatMap blink
  | .setOn i => ((List.finRange n).take i).flatMap blink
  | .setOff i => ((List.finRange n).take i).flatMap blink ++ [.setValue i true, .msleep]
  | _ => []

/-- The calls of its round it still owes. -/
def Pc.owed : Pc n → List (Act n)
  | .forTest i => ((List.finRange n).drop i).flatMap blink
  | .setOn i => ((List.finRange n).drop i).flatMap blink
  | .setOff i => .setValue i false :: ((List.finRange n).drop (i + 1)).flatMap blink
  | _ => []

/-- One LED more of the round. -/
theorem take_succ_flatMap (i : Fin n) :
    ((List.finRange n).take (i + 1)).flatMap blink
      = ((List.finRange n).take i).flatMap blink ++ blink i := by
  rw [List.take_succ_eq_append_getElem (by rw [List.length_finRange]; exact i.2),
    List.getElem_finRange, List.flatMap_append, List.flatMap_singleton]
  rfl

/-- One LED less of the rest. -/
theorem drop_flatMap (i : Fin n) :
    ((List.finRange n).drop i).flatMap blink
      = blink i ++ ((List.finRange n).drop (i + 1)).flatMap blink := by
  rw [List.drop_eq_getElem_cons (by rw [List.length_finRange]; exact i.2),
    List.getElem_finRange, List.flatMap_cons]
  rfl

/-- What was made is the beginning of a round. -/
theorem made_prefix (pc : Pc n) : pc.made <+: round n := by
  have htake (k : ℕ) : ((List.finRange n).take k).flatMap blink <+: round n :=
    List.IsPrefix.flatMap (List.take_prefix k _) _
  cases pc with
  | forTest i | setOn i => exact htake i
  | setOff i =>
    refine List.IsPrefix.trans ?_ (htake (i + 1))
    rw [take_succ_flatMap, Pc.made, List.prefix_append_right_inj]
    exact ⟨[.setValue i false], rfl⟩
  | created | whileTest | returned => exact List.nil_prefix

/-- What is owed is the end of one. -/
theorem owed_suffix (pc : Pc n) : pc.owed <:+ round n := by
  have hdrop (k : ℕ) : ((List.finRange n).drop k).flatMap blink <:+ round n := by
    refine ⟨((List.finRange n).take k).flatMap blink, ?_⟩
    rw [← List.flatMap_append, List.take_append_drop]
    rfl
  cases pc with
  | forTest i | setOn i => exact hdrop i
  | setOff i =>
    refine List.IsSuffix.trans ?_ (hdrop i)
    rw [drop_flatMap]
    exact ⟨[.setValue i true, .msleep], rfl⟩
  | created | whileTest | returned => exact List.nil_suffix

/-- **A step of a thread** makes its calls, and where it ends the round the round
is complete. -/
theorem made_step {shouldStop : Bool} {pins : Levels n} {pc : Pc n} {r : Pc n × Levels n}
    (hr : blinkFn shouldStop pins pc = some r) :
    pc.made ++ pc.acts = r.1.made ∨ pc.made ++ pc.acts = round n ∧ r.1.made = [] := by
  cases pc with
  | created | whileTest =>
    obtain rfl := Option.some.inj hr
    cases shouldStop <;> exact Or.inl rfl
  | forTest i =>
    obtain rfl := Option.some.inj hr
    rw [show (Pc.forTest i : Pc n).acts = [] from rfl, List.append_nil]
    by_cases hi : i < n
    · rw [dif_pos hi]
      exact Or.inl rfl
    · rw [dif_neg hi]
      refine Or.inr ⟨?_, rfl⟩
      rw [Pc.made, List.take_of_length_le (by rw [List.length_finRange]; omega)]
      rfl
  | setOn i =>
    obtain rfl := Option.some.inj hr
    exact Or.inl rfl
  | setOff i =>
    obtain rfl := Option.some.inj hr
    refine Or.inl ?_
    show _ = ((List.finRange n).take (i + 1)).flatMap blink
    rw [take_succ_flatMap, Pc.made, Pc.acts, List.append_assoc]
    rfl
  | returned => exact absurd hr (Option.some_ne_none r).symm

/-- **A step of a thread asked to stop** pays off some of what it owes. -/
theorem owed_step {pins : Levels n} {pc : Pc n} {r : Pc n × Levels n}
    (hr : blinkFn true pins pc = some r) : pc.owed = pc.acts ++ r.1.owed := by
  cases pc with
  | created | whileTest =>
    obtain rfl := Option.some.inj hr
    rfl
  | forTest i =>
    obtain rfl := Option.some.inj hr
    by_cases hi : i < n
    · rw [dif_pos hi]
      rfl
    · rw [dif_neg hi, Pc.owed, List.drop_of_length_le (by rw [List.length_finRange]; omega)]
      rfl
  | setOn i =>
    obtain rfl := Option.some.inj hr
    exact drop_flatMap i
  | setOff i =>
    obtain rfl := Option.some.inj hr
    rfl
  | returned => exact absurd hr (Option.some_ne_none r).symm

/-! ## Over whole runs -/

/-- **The calls of a thread** in a step of the system. -/
def threadActs (t : ℕ) (s : System n) : Event → List (Act n)
  | .thread t' => if t' = t then (s.threads[t]?).elim [] fun th => th.pc.acts else []
  | _ => []

/-- **Whole rounds and the beginning of one**: what a thread has done, if it has
been started. -/
def InRounds (t : ℕ) (os : List (Act n)) (s : System n) : Prop :=
  (s.threads.length ≤ t → os = [])
    ∧ ∀ th, s.threads[t]? = some th → ∃ k, os = (List.replicate k (round n)).flatten ++ th.pc.made

/-- A step that is none of the thread leaves it where it is. -/
theorem InRounds.of_same {t : ℕ} {os : List (Act n)} {s s' : System n} (h : InRounds t os s)
    (hlength : s.threads.length ≤ s'.threads.length)
    (hsame : ∀ th', s'.threads[t]? = some th' →
      (∃ th, s.threads[t]? = some th ∧ th.pc = th'.pc) ∨ s.threads.length ≤ t ∧ th'.pc = .created) :
    InRounds t os s' := by
  refine ⟨fun hle => h.1 (hlength.trans hle), fun th' hth' => ?_⟩
  rcases hsame th' hth' with ⟨th, hth, hpc⟩ | ⟨hle, hpc⟩
  · rw [← hpc]
    exact h.2 th hth
  · exact ⟨0, by rw [h.1 hle, hpc]; rfl⟩

/-- **A step of the thread** takes it on in its rounds. -/
theorem InRounds.steps {t : ℕ} {os : List (Act n)} {s s' : System n} {th : Thread n}
    {r : Pc n × Levels n} (h : InRounds t os s) (hth : s.threads[t]? = some th)
    (hr : blinkFn th.shouldStop s.pins th.pc = some r)
    (hs' : s'.threads = s.threads.set t { th with pc := r.1 }) :
    InRounds t (os ++ th.pc.acts) s' := by
  have hlt : t < s.threads.length := (List.getElem?_eq_some_iff.mp hth).1
  refine ⟨fun hle => ?_, fun th' hth' => ?_⟩
  · rw [hs', List.length_set] at hle
    exact absurd hlt (by omega)
  · rw [hs', List.getElem?_set_self hlt] at hth'
    obtain rfl := Option.some.inj hth'
    obtain ⟨k, rfl⟩ := h.2 th hth
    rw [List.append_assoc]
    rcases made_step hr with hmade | ⟨hround, hnone⟩
    · exact ⟨k, by rw [hmade]⟩
    · refine ⟨k + 1, ?_⟩
      dsimp only
      rw [hround, hnone, List.append_nil, List.replicate_succ', List.flatten_append,
        List.flatten_singleton]

/-- **Every step keeps a thread in its rounds.** -/
theorem inRounds_step (t : ℕ) (os : List (Act n)) (s : System n) (e : Event) (s' : System n)
    (h : InRounds t os s) (hstep : step s e = some s') :
    InRounds t (os ++ threadActs t s e) s' := by
  have hleft {s' : System n} (heq : s'.threads = s.threads) : InRounds t (os ++ []) s' := by
    rw [List.append_nil]
    exact h.of_same (by rw [heq]) fun th' hth' => Or.inl ⟨th', by rw [← heq, hth'], rfl⟩
  cases move_of_step hstep with
  | probes | lookupFails | lookups | runFails | removes | stopReturns | ledOff | removeReturns =>
    exact hleft rfl
  | runs hphase =>
    show InRounds t (os ++ []) _
    rw [List.append_nil]
    refine h.of_same (by rw [List.length_append]; omega) fun th' hth' => ?_
    by_cases hlt : t < s.threads.length
    · rw [List.getElem?_append_left hlt] at hth'
      exact Or.inl ⟨th', hth', rfl⟩
    · rw [List.getElem?_append_right (by omega)] at hth'
      have hmem := List.mem_singleton.mp (List.mem_of_getElem? hth')
      exact Or.inr ⟨by omega, by rw [hmem]⟩
  | stops t' hphase =>
    show InRounds t (os ++ []) _
    rw [List.append_nil]
    refine h.of_same (by rw [List.length_modify]) fun th' hth' => Or.inl ?_
    rw [List.getElem?_modify] at hth'
    obtain ⟨th, hth, rfl⟩ := Option.map_eq_some_iff.mp hth'
    refine ⟨th, hth, ?_⟩
    split <;> rfl
  | threadSteps t' th r hth hr =>
    by_cases hne : t' = t
    · subst hne
      rw [threadActs, if_pos rfl, hth]
      exact h.steps hth hr rfl
    · rw [threadActs, if_neg hne, List.append_nil]
      refine h.of_same (by rw [List.length_set]) fun th' hth' => Or.inl ⟨th', ?_, rfl⟩
      rwa [List.getElem?_set_ne hne] at hth'

/-! ## What is seen -/

/-- The calls of `gpiod_set_value` among some. -/
def writes (os : List (Act n)) : Writes n :=
  os.filterMap fun
    | .setValue i value => some (i, value)
    | .msleep => none

/-- The levels after some calls, on LEDs that were off. -/
def lit (os : List (Act n)) : Levels n := setValues (fun _ => false) (writes os)

theorem lit_append (os os' : List (Act n)) :
    lit (os ++ os') = setValues (lit os) (writes os') := by
  rw [lit, writes, List.filterMap_append, setValues, Stores.storeAll_append]
  rfl

/-- **LEDs that have blinked are off.** -/
theorem lit_blinks (is : List (Fin n)) : lit (is.flatMap blink) = fun _ => false := by
  induction is using List.reverseRecOn with
  | nil => rfl
  | append_singleton is i ih =>
    rw [List.flatMap_append, List.flatMap_singleton, lit_append, ih]
    show Function.update (Function.update (fun _ => false) i true) i false = _
    rw [Function.update_idem, Function.update_eq_self_iff]

/-- **The light of a thread is that of the calls of its round.** -/
theorem Pc.Lights.eq_lit {pc : Pc n} {pins : Levels n} (h : pc.Lights pins) :
    pins = lit pc.made := by
  have hdark (hd : Dark pins) : pins = fun _ => false := funext hd
  cases pc with
  | created | whileTest | returned => exact hdark h
  | forTest i | setOn i => exact (hdark h).trans (lit_blinks _).symm
  | setOff i =>
    funext j
    rw [Pc.made, lit_append, lit_blinks]
    show pins j = Function.update (fun _ => false) i true j
    rw [h j, Function.update_apply]
    by_cases hj : j = i
    · rw [if_pos hj, decide_eq_true hj]
    · rw [if_neg hj, decide_eq_false hj]

/-- **Blinking goes in rounds.** In every run of either program, whatever the order
of the steps, what a thread has done is some whole rounds – each LED on, asleep,
and off again, from the first to the last – and then the beginning of one, which
is empty if the thread has returned. While the device is bound, the LEDs are as
this beginning has them. -/
theorem blink_rounds (p : Program) (pins : Levels p.leds) {es : List Event}
    {s : System p.leds} (hrun : Transition.run step (initial pins) es = some s) {t : ℕ}
    {th : Thread p.leds} (hth : s.threads[t]? = some th) :
    ∃ k part, Transition.outputs step (threadActs t) (initial pins) es
        = (List.replicate k (round p.leds)).flatten ++ part
      ∧ part <+: round p.leds ∧ (th.pc = .returned → part = [])
      ∧ (s.phase = .bound → s.blinkThread = .task t → s.pins = lit part) := by
  have hrounds : InRounds t [] (initial pins) := by
    refine ⟨fun _ => rfl, fun th hth => absurd hth ?_⟩
    exact (Option.some_ne_none th).symm
  obtain ⟨k, hk⟩ := (Transition.invariant_outputs (inRounds_step t) hrounds hrun).2 th hth
  refine ⟨k, th.pc.made, hk, made_prefix th.pc, fun hpc => by rw [hpc]; rfl, fun hbound ht => ?_⟩
  have hholds : Holds pins s :=
    Transition.invariant (holds_step pins) (holds_initial pins) ⟨es, List.prefix_rfl, hrun⟩
  rw [Holds, hbound] at hholds
  obtain ⟨t', ht', hrunning⟩ := hholds
  obtain rfl := Pointer.task.inj (ht.symm.trans ht')
  obtain ⟨th', hth', -, -, hlights⟩ := hrunning.thread
  obtain rfl := Option.some.inj (hth.symm.trans hth')
  exact hlights.eq_lit

/-- A thread that was stopped with its first LED lit. -/
theorem blink_rounds_blinkRun :
    ∃ k, Transition.outputs step (threadActs 0)
        (initial fun _ => false : System Program.ledKer.leds) blinkRun
      = (List.replicate k (round 3)).flatten := by
  have hrun : Transition.run step (initial fun _ => false : System Program.ledKer.leds) blinkRun
      = some _ := rfl
  obtain ⟨k, part, hacts, -, hreturned, -⟩ := blink_rounds .ledKer (fun _ => false) hrun
    (t := 0) rfl
  rw [hreturned rfl, List.append_nil] at hacts
  exact ⟨k, hacts⟩

/-! ## The end of a remove -/

/-- The steps a thread asked to stop has still to take. -/
def Pc.rank : Pc n → ℕ
  | .created | .whileTest => 1
  | .forTest i => 3 * (n - i) + 2
  | .setOn i => 3 * (n - i) + 1
  | .setOff i => 3 * (n - i)
  | .returned => 0

theorem rank_le (pc : Pc n) : pc.rank ≤ 3 * n + 2 := by
  cases pc <;> simp only [Pc.rank] <;> omega

/-- A thread asked to stop gets nearer to its end. -/
theorem rank_step {pins : Levels n} {pc : Pc n} {r : Pc n × Levels n}
    (hr : blinkFn true pins pc = some r) : r.1.rank < pc.rank := by
  cases pc with
  | created | whileTest =>
    obtain rfl := Option.some.inj hr
    exact Nat.zero_lt_one
  | forTest i =>
    obtain rfl := Option.some.inj hr
    by_cases hi : i < n
    · rw [dif_pos hi]
      exact Nat.lt_succ_self _
    · rw [dif_neg hi]
      show 1 < 3 * (n - i) + 2
      omega
  | setOn i =>
    obtain rfl := Option.some.inj hr
    exact Nat.lt_succ_self _
  | setOff i =>
    obtain rfl := Option.some.inj hr
    show 3 * (n - (i.1 + 1)) + 2 < 3 * (n - i.1)
    omega
  | returned => exact absurd hr (Option.some_ne_none r).symm

/-- The steps a remove has still to see once it has called `kthread_stop`. -/
def System.rank (s : System n) : ℕ :=
  match s.phase with
  | .waiting t => (s.threads[t]?).elim 0 (fun th => th.pc.rank) + (n + 2)
  | .clearing todo => todo.length + 1
  | _ => 0

/-- **The thread is being stopped**, or has been: the remove is in `kthread_stop` or
after it. -/
def Stopping (s : System n) : Prop :=
  (∃ t, s.phase = .waiting t) ∨ ∃ todo, s.phase = .clearing todo

/-- **Every step brings the remove nearer to its end**, whoever takes it. -/
theorem rank_step_of_stopping {pins : Levels n} (s : System n) (e : Event) (s' : System n)
    (h : Stopping s ∧ Holds pins s) (hne : e ≠ .removeReturns) (hstep : step s e = some s') :
    (Stopping s' ∧ Holds pins s') ∧ s'.rank < s.rank := by
  have hholds' := holds_step pins s e s' h.2 hstep
  suffices Stopping s' ∧ s'.rank < s.rank from ⟨⟨this.1, hholds'⟩, this.2⟩
  obtain ⟨hstopping, hholds⟩ := h
  cases move_of_step hstep with
  | probes hphase | lookupFails _ _ _ hphase | lookups _ _ hphase | runFails _ hphase
  | runs hphase | removes hphase | stops _ hphase =>
    rcases hstopping with ⟨t, ht⟩ | ⟨todo, ht⟩ <;>
      exact absurd (hphase.symm.trans ht) (by simp)
  | removeReturns => exact absurd rfl hne
  | stopReturns t th hphase hth hpc =>
    refine ⟨Or.inr ⟨_, rfl⟩, ?_⟩
    show (turnOff n).length + 1 < s.rank
    rw [System.rank, hphase, turnOff, List.length_map, List.length_finRange]
    dsimp only
    omega
  | ledOff i v todo hphase =>
    refine ⟨Or.inr ⟨_, rfl⟩, ?_⟩
    rw [System.rank, System.rank, hphase]
    exact Nat.lt_succ_self _
  | threadSteps t' th r hth hr =>
    refine ⟨hstopping, ?_⟩
    rcases hstopping with ⟨t, hphase⟩ | ⟨todo, hphase⟩
    · rw [Holds, hphase] at hholds
      have hrunning : Running s t true := hholds
      -- no other thread takes a step
      obtain rfl : t' = t := by
        by_contra hne'
        exact not_step_of_returned (hrunning.others t' th hth hne') hr
      obtain ⟨th', hth', -, hstop, -⟩ := hrunning.thread
      obtain rfl := Option.some.inj (hth.symm.trans hth')
      rw [hstop] at hr
      have hlt : t' < s.threads.length := (List.getElem?_eq_some_iff.mp hth).1
      rw [System.rank, System.rank, hphase]
      dsimp only
      rw [List.getElem?_set_self hlt, hth]
      exact Nat.add_lt_add_right (rank_step hr) (n + 2)
    · rw [Holds, hphase] at hholds
      have hnone : NoThread s := hholds.1.1
      exact absurd hr (hnone.not_step hth)

/-- **Nothing holds the remove up**: some step is possible until it returns. -/
theorem step_of_stopping {pins : Levels n} {s : System n} (h : Stopping s)
    (hholds : Holds pins s) : ∃ e, (step s e).isSome = true := by
  rcases h with ⟨t, hphase⟩ | ⟨todo, hphase⟩
  · rw [Holds, hphase] at hholds
    have hrunning : Running s t true := hholds
    obtain ⟨th, hth, -⟩ := hrunning.thread
    by_cases hpc : th.pc = .returned
    · refine ⟨.kthreadStopReturns, ?_⟩
      obtain ⟨pc, stop, by_⟩ := th
      obtain rfl : pc = .returned := hpc
      simp [step, myledsRemove, hphase, hth]
    · refine ⟨.thread t, ?_⟩
      rw [step, threadStep, hth]
      obtain ⟨pc, stop, by_⟩ := th
      cases pc with
      | returned => exact absurd rfl hpc
      | _ => rfl
  · cases todo with
    | nil => exact ⟨.removeReturns, by simp [step, myledsRemove, hphase]⟩
    | cons w todo => exact ⟨.ledOff, by simp [step, myledsRemove, hphase]⟩

/-! ## What the thread still does -/

/-- **A thread asked to stop and its debt**: what it owed, what it has paid and what
it still owes. -/
def Owes (t : ℕ) (total os : List (Act n)) (s : System n) : Prop :=
  ∃ th, s.threads[t]? = some th ∧ th.shouldStop = true ∧ total = os ++ th.pc.owed

/-- **Every step leaves the debt what it was.** -/
theorem owes_step (t : ℕ) (total os : List (Act n)) (s : System n) (e : Event) (s' : System n)
    (h : Owes t total os s) (hstep : step s e = some s') :
    Owes t total (os ++ threadActs t s e) s' := by
  obtain ⟨th, hth, hstop, htotal⟩ := h
  have hlt : t < s.threads.length := (List.getElem?_eq_some_iff.mp hth).1
  have hleft {s' : System n} {th' : Thread n} (hth' : s'.threads[t]? = some th')
      (hstop' : th'.shouldStop = true) (hpc : th'.pc = th.pc) : Owes t total (os ++ []) s' :=
    ⟨th', hth', hstop', by rw [List.append_nil, hpc, htotal]⟩
  cases move_of_step hstep with
  | probes | lookupFails | lookups | runFails | removes | stopReturns | ledOff | removeReturns =>
    exact hleft hth hstop rfl
  | runs hphase => exact hleft ((List.getElem?_append_left hlt).trans hth) hstop rfl
  | stops t' hphase =>
    have hmodify : (s.threads.modify t' fun th => { th with shouldStop := true })[t]?
        = some { th with shouldStop := true } := by
      rw [List.getElem?_modify, hth]
      show some (if t' = t then { th with shouldStop := true } else th) = _
      by_cases hne : t' = t
      · rw [if_pos hne]
      · rw [if_neg hne, ← hstop]
    exact hleft hmodify rfl rfl
  | threadSteps t' th' r hth' hr =>
    by_cases hne : t' = t
    · subst hne
      obtain rfl := Option.some.inj (hth.symm.trans hth')
      rw [hstop] at hr
      rw [threadActs, if_pos rfl, hth]
      refine ⟨_, List.getElem?_set_self hlt, hstop, ?_⟩
      rw [htotal, owed_step hr]
      exact (List.append_assoc _ _ _).symm
    · rw [threadActs, if_neg hne]
      exact hleft ((List.getElem?_set_ne hne).trans hth) hstop rfl

/-- Each LED of a round is a sleep. -/
theorem count_msleep (is : List (Fin n)) : (is.flatMap blink).count .msleep = is.length := by
  induction is with
  | nil => rfl
  | cons i is ih =>
    rw [List.flatMap_cons, List.count_append, ih, List.length_cons, Nat.add_comm]
    rfl

/-- How long an LED is lit, the argument of `msleep`. -/
def Program.litFor : Program → ℕ
  | .ledKer => 333
  | .usrLedKer => 250

/-- **A remove comes to its end**, in either program. From `kthread_stop` on, as long
as the remove has not returned, some step is possible; whatever the order of the
steps, there are at most four for each LED and three before it returns; and the
thread has not asked for more than a second of sleep in them. -/
theorem remove_completes (p : Program) (pins : Levels p.leds) {es : List Event}
    {s : System p.leds} (hrun : Transition.run step (initial pins) es = some s) {t : ℕ}
    (hphase : s.phase = .waiting t) {es' : List Event} {u : System p.leds}
    (hrun' : Transition.run step s es' = some u) (hnot : .removeReturns ∉ es') :
    es'.length ≤ 4 * p.leds + 3
      ∧ (∃ e, (step u e).isSome = true)
      ∧ (Transition.outputs step (threadActs t) s es').count .msleep * p.litFor ≤ 1000 := by
  have hholds : Holds pins s :=
    Transition.invariant (holds_step pins) (holds_initial pins) ⟨es, List.prefix_rfl, hrun⟩
  have hok : Transition.AllOk step (fun _ e => e ≠ .removeReturns) s es' :=
    (Transition.allOk_iff_forall_mem hrun').mpr fun e he heq => hnot (heq ▸ he)
  obtain ⟨⟨hstopping, hholds'⟩, hle⟩ := Transition.length_le_of_rank
    (P := fun s => Stopping s ∧ Holds pins s) rank_step_of_stopping
    ⟨Or.inl ⟨t, hphase⟩, hholds⟩ hok hrun'
  rw [Holds, hphase] at hholds
  obtain ⟨th, hth, -, hstop, -⟩ := Running.thread hholds
  have hranks : s.rank ≤ 4 * p.leds + 4 := by
    have hpc := rank_le th.pc
    rw [System.rank, hphase]
    dsimp only
    rw [hth, Option.elim_some]
    omega
  have hranku : 0 < u.rank := by
    rcases hstopping with ⟨t', hphase'⟩ | ⟨todo, hphase'⟩ <;>
      simp only [System.rank, hphase'] <;> omega
  refine ⟨by omega, step_of_stopping hstopping hholds', ?_⟩
  -- the thread does no more than it owes to its round
  obtain ⟨th', -, -, htotal⟩ := Transition.invariant_outputs (owes_step t th.pc.owed)
    (show Owes t th.pc.owed [] s from ⟨th, hth, hstop, rfl⟩) hrun'
  have hpaid : Transition.outputs step (threadActs t) s es' <+: th.pc.owed := ⟨_, htotal.symm⟩
  have hcount := (hpaid.sublist.trans (owed_suffix th.pc).sublist).count_le .msleep
  rw [round, count_msleep, List.length_finRange] at hcount
  calc (Transition.outputs step (threadActs t) s es').count .msleep * p.litFor
      ≤ p.leds * p.litFor := Nat.mul_le_mul_right _ hcount
    _ ≤ 1000 := by cases p <;> decide

/-- The same thread, until the remove is about to return. -/
theorem remove_completes_blinkRun :
    ((blinkRun.drop 19).take 13).length ≤ 4 * Program.ledKer.leds + 3
      ∧ ∃ u : System Program.ledKer.leds,
        Transition.run step (initial fun _ => false) (blinkRun.take 32) = some u
          ∧ ∃ e, (step u e).isSome = true := by
  have hrun : Transition.run step (initial fun _ => false : System Program.ledKer.leds)
      (blinkRun.take 19) = some _ := rfl
  obtain ⟨hlength, hnext, -⟩ := remove_completes .ledKer (fun _ => false) hrun rfl
    (show Transition.run step _ ((blinkRun.drop 19).take 13) = some _ from rfl)
    (by simp [blinkRun])
  exact ⟨hlength, _, rfl, hnext⟩

end Blink
