import Mathlib.Data.List.Basic
import Mathlib.Data.List.Infix
import Mathlib.Tactic.Common

/-!
# Runs of a transition system

A system in which an event either leads from a state to another or is not
possible there, and its runs: finite lists of events, each possible where it
comes. What is said about a run is said about every state it passes through,
`Reached`, the first and the last among them.

A property that steps keep holds of every state reached; the rule here asks
a step to keep it only under a condition on the event and the state it finds,
and the run to meet the condition at every step (`AllOk`). Where breaking the
condition is at once seen in the next state, the two are the same thing:
`allOk_iff_forall_reached`.
-/

namespace Transition

variable {σ ε : Type}

/-- The state a list of events leads to, if each is possible in turn. -/
def run (step : σ → ε → Option σ) (s : σ) (es : List ε) : Option σ := es.foldlM step s

/-- **The states a run passes through.** -/
def Reached (step : σ → ε → Option σ) (s : σ) (es : List ε) (t : σ) : Prop :=
  ∃ pre, pre <+: es ∧ run step s pre = some t

/-- **Every step of the run meets a condition**, on the event and the state in
which it comes. -/
def AllOk (step : σ → ε → Option σ) (ok : σ → ε → Prop) : σ → List ε → Prop
  | _, [] => True
  | s, e :: es => ok s e ∧ ∀ s', step s e = some s' → AllOk step ok s' es

variable {step : σ → ε → Option σ} {ok : σ → ε → Prop}

theorem run_cons (s : σ) (e : ε) (es : List ε) :
    run step s (e :: es) = (step s e).bind (fun s' => run step s' es) := List.foldlM_cons

theorem run_cons_of_eq {s s' : σ} {e : ε} (h : step s e = some s') (es : List ε) :
    run step s (e :: es) = run step s' es := by
  rw [run_cons, h, Option.bind_some]

/-- A run of one list of events after another. -/
theorem run_append_of_eq {s s' : σ} {es : List ε} (h : run step s es = some s') (fs : List ε) :
    run step s (es ++ fs) = run step s' fs := by
  unfold run at h ⊢
  rw [List.foldlM_append, h]
  rfl

/-- The condition on a run whose first event is possible. -/
theorem allOk_cons_of_eq {s s' : σ} {e : ε} {es : List ε} (h : step s e = some s') :
    AllOk step ok s (e :: es) ↔ ok s e ∧ AllOk step ok s' es := by
  rw [AllOk, h]
  simp only [Option.some.injEq, forall_eq']

/-- Whether a run meets a condition can be computed by running it. -/
instance decidableAllOk [∀ s e, Decidable (ok s e)] :
    ∀ (s : σ) (es : List ε), Decidable (AllOk step ok s es)
  | _, [] => isTrue trivial
  | s, e :: es =>
    match h : step s e with
    | none => decidable_of_iff (ok s e)
        ⟨fun hok => ⟨hok, fun _ h' => absurd (h.symm.trans h') (Option.some_ne_none _).symm⟩,
          And.left⟩
    | some s' =>
      have := decidableAllOk s' es
      decidable_of_iff (ok s e ∧ AllOk step ok s' es) (allOk_cons_of_eq h).symm

/-- A run passes through the state it starts from. -/
theorem reached_self (s : σ) (es : List ε) : Reached step s es s :=
  ⟨[], List.nil_prefix, rfl⟩

/-- A run passes through its first state and those of the rest. -/
theorem reached_cons_iff {s s' : σ} {e : ε} (h : step s e = some s') (es : List ε) (t : σ) :
    Reached step s (e :: es) t ↔ t = s ∨ Reached step s' es t := by
  constructor
  · rintro ⟨pre, hpre, hrun⟩
    cases pre with
    | nil => exact Or.inl (Option.some.inj hrun).symm
    | cons e' pre =>
      obtain ⟨rfl, hpre'⟩ := List.cons_prefix_cons.mp hpre
      rw [run_cons_of_eq h] at hrun
      exact Or.inr ⟨pre, hpre', hrun⟩
  · rintro (rfl | ⟨pre, hpre, hrun⟩)
    · exact reached_self t (e :: es)
    · refine ⟨e :: pre, List.cons_prefix_cons.mpr ⟨rfl, hpre⟩, ?_⟩
      rw [run_cons_of_eq h, hrun]

/-- Where the first event is not possible, a run passes through nothing but
its first state. -/
theorem eq_of_reached_cons {s t : σ} {e : ε} {es : List ε} (h : step s e = none)
    (hr : Reached step s (e :: es) t) : t = s := by
  obtain ⟨pre, hpre, hrun⟩ := hr
  cases pre with
  | nil => exact (Option.some.inj hrun).symm
  | cons e' pre =>
    obtain ⟨rfl, -⟩ := List.cons_prefix_cons.mp hpre
    rw [run_cons, h] at hrun
    exact absurd hrun (Option.some_ne_none t).symm

/-- **The invariant rule.** What every step keeps that meets the condition
holds of every state reached by a run whose steps all meet it. -/
theorem invariant_of_allOk {P : σ → Prop}
    (hP : ∀ s e s', P s → ok s e → step s e = some s' → P s') {s t : σ} {es : List ε}
    (hs : P s) (hok : AllOk step ok s es) (hr : Reached step s es t) : P t := by
  induction es generalizing s with
  | nil =>
    obtain ⟨pre, hpre, hrun⟩ := hr
    rw [List.prefix_nil.mp hpre] at hrun
    exact Option.some.inj hrun ▸ hs
  | cons e es ih =>
    cases h : step s e with
    | none => exact eq_of_reached_cons h hr ▸ hs
    | some s' =>
      rcases (reached_cons_iff h es t).mp hr with rfl | hr'
      · exact hs
      · exact ih (hP s e s' hs hok.1 h) (hok.2 s' h) hr'

/-- **The invariant rule without a condition.** What every step keeps holds of
every state a run passes through. -/
theorem invariant {P : σ → Prop} (hP : ∀ s e s', P s → step s e = some s' → P s') {s t : σ}
    {es : List ε} (hs : P s) (hr : Reached step s es t) : P t := by
  have hok : ∀ (es : List ε) (s : σ), AllOk step (fun _ _ => True) s es := by
    intro es
    induction es with
    | nil => exact fun _ => trivial
    | cons e es ih => exact fun s => ⟨trivial, fun s' _ => ih s'⟩
  exact invariant_of_allOk (fun s e s' h _ => hP s e s' h) hs (hok es s) hr

/-- Where the run is possible, a condition on the events alone is one on every
event of the list. -/
theorem allOk_iff_forall_mem {ok : ε → Prop} {s u : σ} {es : List ε}
    (hrun : run step s es = some u) :
    AllOk step (fun _ e => ok e) s es ↔ ∀ e ∈ es, ok e := by
  induction es generalizing s with
  | nil => simp [AllOk]
  | cons e es ih =>
    rw [run_cons] at hrun
    obtain ⟨s', hs', hrun'⟩ := Option.bind_eq_some_iff.mp hrun
    rw [AllOk, List.forall_mem_cons, ← ih hrun']
    refine and_congr_right (fun _ => ⟨fun h => h s' hs', fun h s'' hs'' => ?_⟩)
    obtain rfl : s' = s'' := Option.some.inj (hs'.symm.trans hs'')
    exact h

/-- **Where breaking the condition shows.** If an invariant that carries the
property is kept by every step that meets the condition, and a step that does
not meet it leads to a state without the property, then the runs whose states
all have the property are those whose steps all meet the condition. -/
theorem allOk_iff_forall_reached {P Q : σ → Prop}
    (hP : ∀ s e s', P s → ok s e → step s e = some s' → P s')
    (hPQ : ∀ s, P s → Q s)
    (hbad : ∀ s e s', P s → ¬ ok s e → step s e = some s' → ¬ Q s')
    {s u : σ} {es : List ε} (hs : P s) (hrun : run step s es = some u) :
    AllOk step ok s es ↔ ∀ t, Reached step s es t → Q t := by
  refine ⟨fun hok t hr => hPQ t (invariant_of_allOk hP hs hok hr), fun h => ?_⟩
  induction es generalizing s with
  | nil => trivial
  | cons e es ih =>
    rw [run_cons] at hrun
    cases hstep : step s e with
    | none =>
      rw [hstep] at hrun
      exact absurd hrun (Option.some_ne_none u).symm
    | some s' =>
      rw [hstep, Option.bind_some] at hrun
      have hnext : Q s' := h s' ((reached_cons_iff hstep es s').mpr (Or.inr (reached_self s' es)))
      have hoke : ok s e := by
        by_contra hne
        exact hbad s e s' hs hne hstep hnext
      refine ⟨hoke, fun s'' hs'' => ?_⟩
      obtain rfl : s' = s'' := Option.some.inj (hstep.symm.trans hs'')
      exact ih (hP s e s' hs hoke hstep) hrun
        (fun t hr => h t ((reached_cons_iff hstep es t).mpr (Or.inr hr)))

/-! ## What a run puts out -/

variable {α : Type} {out : σ → ε → List α}

/-- **What a run puts out**, one possible step after another. -/
def outputs (step : σ → ε → Option σ) (out : σ → ε → List α) : σ → List ε → List α
  | _, [] => []
  | s, e :: es =>
    match step s e with
    | none => []
    | some s' => out s e ++ outputs step out s' es

theorem outputs_cons_of_eq {s s' : σ} {e : ε} (h : step s e = some s') (es : List ε) :
    outputs step out s (e :: es) = out s e ++ outputs step out s' es := by
  rw [outputs, h]

/-- **The invariant rule with outputs.** What holds of the outputs so far and the
state, and is kept with what it puts out by every step that meets the
condition, holds at the end of a run whose steps all meet it. -/
theorem invariant_outputs_of_allOk {P : List α → σ → Prop}
    (hP : ∀ os s e s', P os s → ok s e → step s e = some s' → P (os ++ out s e) s') {s u : σ}
    {os : List α} {es : List ε} (hs : P os s) (hok : AllOk step ok s es)
    (hrun : run step s es = some u) : P (os ++ outputs step out s es) u := by
  induction es generalizing s os with
  | nil =>
    rw [outputs, List.append_nil]
    exact Option.some.inj hrun ▸ hs
  | cons e es ih =>
    rw [run_cons] at hrun
    obtain ⟨s', hs', hrun'⟩ := Option.bind_eq_some_iff.mp hrun
    rw [outputs_cons_of_eq hs', ← List.append_assoc]
    exact ih (hP os s e s' hs hok.1 hs') (hok.2 s' hs') hrun'

/-- **The same without a condition.** -/
theorem invariant_outputs {P : List α → σ → Prop}
    (hP : ∀ os s e s', P os s → step s e = some s' → P (os ++ out s e) s') {s u : σ}
    {os : List α} {es : List ε} (hs : P os s) (hrun : run step s es = some u) :
    P (os ++ outputs step out s es) u := by
  have hok : AllOk step (fun _ _ => True) s es :=
    (allOk_iff_forall_mem hrun).mpr fun _ _ => trivial
  exact invariant_outputs_of_allOk (fun os s e s' h _ => hP os s e s' h) hs hok hrun

/-- **The rule of a rank.** Where an invariant lets no step through that does not
lower the rank, a run is no longer than the rank it starts from. -/
theorem length_le_of_rank {P : σ → Prop} {rank : σ → ℕ}
    (hP : ∀ s e s', P s → ok s e → step s e = some s' → P s' ∧ rank s' < rank s) {s u : σ}
    {es : List ε} (hs : P s) (hok : AllOk step ok s es) (hrun : run step s es = some u) :
    P u ∧ es.length + rank u ≤ rank s := by
  induction es generalizing s with
  | nil =>
    obtain rfl : s = u := Option.some.inj hrun
    exact ⟨hs, (Nat.zero_add (rank s)).le⟩
  | cons e es ih =>
    rw [run_cons] at hrun
    obtain ⟨s', hs', hrun'⟩ := Option.bind_eq_some_iff.mp hrun
    obtain ⟨hnext, hlt⟩ := hP s e s' hs hok.1 hs'
    obtain ⟨hu, hle⟩ := ih hnext (hok.2 s' hs') hrun'
    refine ⟨hu, ?_⟩
    rw [List.length_cons]
    omega

end Transition
