import EmbeddedDrivers.Transition
import Mathlib.Data.List.Forall2

/-!
# One transition system following another

What a component is for is often said best by a second, smaller system, and
that the component does it by a relation between the states of the two. The
relation has to survive each event: where the one takes a step the other takes
one too, into states that are related again, and where the one refuses the
event the other refuses it as well (`Follows`). The events need not be the same
ones; which of them correspond is a relation too.

The condition under which the first system behaves is a condition on the event
and the state it finds, as in `EmbeddedDrivers.Transition`. For a run whose
steps all meet it the two systems then go the whole way together
(`Follows.runs`), or are stopped by the same event.
-/

namespace Transition

variable {σ τ ε δ : Type}

/-- **A system follows another** through a relation of their states, where their
events correspond. -/
def Follows (step : σ → ε → Option σ) (step' : τ → δ → Option τ) (E : ε → δ → Prop)
    (ok : σ → ε → Prop) (R : σ → τ → Prop) : Prop :=
  ∀ s t e f, R s t → E e f → ok s e → Option.Rel R (step s e) (step' t f)

variable {step : σ → ε → Option σ} {step' : τ → δ → Option τ} {E : ε → δ → Prop}
  {ok : σ → ε → Prop} {R : σ → τ → Prop}

/-- **Whole runs**, possible for the one as far as they are for the other. -/
theorem Follows.runs (h : Follows step step' E ok R) {s : σ} {t : τ} (hst : R s t)
    {es : List ε} {fs : List δ} (hes : List.Forall₂ E es fs) (hok : AllOk step ok s es) :
    Option.Rel R (run step s es) (run step' t fs) := by
  induction hes generalizing s t with
  | nil => exact .some hst
  | @cons e f es fs hef _ ih =>
    have hstep := h s t e f hst hef hok.1
    rw [run_cons, run_cons]
    generalize hs : step s e = next at hstep ⊢
    generalize step' t f = next' at hstep ⊢
    cases hstep with
    | none => exact .none
    | some hst' => exact ih hst' (hok.2 _ hs)

/-- **What related states have to show**, at the end of whole runs. -/
theorem Follows.runs_imp (h : Follows step step' E ok R) {S : σ → τ → Prop}
    (hS : ∀ s t, R s t → S s t) {s : σ} {t : τ} (hst : R s t) {es : List ε} {fs : List δ}
    (hes : List.Forall₂ E es fs) (hok : AllOk step ok s es) :
    Option.Rel S (run step s es) (run step' t fs) := by
  have hruns := h.runs hst hes hok
  generalize run step s es = last at hruns ⊢
  generalize run step' t fs = last' at hruns ⊢
  cases hruns with
  | none => exact .none
  | some hrel => exact .some (hS _ _ hrel)

/-- A condition that is always met is met along every run. -/
theorem allOk_of_forall (hok : ∀ s e, ok s e) (s : σ) (es : List ε) : AllOk step ok s es := by
  induction es generalizing s with
  | nil => trivial
  | cons e es ih => exact ⟨hok s e, fun s' _ => ih s'⟩

end Transition
