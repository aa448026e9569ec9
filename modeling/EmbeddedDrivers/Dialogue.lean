import EmbeddedDrivers.Transition

/-!
# Programs that ask

A program that lives on system calls is a tree: it is done, or it asks something
and goes on with the answer. What the answers are is not up to it. A
*conversation* is one way through the tree, the questions asked with the answers
they got, and what is said of a program is said of all its conversations.

A *monitor* listens to a conversation. It is a transition system whose events
are the questions with their answers, and it has no next state for what must not
be asked. `Meets` is that the monitor gets through, whatever the answers, and
is content at the end; it is computed along the tree and has a rule for each way
of building one (`meets_bind`, `Meets.forM`). `Meets.converses` is what it says of
conversations.
-/

namespace Dialogue

variable {C : Type} {A : C → Type} {α β σ : Type}

/-- **A program**: done, or asking. -/
inductive Program (A : C → Type) (α : Type)
  | done (a : α)
  | ask (c : C) (next : A c → Program A α)

/-- One program and then another. -/
def Program.bind : Program A α → (α → Program A β) → Program A β
  | .done a, k => k a
  | .ask c next, k => .ask c fun a => (next a).bind k

instance : Monad (Program A) where
  pure := .done
  bind := .bind

/-- A question on its own. -/
def call (c : C) : Program A (A c) := .ask c .done

/-- A question with its answer. -/
abbrev Exchange (A : C → Type) := (c : C) × A c

/-- **A conversation** of a program, and what the program ends with. -/
inductive Converses : Program A α → List (Exchange A) → α → Prop
  | done (a : α) : Converses (.done a) [] a
  | ask {c : C} {next : A c → Program A α} {x : A c} {tr : List (Exchange A)} {a : α}
      (rest : Converses (next x) tr a) : Converses (.ask c next) (⟨c, x⟩ :: tr) a

/-! ## Given answers

Where every question has its answer beforehand, there is one conversation. -/

section Answered

variable (ans : (c : C) → A c)

/-- What a program ends with. -/
def Program.answered : Program A α → α
  | .done a => a
  | .ask c next => (next (ans c)).answered

theorem answered_bind (p : Program A α) (k : α → Program A β) :
    (p >>= k).answered ans = (k (p.answered ans)).answered ans := by
  show (p.bind k).answered ans = _
  induction p with
  | done a => rfl
  | ask c next ih => exact ih (ans c)

/-- **There is a conversation** with these answers. -/
theorem exists_converses_answered (p : Program A α) :
    ∃ tr, Converses p tr (p.answered ans) ∧ ∀ e ∈ tr, e.2 = ans e.1 := by
  induction p with
  | done a => exact ⟨[], .done a, fun e he => absurd he List.not_mem_nil⟩
  | ask c next ih =>
    obtain ⟨tr, htr, hans⟩ := ih (ans c)
    exact ⟨⟨c, ans c⟩ :: tr, .ask htr, List.forall_mem_cons.mpr ⟨rfl, hans⟩⟩

end Answered

/-! ## Monitors -/

/-- **The monitor gets through**, whatever the answers are, and ends in a state and
with a value that are as they should be. -/
def Meets (step : σ → Exchange A → Option σ) (post : α → σ → Prop) : σ → Program A α → Prop
  | s, .done a => post a s
  | s, .ask c next => ∀ x, ∃ s', step s ⟨c, x⟩ = some s' ∧ Meets step post s' (next x)

variable {step : σ → Exchange A → Option σ} {post post' : α → σ → Prop} {s : σ}

/-- **In every conversation.** -/
theorem Meets.converses {p : Program A α} (h : Meets step post s p) {tr : List (Exchange A)}
    {a : α} (htr : Converses p tr a) :
    ∃ s', Transition.run step s tr = some s' ∧ post a s' := by
  induction htr generalizing s with
  | done a => exact ⟨s, rfl, h⟩
  | @ask c next x tr a rest ih =>
    obtain ⟨s₁, hs₁, hrest⟩ := h x
    obtain ⟨s', hrun, hpost⟩ := ih hrest
    exact ⟨s', (Transition.run_cons_of_eq hs₁ tr).trans hrun, hpost⟩

/-- What is enough at the end is enough. -/
theorem Meets.mono {p : Program A α} (h : Meets step post s p)
    (hpost : ∀ a s, post a s → post' a s) : Meets step post' s p := by
  induction p generalizing s with
  | done a => exact hpost a s h
  | ask c next ih =>
    intro x
    obtain ⟨s', hs', hrest⟩ := h x
    exact ⟨s', hs', ih x hrest⟩

/-- **One program and then another.** -/
theorem meets_bind {p : Program A α} {k : α → Program A β} {post : β → σ → Prop} :
    Meets step post s (p >>= k) ↔ Meets step (fun a s' => Meets step post s' (k a)) s p := by
  show Meets step post s (p.bind k) ↔ _
  induction p generalizing s with
  | done a => exact Iff.rfl
  | ask c next ih =>
    exact forall_congr' fun x => exists_congr fun s' => and_congr_right fun _ => ih x

/-- **A question** and what comes after its answer. -/
theorem meets_call {c : C} {k : A c → Program A β} {post : β → σ → Prop} :
    Meets step post s (call c >>= k)
      ↔ ∀ x, ∃ s', step s ⟨c, x⟩ = some s' ∧ Meets step post s' (k x) := Iff.rfl

/-- **A list of programs**, one after another, each of which takes the monitor on. -/
theorem Meets.forM {ι : Type} {I : List ι → σ → Prop} {f : ι → Program A Unit}
    (hI : ∀ i is s, I (i :: is) s → Meets step (fun _ s' => I is s') s (f i)) {is : List ι}
    (h : I is s) : Meets step (fun _ s' => I [] s') s (forM is f) := by
  induction is generalizing s with
  | nil => exact h
  | cons i is ih => exact meets_bind.mpr ((hI i is s h).mono fun _ _ => ih)

end Dialogue
