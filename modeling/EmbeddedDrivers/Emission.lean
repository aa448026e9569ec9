import EmbeddedDrivers.Loop

/-!
# Computations that emit and get an answer

In `EmbeddedDrivers.Loop` a turn emits, and what it emits is all there is to
say. Where every emission is answered, and the code looks at the answer, the
same code is a computation on the list of what has been emitted so far: the
answers are a sequence given from outside, and an emission takes the next of
them.

A computation need not let its answers decide what it emits next. `Emits` says
of one that it does not, and its rules follow the shape of the code, down to
the counting loops, whose computations emit what the loops of
`EmbeddedDrivers.Loop` do (`loopM_emits`). Code that drops the answers is
thereby no more than the list of what it emits.
-/

namespace Emission

variable {α β σ ω : Type}

/-- An emission, and the answer to it. -/
def emit (answers : ℕ → α) (o : ω) : StateM (List ω) α :=
  modifyGet fun sent => (answers sent.length, sent ++ [o])

/-- **The computation emits this**, whatever the answers are. -/
def Emits (c : StateM (List ω) α) (outs : List ω) : Prop :=
  ∀ sent, (c.run sent).2 = sent ++ outs

theorem emits_emit (answers : ℕ → α) (o : ω) : Emits (emit answers o) [o] := fun _ => rfl

theorem emits_pure (a : α) : Emits (pure a : StateM (List ω) α) [] :=
  fun sent => (List.append_nil sent).symm

/-- What comes second is emitted second. -/
theorem Emits.bind {c : StateM (List ω) α} {k : α → StateM (List ω) β} {ts us : List ω}
    (hc : Emits c ts) (hk : ∀ a, Emits (k a) us) : Emits (c >>= k) (ts ++ us) := by
  intro sent
  show ((k (c.run sent).1).run (c.run sent).2).2 = _
  rw [hk, hc, List.append_assoc]

/-- A computation that ends with a value of its own, whatever the one before
it returns. -/
theorem Emits.run_then {c : StateM (List ω) α} {ts : List ω} (hc : Emits c ts) (b : β)
    (sent : List ω) : (c >>= fun _ => pure b).run sent = (b, sent ++ ts) := by
  show (b, (c.run sent).2) = _
  rw [hc]

/-! ## Loops -/

/-- A loop whose turns are computations, run for a number of turns. -/
def loopM (body : σ → StateM (List ω) (Option σ)) : ℕ → σ → StateM (List ω) Unit
  | 0, _ => pure ()
  | n + 1, s => do
    match ← body s with
    | none => pure ()
    | some s' => loopM body n s'

/-- The body of `for (…; x <= hi; x++)`. -/
def upToM {w : ℕ} (hi : BitVec w) (turn : BitVec w → StateM (List ω) Unit) (x : BitVec w) :
    StateM (List ω) (Option (BitVec w)) :=
  if x ≤ hi then do
    turn x
    pure (some (x + 1))
  else pure none

/-- The body of `for (…; i < bound; i++)`. -/
def belowM {w : ℕ} (bound : BitVec w) (turn : BitVec w → StateM (List ω) Unit) (i : BitVec w) :
    StateM (List ω) (Option (BitVec w)) :=
  if i < bound then do
    turn i
    pure (some (i + 1))
  else pure none

/-- **A body of computations follows a body** that emits the same and goes on in
the same way. -/
def Follows (body : σ → StateM (List ω) (Option σ)) (b : Loop.Body σ ω) : Prop :=
  ∀ s sent, (body s).run sent = ((b s).2, sent ++ (b s).1)

/-- **A loop emits what its body does.** -/
theorem loopM_emits {body : σ → StateM (List ω) (Option σ)} {b : Loop.Body σ ω}
    (h : Follows body b) (n : ℕ) (s : σ) : Emits (loopM body n s) (Loop.trace b n s) := by
  induction n generalizing s with
  | zero => exact emits_pure ()
  | succ n ih =>
    intro sent
    have hrun : ((loopM body (n + 1) s).run sent).2
        = ((match ((body s).run sent).1 with
            | none => pure ()
            | some s' => loopM body n s' : StateM (List ω) Unit).run ((body s).run sent).2).2 := rfl
    rw [hrun, h s sent]
    dsimp only
    cases hnext : (b s).2 with
    | none =>
      rw [Loop.trace_leave hnext]
      rfl
    | some s' =>
      rw [Loop.trace_turn hnext, ← List.append_assoc]
      exact ih s' _

/-- A body that counts while a test holds. -/
theorem follows_count {w : ℕ} (p : BitVec w → Prop) [DecidablePred p]
    {turn : BitVec w → StateM (List ω) Unit} {out : BitVec w → List ω}
    (h : ∀ x, Emits (turn x) (out x)) :
    Follows (fun x => if p x then do turn x; pure (some (x + 1)) else pure none)
      (fun x => if p x then (out x, some (x + 1)) else ([], none)) := by
  intro x sent
  dsimp only
  split
  · exact congrArg (Prod.mk _) (h x sent)
  · exact congrArg (Prod.mk _) (List.append_nil sent).symm

theorem follows_upToM {w : ℕ} (hi : BitVec w) {turn : BitVec w → StateM (List ω) Unit}
    {out : BitVec w → List ω} (h : ∀ x, Emits (turn x) (out x)) :
    Follows (upToM hi turn) (Loop.upTo hi out) := follows_count (· ≤ hi) h

theorem follows_belowM {w : ℕ} (bound : BitVec w) {turn : BitVec w → StateM (List ω) Unit}
    {out : BitVec w → List ω} (h : ∀ i, Emits (turn i) (out i)) :
    Follows (belowM bound turn) (Loop.below bound out) := follows_count (· < bound) h

end Emission
