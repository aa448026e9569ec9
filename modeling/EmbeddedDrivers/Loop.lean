import Mathlib.Algebra.Group.Nat.Defs
import Mathlib.Data.List.Basic
import Mathlib.Data.List.Range
import Mathlib.Data.List.Flatten

/-!
# Loops that emit

A C loop whose turns only send something is described by its *body*: from
the loop's own variables, what one turn emits and the variables of the next
turn, or none when the loop is left. A turn that leaves may still emit –
the last test of a `while` reads its operand once more – so leaving is part
of the turn and not a turn that is missing.

Nothing makes such a loop end, and a loop whose counter wraps around may
not. `Halts` is the big-step reading, in which an endless loop simply has
no derivation; `trace` runs the body for a given number of turns, and is
what an evaluation uses. `trace_of_halts` says the two agree as soon as the
turns suffice, and `halts_of_measure` is the rule that supplies the turns:
a measure every turn decreases bounds them.
-/

namespace Loop

variable {σ ω : Type}

/-- **The body of a loop**: what a turn emits from the loop's variables, and
the variables it hands to the next turn, or `none` when it leaves. -/
abbrev Body (σ ω : Type) := σ → List ω × Option σ

/-- What the loop emits in at most the given number of turns. -/
def trace (body : Body σ ω) : ℕ → σ → List ω
  | 0, _ => []
  | n + 1, s =>
    (body s).1 ++ match (body s).2 with
      | none => []
      | some s' => trace body n s'

/-- **The loop is left**, after this many turns and with this output. -/
inductive Halts (body : Body σ ω) : ℕ → σ → List ω → Prop
  | leave {s : σ} (h : (body s).2 = none) : Halts body 1 s (body s).1
  | turn {n : ℕ} {s s' : σ} {outs : List ω} (h : (body s).2 = some s')
      (rest : Halts body n s' outs) : Halts body (n + 1) s ((body s).1 ++ outs)

variable {body : Body σ ω}

/-- A turn that leaves ends the trace. -/
theorem trace_leave {s : σ} (h : (body s).2 = none) (n : ℕ) :
    trace body (n + 1) s = (body s).1 := by
  rw [trace, h, List.append_nil]

/-- A turn that goes on is followed by the trace of the rest. -/
theorem trace_turn {s s' : σ} (h : (body s).2 = some s') (n : ℕ) :
    trace body (n + 1) s = (body s).1 ++ trace body n s' := by
  rw [trace, h]

/-- **Enough turns give the result**: once the loop has been left, further
turns add nothing. -/
theorem trace_of_halts {n : ℕ} {s : σ} {outs : List ω} (h : Halts body n s outs)
    {fuel : ℕ} (hf : n ≤ fuel) : trace body fuel s = outs := by
  induction h generalizing fuel with
  | leave h =>
    obtain ⟨k, rfl⟩ := Nat.exists_eq_add_of_le' hf
    exact trace_leave h k
  | @turn n s s' outs h rest ih =>
    obtain ⟨k, rfl⟩ := Nat.exists_eq_add_of_le' hf
    rw [show k + (n + 1) = (k + n) + 1 from rfl, trace_turn h,
      ih (Nat.le_add_left n k)]

/-- **A measure bounds the turns.** A loop each of whose turns leaves or
decreases a measure is left after at most one turn more than the measure,
and that many turns of evaluation give all of its output. -/
theorem halts_of_measure (μ : σ → ℕ)
    (hμ : ∀ s s', (body s).2 = some s' → μ s' < μ s) (s : σ) :
    ∃ n ≤ μ s + 1, Halts body n s (trace body (μ s + 1) s) := by
  induction hm : μ s using Nat.strong_induction_on generalizing s with
  | h m ih =>
    cases hs : (body s).2 with
    | none =>
      refine ⟨1, Nat.le_add_left 1 m, ?_⟩
      rw [trace_leave hs]
      exact Halts.leave hs
    | some s' =>
      have hlt : μ s' < m := hm ▸ hμ s s' hs
      obtain ⟨n, hn, hrest⟩ := ih (μ s') hlt s' rfl
      refine ⟨n + 1, by omega, ?_⟩
      have htrace : trace body m s' = trace body (μ s' + 1) s' := by
        rw [trace_of_halts hrest hn, trace_of_halts hrest (hn.trans hlt)]
      rw [trace_turn hs, htrace]
      exact Halts.turn hs hrest

/-- **The loop ends** with this output, after some number of turns. -/
def Ends (body : Body σ ω) (s : σ) (outs : List ω) : Prop := ∃ n, Halts body n s outs

/-- It has one output at most. -/
theorem Ends.unique {s : σ} {outs outs' : List ω} (h : Ends body s outs)
    (h' : Ends body s outs') : outs = outs' := by
  obtain ⟨n, hn⟩ := h
  obtain ⟨n', hn'⟩ := h'
  rw [← trace_of_halts hn (Nat.le_max_left n n'), ← trace_of_halts hn' (Nat.le_max_right n n')]

/-- **A loop that always takes another turn has no end.** -/
theorem not_ends {I : σ → Prop} (hI : ∀ s, I s → ∃ s', (body s).2 = some s' ∧ I s') {s : σ}
    (hs : I s) (outs : List ω) : ¬ Ends body s outs := by
  rintro ⟨n, h⟩
  induction h with
  | @leave s hleave =>
    obtain ⟨s', hturn, -⟩ := hI s hs
    exact absurd (hleave.symm.trans hturn) (Option.some_ne_none s').symm
  | @turn n s s' outs hturn rest ih =>
    obtain ⟨t, ht, hIt⟩ := hI s hs
    obtain rfl : s' = t := Option.some.inj (hturn.symm.trans ht)
    exact ih hIt

/-- **A run listed turn by turn**: the loop goes through these states, and its
output is that of the turns in order. -/
theorem halts_of_turns (s : ℕ → σ) (out : ℕ → List ω) {n : ℕ}
    (hturn : ∀ k < n, body (s k) = (out k, some (s (k + 1)))) (hleave : body (s n) = ([], none)) :
    Halts body (n + 1) (s 0) ((List.range n).flatMap out) := by
  induction n generalizing s out with
  | zero =>
    have h : Halts body 1 (s 0) (body (s 0)).1 := Halts.leave (by rw [hleave])
    rw [hleave] at h
    exact h
  | succ n ih =>
    have hrest := ih (fun k => s (k + 1)) (fun k => out (k + 1))
      (fun k hk => hturn (k + 1) (Nat.succ_lt_succ hk)) hleave
    have hfirst := hturn 0 (Nat.succ_pos n)
    have h := Halts.turn (s := s 0) (by rw [hfirst]) hrest
    rw [hfirst] at h
    rw [List.range_succ_eq_map, List.flatMap_cons, List.flatMap_map]
    exact h

/-! ## Counting loops

`for (x = lo; x <= hi; x++)` and `for (i = 0; i < n; i++)`, with the counter
a machine word that wraps. Both emit their turns in the order of the
counter; the first is left only when the counter can pass its bound. -/

variable {w : ℕ}

/-- The word one, where the word has a bit to hold it. -/
theorem toNat_one_of_lt (h : 1 < 2 ^ w) : (1 : BitVec w).toNat = 1 :=
  BitVec.toNat_one (Nat.pos_of_ne_zero (fun h0 => by rw [h0] at h; omega))

/-- The predecessor of a word that is not zero does not wrap. -/
theorem toNat_pred {x : BitVec w} (h : 0 < x.toNat) : (x - 1).toNat = x.toNat - 1 := by
  have hone := toNat_one_of_lt (show 1 < 2 ^ w from by have := x.isLt; omega)
  rw [BitVec.toNat_sub_of_le (by rw [BitVec.le_def, hone]; exact h), hone]

/-- The body of `for (…; x <= hi; x++)`. -/
def upTo (hi : BitVec w) (out : BitVec w → List ω) : Body (BitVec w) ω :=
  fun x => if x ≤ hi then (out x, some (x + 1)) else ([], none)

/-- The body of `for (…; i < bound; i++)`. -/
def below (bound : BitVec w) (out : BitVec w → List ω) : Body (BitVec w) ω :=
  fun i => if i < bound then (out i, some (i + 1)) else ([], none)

/-- A counter below its bound takes a turn. -/
theorem upTo_turn {hi x : BitVec w} (h : x ≤ hi) (out : BitVec w → List ω) :
    upTo hi out x = (out x, some (x + 1)) := if_pos h

/-- A counter past its bound leaves. -/
theorem upTo_leave {hi x : BitVec w} (h : ¬ x ≤ hi) (out : BitVec w → List ω) :
    upTo hi out x = ([], none) := if_neg h

/-- **The output of a counting loop**: the turns of `lo, lo + 1, …, hi`, in
this order, when the counter does not wrap on its way past the bound. -/
theorem halts_upTo (hi : BitVec w) (out : BitVec w → List ω)
    (hmax : hi.toNat + 1 < 2 ^ w) (lo : BitVec w) :
    Halts (upTo hi out) (hi.toNat + 1 - lo.toNat + 1) lo
      ((List.range' lo.toNat (hi.toNat + 1 - lo.toNat)).flatMap
        (fun x => out (BitVec.ofNat w x))) := by
  have hlo := lo.isLt
  have hturn : ∀ k < hi.toNat + 1 - lo.toNat,
      upTo hi out (BitVec.ofNat w (lo.toNat + k))
        = (out (BitVec.ofNat w (lo.toNat + k)), some (BitVec.ofNat w (lo.toNat + (k + 1)))) := by
    intro k hk
    have hle : BitVec.ofNat w (lo.toNat + k) ≤ hi := by
      rw [BitVec.le_def, BitVec.toNat_ofNat, Nat.mod_eq_of_lt (by omega)]
      omega
    rw [upTo_turn hle, ← Nat.add_assoc, BitVec.ofNat_add _ 1]
    rfl
  have hleave :
      upTo hi out (BitVec.ofNat w (lo.toNat + (hi.toNat + 1 - lo.toNat))) = ([], none) := by
    refine upTo_leave (fun hle => ?_) out
    rw [BitVec.le_def, BitVec.toNat_ofNat, Nat.mod_eq_of_lt (by omega)] at hle
    omega
  have h := halts_of_turns (fun k => BitVec.ofNat w (lo.toNat + k)) _ hturn hleave
  have hstart : BitVec.ofNat w (lo.toNat + 0) = lo := by
    rw [Nat.add_zero, BitVec.ofNat_toNat, BitVec.setWidth_eq]
  rw [hstart] at h
  rw [List.range'_eq_map_range, List.flatMap_map]
  exact h

/-- **A loop up to the last value of its counter has no end.** -/
theorem not_ends_upTo {hi : BitVec w} (hmax : hi.toNat + 1 = 2 ^ w) (out : BitVec w → List ω)
    (lo : BitVec w) (outs : List ω) : ¬ Ends (upTo hi out) lo outs := by
  refine not_ends (I := fun _ => True) (fun x _ => ⟨x + 1, ?_, trivial⟩) trivial outs
  have hle : x ≤ hi := by
    have := x.isLt
    rw [BitVec.le_def]
    omega
  rw [upTo_turn hle]

/-- A strict bound is the bound one below, so the two loops are one. -/
theorem below_eq_upTo {bound : BitVec w} (h : 0 < bound.toNat)
    (out : BitVec w → List ω) : below bound out = upTo (bound - 1) out := by
  funext i
  have hiff : i < bound ↔ i ≤ bound - 1 := by
    rw [BitVec.lt_def, BitVec.le_def, toNat_pred h]
    omega
  unfold below upTo
  simp only [hiff]

/-- **A loop over a fixed count** emits its turns `0, 1, …, bound - 1`. -/
theorem trace_below {bound : BitVec w} (h : 0 < bound.toNat)
    (out : BitVec w → List ω) {fuel : ℕ} (hf : bound.toNat + 1 ≤ fuel) :
    trace (below bound out) fuel 0
      = (List.range bound.toNat).flatMap (fun i => out (BitVec.ofNat w i)) := by
  have hb := bound.isLt
  have hpred := toNat_pred h
  have hhalts := halts_upTo (bound - 1) out (by omega) 0
  rw [hpred, show (0 : BitVec w).toNat = 0 from BitVec.toNat_zero,
    show bound.toNat - 1 + 1 - 0 = bound.toNat from by omega,
    ← List.range_eq_range'] at hhalts
  rw [below_eq_upTo h]
  exact trace_of_halts hhalts hf

/-- It ends, with that output. -/
theorem ends_below {bound : BitVec w} (h : 0 < bound.toNat) (out : BitVec w → List ω) {fuel : ℕ}
    (hf : bound.toNat + 1 ≤ fuel) : Ends (below bound out) 0 (trace (below bound out) fuel 0) := by
  have hb := bound.isLt
  have hpred := toNat_pred h
  have hhalts := halts_upTo (bound - 1) out (by omega) 0
  rw [← below_eq_upTo h] at hhalts
  have hturns : (bound - 1).toNat + 1 - (0 : BitVec w).toNat + 1 ≤ fuel := by omega
  rw [trace_of_halts hhalts hturns]
  exact ⟨_, hhalts⟩

end Loop
