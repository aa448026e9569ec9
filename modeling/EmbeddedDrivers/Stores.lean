import Mathlib.Data.List.Basic
import Mathlib.Logic.Function.Basic
import Mathlib.Tactic.Common

/-!
# Stores one after another

A memory, or a set of output lines, after a list of stores: each puts a value
under a key, and what a key holds in the end is what was stored under it last.
Nothing is said about what the keys are.
-/

namespace Stores

variable {κ α : Type} [DecidableEq κ]

/-- **A memory after a list of stores**, each of a value under a key. -/
def storeAll (m : κ → α) (ss : List (κ × α)) : κ → α :=
  ss.foldl (fun m s => Function.update m s.1 s.2) m

theorem storeAll_append (m : κ → α) (ss ts : List (κ × α)) :
    storeAll m (ss ++ ts) = storeAll (storeAll m ss) ts := List.foldl_append

/-- A key stored under by none of them keeps its value. -/
theorem storeAll_of_not_mem (m : κ → α) {ss : List (κ × α)} {q : κ}
    (h : q ∉ ss.map Prod.fst) : storeAll m ss q = m q := by
  induction ss generalizing m with
  | nil => rfl
  | cons s ss ih =>
    rw [List.map_cons, List.mem_cons, not_or] at h
    show storeAll (Function.update m s.1 s.2) ss q = m q
    rw [ih _ h.2, Function.update_of_ne h.1]

/-- **Stores of one value for each key**: the keys have it, the others keep
theirs. -/
theorem storeAll_map (m v : κ → α) (ks : List κ) (q : κ) :
    storeAll m (ks.map fun k => (k, v k)) q = if q ∈ ks then v q else m q := by
  induction ks generalizing m with
  | nil => rw [if_neg List.not_mem_nil]; rfl
  | cons k ks ih =>
    show storeAll (Function.update m k (v k)) (ks.map fun k => (k, v k)) q = _
    rw [ih]
    by_cases hq : q ∈ ks
    · rw [if_pos hq, if_pos (List.mem_cons_of_mem k hq)]
    · rw [if_neg hq]
      by_cases hk : q = k
      · rw [hk, Function.update_self, if_pos List.mem_cons_self]
      · rw [Function.update_of_ne hk, if_neg (by simp [hk, hq])]

/-- What a key holds that is stored under does not depend on what was there
before. -/
theorem storeAll_of_mem (m m' : κ → α) {ss : List (κ × α)} {q : κ} (h : q ∈ ss.map Prod.fst) :
    storeAll m ss q = storeAll m' ss q := by
  induction ss generalizing m m' with
  | nil => exact absurd h List.not_mem_nil
  | cons s ss ih =>
    show storeAll (Function.update m s.1 s.2) ss q = storeAll (Function.update m' s.1 s.2) ss q
    by_cases hss : q ∈ ss.map Prod.fst
    · exact ih _ _ hss
    · obtain rfl : q = s.1 := (List.mem_cons.mp h).resolve_right hss
      rw [storeAll_of_not_mem _ hss, storeAll_of_not_mem _ hss, Function.update_self,
        Function.update_self]

/-- **The same stores once more** change nothing. -/
theorem storeAll_self (m : κ → α) (ss : List (κ × α)) :
    storeAll (storeAll m ss) ss = storeAll m ss := by
  funext q
  by_cases h : q ∈ ss.map Prod.fst
  · exact storeAll_of_mem _ _ h
  · rw [storeAll_of_not_mem _ h]

end Stores
