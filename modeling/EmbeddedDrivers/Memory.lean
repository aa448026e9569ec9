import Mathlib.Data.Int.Basic
import Mathlib.Data.List.Basic
import Mathlib.Data.List.GetD
import Mathlib.Data.List.Range
import Mathlib.Tactic.Common

/-!
# A buffer and what lies around it

Memory around a C buffer, addressed by the offset from its first byte. The
offset is an integer and not an index: a program may compute one that lies
before the buffer or past its end, and reading or writing there is not
refused, it reaches whatever lies there. Whether every offset a program uses
lies inside the buffer is then something to prove about the program.

`store` writes a run of bytes at an offset and `view` reads the buffer's first
bytes; `view_store` says that a run stored where the view ends extends it.
-/

namespace Memory

variable {α : Type}

/-- The memory after a run of values has been written at an offset. -/
def store (mem : ℤ → α) (dst : ℤ) (vs : List α) : ℤ → α := fun j =>
  if dst ≤ j then vs.getD (j - dst).toNat (mem j) else mem j

/-- The first values of the buffer. -/
def view (mem : ℤ → α) (n : ℕ) : List α := (List.range n).map fun i : ℕ => mem i

/-- The offsets a run of a given length takes. -/
def span (dst : ℤ) (n : ℕ) : List ℤ := (List.range n).map fun i : ℕ => dst + i

theorem length_view (mem : ℤ → α) (n : ℕ) : (view mem n).length = n := by
  rw [view, List.length_map, List.length_range]

/-- The view grows by the value where it ends. -/
theorem view_succ (mem : ℤ → α) (n : ℕ) : view mem (n + 1) = view mem n ++ [mem n] := by
  rw [view, List.range_succ, List.map_append]
  rfl

/-- Views of memories that agree below the length are equal. -/
theorem view_congr {mem mem' : ℤ → α} {n : ℕ} (h : ∀ i : ℕ, i < n → mem i = mem' i) :
    view mem n = view mem' n :=
  List.map_congr_left (fun i hi => h i (List.mem_range.mp hi))

theorem store_of_lt (mem : ℤ → α) {dst j : ℤ} (h : j < dst) (vs : List α) :
    store mem dst vs j = mem j := if_neg (by omega)

/-- A single value stands where it was written. -/
theorem store_singleton_self (mem : ℤ → α) (dst : ℤ) (v : α) :
    store mem dst [v] dst = v := by
  have h : ([v] : List α).getD (dst - dst).toNat (mem dst) = v := by
    rw [Int.sub_self]
    rfl
  exact (if_pos (Int.le_refl dst)).trans h

/-- What holds of the value at an offset and of all that are written holds of the
value there afterwards. -/
theorem store_forall {Q : α → Prop} {mem : ℤ → α} {vs : List α} {j : ℤ} (hmem : Q (mem j))
    (hvs : ∀ v ∈ vs, Q v) (dst : ℤ) : Q (store mem dst vs j) := by
  unfold store
  split
  · by_cases hj : (j - dst).toNat < vs.length
    · rw [List.getD_eq_getElem vs _ hj]
      exact hvs _ (List.getElem_mem hj)
    · rw [List.getD_eq_default vs _ (by omega)]
      exact hmem
  · exact hmem

/-- Writing past the view does not change it. -/
theorem view_store_of_le (mem : ℤ → α) {dst : ℤ} {n : ℕ} (h : (n : ℤ) ≤ dst) (vs : List α) :
    view (store mem dst vs) n = view mem n :=
  view_congr (fun i hi => store_of_lt mem (by omega) vs)

/-- **A run written where the view ends extends the view.** -/
theorem view_store (mem : ℤ → α) (n : ℕ) (vs : List α) :
    view (store mem n vs) (n + vs.length) = view mem n ++ vs := by
  refine List.ext_getElem (by simp [length_view]) (fun i h₁ h₂ => ?_)
  rw [length_view] at h₁
  simp only [view, List.getElem_map, List.getElem_range]
  by_cases hi : i < n
  · rw [store_of_lt mem (by omega), List.getElem_append_left (by simpa using hi),
      List.getElem_map, List.getElem_range]
  · rw [List.getElem_append_right (by simpa using Nat.le_of_not_lt hi), store,
      if_pos (by omega)]
    simp only [List.length_map, List.length_range,
      show ((i : ℤ) - (n : ℤ)).toNat = i - n from by omega]
    exact List.getD_eq_getElem vs (mem i) (by omega)

/-- The offsets of a run lie between its ends. -/
theorem mem_span {dst j : ℤ} {n : ℕ} (h : j ∈ span dst n) : dst ≤ j ∧ j < dst + n := by
  obtain ⟨i, hi, rfl⟩ := List.mem_map.mp h
  have := List.mem_range.mp hi
  omega

end Memory
