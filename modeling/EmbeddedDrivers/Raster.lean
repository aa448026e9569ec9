import Mathlib.Algebra.Order.Ring.Nat
import Mathlib.Data.Finset.Card
import Mathlib.Logic.Function.Iterate
import Mathlib.Tactic.Common

/-!
# Writing along a raster

A memory of rows and columns written through a pair of counters, as display
controllers and frame buffers have it: a *window* of the memory is fixed, a
cell is written, the column counter moves on, and at the last column of the
window it goes back to the first and the row counter moves on in turn, back to
the first row after the last.

The two nested counters are one. Counting the cells of the window row by row
turns the position into a number, and moving on into adding one modulo the
number of cells (`next_cell`). What a long run of writes does then depends on
nothing but its length: from any position in the window, a run as long as the
window covers it, and no run leaves it (`exists_iterate_eq_iff`). A constant
written that long fills the window and nothing else (`paint_of_size_le`), and
written for less leaves at most the cells that are missing (`paint_short`).
-/

namespace Raster

/-- **A window**: its first and last row and its first and last column. -/
structure Window where
  rowStart : ℕ
  rowEnd : ℕ
  colStart : ℕ
  colEnd : ℕ
  deriving DecidableEq

/-- A cell, by row and column. -/
abbrev Cell := ℕ × ℕ

namespace Window

/-- The cell lies in the window. -/
def Contains (w : Window) (p : Cell) : Prop :=
  (w.rowStart ≤ p.1 ∧ p.1 ≤ w.rowEnd) ∧ w.colStart ≤ p.2 ∧ p.2 ≤ w.colEnd

instance (w : Window) (p : Cell) : Decidable (w.Contains p) := inferInstanceAs (Decidable (_ ∧ _))

/-- **Moving on**: along the row, and at its end to the beginning of the next
one. -/
def next (w : Window) (p : Cell) : Cell :=
  if p.2 = w.colEnd then (if p.1 = w.rowEnd then w.rowStart else p.1 + 1, w.colStart)
  else (p.1, p.2 + 1)

/-- The number of columns. -/
def width (w : Window) : ℕ := w.colEnd + 1 - w.colStart

/-- The number of rows. -/
def height (w : Window) : ℕ := w.rowEnd + 1 - w.rowStart

/-- The number of cells. -/
def size (w : Window) : ℕ := w.height * w.width

/-- The cell with a given number, counted row by row. -/
def cell (w : Window) (k : ℕ) : Cell := (w.rowStart + k / w.width, w.colStart + k % w.width)

/-- The number of a cell. -/
def rank (w : Window) (p : Cell) : ℕ := (p.1 - w.rowStart) * w.width + (p.2 - w.colStart)

variable {w : Window}

/-- The cell of a number given by row and column. -/
theorem cell_mul_add (q : ℕ) {r : ℕ} (hr : r < w.width) :
    w.cell (q * w.width + r) = (w.rowStart + q, w.colStart + r) := by
  rw [cell, Nat.mul_comm, Nat.mul_add_div (Nat.zero_lt_of_lt hr), Nat.mul_add_mod,
    Nat.div_eq_of_lt hr, Nat.mod_eq_of_lt hr, Nat.add_zero]

/-- Numbers of cells are below the size. -/
theorem mul_add_lt_size {q r : ℕ} (hq : q < w.height) (hr : r < w.width) :
    q * w.width + r < w.size :=
  calc q * w.width + r < q * w.width + w.width := Nat.add_lt_add_left hr _
    _ = (q + 1) * w.width := (Nat.succ_mul _ _).symm
    _ ≤ w.size := Nat.mul_le_mul_right _ hq

/-- The row of a cell of the window, counted from its first. -/
theorem row_lt {p : Cell} (h : w.Contains p) : p.1 - w.rowStart < w.height := by
  obtain ⟨hrow, -⟩ := h
  unfold height
  omega

/-- The column, likewise. -/
theorem col_lt {p : Cell} (h : w.Contains p) : p.2 - w.colStart < w.width := by
  obtain ⟨-, hcol⟩ := h
  unfold width
  omega

theorem rank_lt {p : Cell} (h : w.Contains p) : w.rank p < w.size :=
  mul_add_lt_size (row_lt h) (col_lt h)

/-- A cell of the window is the one with its number. -/
theorem cell_rank {p : Cell} (h : w.Contains p) : w.cell (w.rank p) = p := by
  rw [rank, cell_mul_add _ (col_lt h)]
  obtain ⟨hrow, hcol⟩ := h
  exact Prod.ext (Nat.add_sub_cancel' hrow.1) (Nat.add_sub_cancel' hcol.1)

/-- Moving on stays in the window. -/
theorem contains_next {p : Cell} (h : w.Contains p) : w.Contains (w.next p) := by
  obtain ⟨hrow, hcol⟩ := h
  unfold next
  by_cases hlast : p.2 = w.colEnd
  · rw [if_pos hlast]
    refine ⟨?_, ⟨le_rfl, by omega⟩⟩
    show w.rowStart ≤ (if p.1 = w.rowEnd then w.rowStart else p.1 + 1)
      ∧ (if p.1 = w.rowEnd then w.rowStart else p.1 + 1) ≤ w.rowEnd
    split <;> omega
  · rw [if_neg hlast]
    exact ⟨hrow, show w.colStart ≤ p.2 + 1 ∧ p.2 + 1 ≤ w.colEnd by omega⟩

theorem contains_iterate {p : Cell} (h : w.Contains p) (n : ℕ) : w.Contains (w.next^[n] p) := by
  induction n with
  | zero => exact h
  | succ n ih =>
    rw [Function.iterate_succ_apply']
    exact contains_next ih

/-- Moving on adds one to the number, and after the last cell goes back to the
first. -/
theorem next_cell_mul_add {q r : ℕ} (hq : q < w.height) (hr : r < w.width) :
    w.next (w.cell (q * w.width + r)) = w.cell ((q * w.width + r + 1) % w.size) := by
  have hwidth : w.width = w.colEnd + 1 - w.colStart := rfl
  have hheight : w.height = w.rowEnd + 1 - w.rowStart := rfl
  have hpos : 0 < w.width := Nat.zero_lt_of_lt hr
  rw [cell_mul_add q hr, Nat.add_assoc]
  unfold next
  by_cases hcol : r + 1 < w.width
  · -- along the row
    rw [if_neg (by dsimp only; omega), Nat.mod_eq_of_lt (mul_add_lt_size hq hcol),
      cell_mul_add q hcol]
    rfl
  · -- at its end: the number goes on to the next multiple of the width
    have hnext : q * w.width + (r + 1) = (q + 1) * w.width := by
      rw [Nat.succ_mul, show r + 1 = w.width by omega]
    rw [if_pos (by dsimp only; omega), hnext]
    by_cases hrow : q + 1 < w.height
    · rw [if_neg (by dsimp only; omega), ← Nat.add_zero ((q + 1) * w.width),
        Nat.mod_eq_of_lt (mul_add_lt_size hrow hpos), cell_mul_add _ hpos]
      rfl
    · have hsize : (q + 1) * w.width = w.size := by rw [size, show q + 1 = w.height by omega]
      have hzero : (0 : ℕ) = 0 * w.width + 0 := by rw [Nat.zero_mul]
      rw [if_pos (by dsimp only; omega), hsize, Nat.mod_self, hzero, cell_mul_add 0 hpos]
      rfl

/-- **Moving on counts**, modulo the number of cells. -/
theorem next_cell {k : ℕ} (h : k < w.size) : w.next (w.cell k) = w.cell ((k + 1) % w.size) := by
  have hpos : 0 < w.width := Nat.pos_of_mul_pos_left (Nat.zero_lt_of_lt h)
  have hrow : k / w.width < w.height := Nat.div_lt_of_lt_mul (by rwa [Nat.mul_comm])
  have hk : k / w.width * w.width + k % w.width = k := Nat.div_add_mod' k w.width
  have hnext := next_cell_mul_add hrow (Nat.mod_lt k hpos)
  rwa [hk] at hnext

theorem iterate_next_cell {k : ℕ} (h : k < w.size) (n : ℕ) :
    w.next^[n] (w.cell k) = w.cell ((k + n) % w.size) := by
  induction n with
  | zero => rw [Nat.add_zero, Nat.mod_eq_of_lt h]; rfl
  | succ n ih =>
    rw [Function.iterate_succ_apply', ih, next_cell (Nat.mod_lt _ (Nat.zero_lt_of_lt h)),
      Nat.mod_add_mod, Nat.add_assoc]

/-- **A run as long as the window covers it, and no run leaves it.** -/
theorem exists_iterate_eq_iff {p : Cell} (hp : w.Contains p) {n : ℕ} (hn : w.size ≤ n)
    (q : Cell) : (∃ i < n, w.next^[i] p = q) ↔ w.Contains q := by
  refine ⟨fun ⟨i, _, hi⟩ => hi ▸ contains_iterate hp i, fun hq => ?_⟩
  have hlp := rank_lt hp
  have hlq := rank_lt hq
  -- the steps from the one number to the other, going round if need be
  obtain ⟨i, hi, hmod⟩ : ∃ i < w.size, (w.rank p + i) % w.size = w.rank q := by
    rcases Nat.le_total (w.rank p) (w.rank q) with hle | hle
    · exact ⟨w.rank q - w.rank p, by omega, by
        rw [Nat.add_sub_cancel' hle, Nat.mod_eq_of_lt hlq]⟩
    · rcases Nat.eq_or_lt_of_le hle with heq | hlt
      · exact ⟨0, by omega, by rw [Nat.add_zero, Nat.mod_eq_of_lt hlp, heq]⟩
      · refine ⟨w.size + w.rank q - w.rank p, by omega, ?_⟩
        rw [show w.rank p + (w.size + w.rank q - w.rank p) = w.rank q + w.size by omega,
          Nat.add_mod_right, Nat.mod_eq_of_lt hlq]
  refine ⟨i, by omega, ?_⟩
  rw [← cell_rank hp, iterate_next_cell hlp, hmod, cell_rank hq]

end Window

/-! ## Writing -/

variable {α : Type}

/-- **A write**: the cell at the position, and the position moves on. -/
def write (w : Window) (m : Cell → α) (p : Cell) (v : α) : (Cell → α) × Cell :=
  (Function.update m p v, w.next p)

/-- A run of writes of one value. -/
def paint (w : Window) (v : α) (n : ℕ) (s : (Cell → α) × Cell) : (Cell → α) × Cell :=
  (fun s => write w s.1 s.2 v)^[n] s

theorem paint_succ (w : Window) (v : α) (n : ℕ) (s : (Cell → α) × Cell) :
    paint w v (n + 1) s = write w (paint w v n s).1 (paint w v n s).2 v :=
  Function.iterate_succ_apply' _ n s

/-- The position moves on by as much as is written. -/
theorem paint_snd (w : Window) (v : α) (n : ℕ) (s : (Cell → α) × Cell) :
    (paint w v n s).2 = w.next^[n] s.2 := by
  induction n with
  | zero => rfl
  | succ n ih =>
    rw [paint_succ, Function.iterate_succ_apply', ← ih]
    rfl

/-- Where the run has been, its value stands. -/
theorem paint_of_visited (w : Window) (v : α) (s : (Cell → α) × Cell) {i n : ℕ} (h : i < n) :
    (paint w v n s).1 (w.next^[i] s.2) = v := by
  induction n with
  | zero => exact absurd h (Nat.not_lt_zero i)
  | succ n ih =>
    rw [paint_succ]
    show Function.update (paint w v n s).1 (paint w v n s).2 v (w.next^[i] s.2) = v
    by_cases hat : w.next^[i] s.2 = (paint w v n s).2
    · rw [hat, Function.update_self]
    · have hlt : i < n := by
        refine lt_of_le_of_ne (Nat.le_of_lt_succ h) (fun heq => hat ?_)
        rw [paint_snd, heq]
      rw [Function.update_of_ne hat, ih hlt]

/-- Elsewhere nothing changes. -/
theorem paint_of_not_visited (w : Window) (v : α) (s : (Cell → α) × Cell) {n : ℕ} {q : Cell}
    (h : ∀ i < n, w.next^[i] s.2 ≠ q) : (paint w v n s).1 q = s.1 q := by
  induction n with
  | zero => rfl
  | succ n ih =>
    rw [paint_succ]
    show Function.update (paint w v n s).1 (paint w v n s).2 v q = s.1 q
    have hne : q ≠ (paint w v n s).2 := by
      rw [paint_snd]
      exact (h n (Nat.lt_succ_self n)).symm
    rw [Function.update_of_ne hne, ih (fun i hi => h i (Nat.lt_succ_of_lt hi))]

/-- **A run as long as the window fills it**, and changes nothing outside. -/
theorem paint_of_size_le (w : Window) (v : α) {n : ℕ} (hn : w.size ≤ n)
    {s : (Cell → α) × Cell} (hs : w.Contains s.2) (q : Cell) :
    (paint w v n s).1 q = if w.Contains q then v else s.1 q := by
  by_cases hq : w.Contains q
  · rw [if_pos hq]
    obtain ⟨i, hi, rfl⟩ := (Window.exists_iterate_eq_iff hs hn q).mpr hq
    exact paint_of_visited w v s hi
  · rw [if_neg hq]
    exact paint_of_not_visited w v s
      (fun i hi heq => hq ((Window.exists_iterate_eq_iff hs hn q).mp ⟨i, hi, heq⟩))

/-- **A run too short for the window** leaves at most as many of its cells as are
missing, and the rest of the memory as it was. -/
theorem paint_short (w : Window) (v : α) (n : ℕ) {s : (Cell → α) × Cell} (hs : w.Contains s.2) :
    ∃ S : Finset Cell, S.card ≤ w.size - n ∧ (∀ q ∈ S, w.Contains q)
      ∧ ∀ q ∉ S, (paint w v n s).1 q = if w.Contains q then v else s.1 q := by
  refine ⟨(Finset.range (w.size - n)).image fun i => w.next^[n + i] s.2, ?_, fun q hq => ?_,
    fun q hq => ?_⟩
  · exact Finset.card_image_le.trans (Finset.card_range _).le
  · obtain ⟨i, -, rfl⟩ := Finset.mem_image.mp hq
    exact Window.contains_iterate hs (n + i)
  · by_cases hin : w.Contains q
    · rw [if_pos hin]
      obtain ⟨i, hi, rfl⟩ := (Window.exists_iterate_eq_iff hs le_rfl q).mpr hin
      by_cases hlt : i < n
      · exact paint_of_visited w v s hlt
      · -- it would have come later
        refine absurd (Finset.mem_image.mpr ⟨i - n, Finset.mem_range.mpr (by omega), ?_⟩) hq
        rw [Nat.add_sub_cancel' (by omega)]
    · rw [if_neg hin]
      exact paint_of_not_visited w v s
        fun i _ heq => hin (heq ▸ Window.contains_iterate hs i)

end Raster
