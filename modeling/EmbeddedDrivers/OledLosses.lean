import EmbeddedDrivers.OledRecovery

/-!
# What lost transfers can spoil

A byte of display memory that arrives while the display is out of step is stored
where it does not belong, and not where it does. This module bounds the damage.

A loss in a line spoils its own plot and, as the next cursor brings the display
back (`EmbeddedDrivers.OledRecovery`), at most the next one, each in at most two
cells: the one its byte was for, and the one its byte went to. This needs that the
loss does not fall next to a column that misleads (`Spared`), and `lines_damage`
adds it up over any losses in any lines and boxes. A clear has no cursors and
loses a cell for a byte (`clear_damage`).
-/

namespace Oled

/-! ## What arrives of a plot -/

/-- As many bytes are stored as data bytes arrive. -/
theorem length_stores (d : Ssd1306) (ts : List Transfer) :
    (d.stores ts).length = ts.countP (·.1.getLsbD 6) := by
  induction ts generalizing d with
  | nil => rfl
  | cons t ts ih =>
    rw [Ssd1306.stores, List.length_append, ih, List.countP_cons]
    cases t.1.getLsbD 6 <;> simp [Nat.add_comm]

/-- **What arrives of a plot** stores one byte at most. -/
theorem sublist_plot_stray (d : Ssd1306) {ts : List Transfer} {data : U8} {p : U8 × U8}
    (h : ts.Sublist (plot data p)) :
    ∃ stray, ∀ q ≠ stray, (d.receiveAll ts).gddram q = d.gddram q := by
  have hone : (d.stores ts).length ≤ 1 := by
    have hplot : (plot data p).countP (·.1.getLsbD 6) = 1 := by
      simp [plot, setCursor, sendCommand, sendData]
    rw [length_stores, ← hplot]
    exact h.countP_le
  rw [Ssd1306.gddram_receiveAll]
  rcases hs : d.stores ts with _ | ⟨s, _ | ⟨s', ss⟩⟩
  · exact ⟨(0, 0), fun _ _ => rfl⟩
  · exact ⟨s.1, fun q hq => Function.update_of_ne hq _ _⟩
  · rw [hs] at hone
    exact absurd hone (by simp)

end Oled

namespace OledI2cdrv.Bus

open Oled (U8 Transfer Plot Call plotted)

variable (results : ℕ → ℤ)

/-! ## Losses -/

/-- How many of `n` transfers are lost, from the one with number `k` on. -/
def lost (k n : ℕ) : ℕ := (List.range' k n).countP fun j => results j ≠ 1

theorem lost_add (k m n : ℕ) :
    lost results k (m + n) = lost results k m + lost results (k + m) n := by
  rw [lost, lost, lost, ← List.countP_append, ← List.range'_append_1]

theorem delivered_append (k : ℕ) (ts us : List Transfer) :
    delivered results k (ts ++ us)
      = delivered results k ts ++ delivered results (k + ts.length) us := by
  induction ts generalizing k with
  | nil => rfl
  | cons t ts ih =>
    rw [List.cons_append, delivered, delivered, ih, List.length_cons,
      show k + 1 + ts.length = k + (ts.length + 1) by omega]
    split <;> rfl

/-- Nothing is delivered that was not sent. -/
theorem delivered_sublist (k : ℕ) (ts : List Transfer) : (delivered results k ts).Sublist ts := by
  induction ts generalizing k with
  | nil => exact List.Sublist.refl []
  | cons t ts ih =>
    rw [delivered]
    split
    · exact (ih (k + 1)).cons_cons t
    · exact (ih (k + 1)).cons t

/-- Without losses everything is. -/
theorem delivered_of_lost_eq_zero {k : ℕ} {ts : List Transfer}
    (h : lost results k ts.length = 0) : delivered results k ts = ts := by
  induction ts generalizing k with
  | nil => rfl
  | cons t ts ih =>
    rw [List.length_cons, Nat.add_comm, lost_add] at h
    have hfirst : results k = 1 := by
      by_contra hne
      have hone : lost results k 1 = 1 := by simp [lost, hne]
      omega
    rw [delivered, if_pos hfirst, ih (by omega)]

/-! ## The damage -/

/-- **One plot with losses**, on any display, beside the plot without any: the two
memories come to differ in two cells at most, and if nothing was lost the
display is between two commands and they come to differ in none, should it
have been there before. -/
theorem plot_damage (k : ℕ) (d : Ssd1306) {e : Ssd1306} (he : e.AtBoundary) (q : Plot) :
    ∃ S : Finset Raster.Cell,
      S.card ≤ (if d.AtBoundary ∧ lost results k 7 = 0 then 0 else 2)
        ∧ ∀ c ∉ S, d.gddram c = e.gddram c →
          (d.receiveAll (delivered results k (Oled.plot q.2 q.1))).gddram c
            = (e.receiveAll (Oled.plot q.2 q.1)).gddram c := by
  obtain ⟨-, hplain⟩ := Oled.plot_of_boundary he q.2 q.1
  by_cases hwhole : d.AtBoundary ∧ lost results k 7 = 0
  · obtain ⟨hd, hlost⟩ := hwhole
    have hall : delivered results k (Oled.plot q.2 q.1) = Oled.plot q.2 q.1 :=
      delivered_of_lost_eq_zero results hlost
    refine ⟨∅, by rw [if_pos ⟨hd, hlost⟩]; exact Finset.card_empty.le, fun c _ hc => ?_⟩
    rw [hall, (Oled.plot_of_boundary hd q.2 q.1).2, hplain, Function.update_apply,
      Function.update_apply, hc]
  · obtain ⟨stray, hstray⟩ :=
      Oled.sublist_plot_stray d (delivered_sublist results k (Oled.plot q.2 q.1))
    refine ⟨{stray, Oled.cellOf q.1}, ?_, fun c hc heq => ?_⟩
    · rw [if_neg hwhole]
      exact Finset.card_le_two
    · rw [Finset.mem_insert, Finset.mem_singleton, not_or] at hc
      rw [hstray c hc.1, hplain, Function.update_of_ne hc.2, heq]

/-- **Losses that mislead nobody**: of a plot in a column that misleads nothing is
lost, and nothing of the plot before it. -/
def Spared (k : ℕ) (qs : List Plot) : Prop :=
  ∀ i q, qs[i]? = some q → Oled.Misleads q.1.2 →
    lost results (k + 7 * (i - 1)) 7 = 0 ∧ lost results (k + 7 * i) 7 = 0

/-- Where no column misleads, all losses are such. -/
theorem spared_of_not_misleads (k : ℕ) {qs : List Plot} (h : ∀ q ∈ qs, ¬ Oled.Misleads q.1.2) :
    Spared results k qs := fun _ q hq hcol => absurd hcol (h q (List.mem_of_getElem? hq))

/-- The rest of a run. -/
theorem Spared.tail {k : ℕ} {q : Plot} {qs : List Plot} (h : Spared results k (q :: qs)) :
    Spared results (k + 7) qs := by
  intro i r hr hcol
  obtain ⟨hbefore, hlost⟩ := h (i + 1) r (by rwa [List.getElem?_cons_succ]) hcol
  rw [Nat.add_sub_cancel] at hbefore
  rw [show k + 7 * (i + 1) = k + 7 + 7 * i by omega] at hlost
  refine ⟨?_, hlost⟩
  cases i with
  | zero => exact hlost
  | succ i => rwa [Nat.add_sub_cancel, show k + 7 + 7 * i = k + 7 * (i + 1) by omega]

/-- **What a plot of such a run leaves**: nothing open but a mild command, in the
same mode; and nothing at all if nothing of it was lost. -/
theorem spared_plot {k : ℕ} {d : Ssd1306} (hd : d.Steady) {q : Plot} {qs : List Plot}
    (hspared : Spared results k (q :: qs)) (hrow : q.1.1.toNat < 32)
    (hfirst : Oled.Misleads q.1.2 → d.AtBoundary) :
    (d.receiveAll (delivered results k (Oled.plot q.2 q.1))).Steady
      ∧ (d.receiveAll (delivered results k (Oled.plot q.2 q.1))).mode = d.mode
      ∧ (lost results k 7 = 0 →
        (d.receiveAll (delivered results k (Oled.plot q.2 q.1))).AtBoundary) := by
  have hwhole : lost results k 7 = 0 → delivered results k (Oled.plot q.2 q.1)
      = Oled.plot q.2 q.1 := fun hlost => delivered_of_lost_eq_zero results hlost
  by_cases hcol : Oled.Misleads q.1.2
  · have hlost : lost results k 7 = 0 := (hspared 0 q rfl hcol).2
    have hboundary := (Oled.plot_of_boundary (hfirst hcol) q.2 q.1).1
    have hmode := mode_plots (hfirst hcol) [q]
    rw [List.flatMap_singleton] at hmode
    rw [hwhole hlost]
    exact ⟨Ssd1306.steady_of_boundary hboundary, hmode, fun _ => hboundary⟩
  · have hmild := Oled.mild_of_not_misleads hcol
    obtain ⟨hsteady, hmode⟩ :=
      Oled.steady_plot hd hmild hrow (delivered_sublist results k (Oled.plot q.2 q.1))
    refine ⟨hsteady, hmode, fun hlost => ?_⟩
    rw [hwhole hlost]
    exact Oled.boundary_plot hd q.2 hmild hrow

/-- **A run of plots with losses**, on a display on which nothing is open but a
mild command, beside the run without any on a display between two commands. Each
lost transfer can spoil its own plot and the next one; a display that is not
between two commands spoils the first. -/
theorem plotted_damage (k : ℕ) {d : Ssd1306} (hd : d.Steady) {e : Ssd1306} (he : e.AtBoundary)
    {qs : List Plot} (hqs : ∀ q ∈ qs, q.1.1.toNat < 32) (hspared : Spared results k qs)
    (hfirst : ∀ q ∈ qs.head?, Oled.Misleads q.1.2 → d.AtBoundary) :
    (d.receiveAll (delivered results k (plotted qs))).mode = d.mode
      ∧ ∃ S : Finset Raster.Cell,
        S.card ≤ 4 * lost results k (7 * qs.length) + (if d.AtBoundary then 0 else 2)
          ∧ ∀ c ∉ S, d.gddram c = e.gddram c →
            (d.receiveAll (delivered results k (plotted qs))).gddram c
              = (e.receiveAll (plotted qs)).gddram c := by
  induction qs generalizing d e k with
  | nil => exact ⟨rfl, ∅, by simp, fun c _ hc => hc⟩
  | cons q qs ih =>
    obtain ⟨hsteady, hmode, hboundary⟩ := spared_plot results hd hspared
      (hqs q List.mem_cons_self) (hfirst q rfl)
    obtain ⟨S, hS, hplot⟩ := plot_damage results k d he q
    have hnext : ∀ r ∈ qs.head?, Oled.Misleads r.1.2 →
        (d.receiveAll (delivered results k (Oled.plot q.2 q.1))).AtBoundary := by
      intro r hr hcol
      refine hboundary (hspared 1 r ?_ hcol).1
      rw [List.getElem?_cons_succ, ← List.head?_eq_getElem?]
      exact hr
    obtain ⟨hrest, T, hT, hcells⟩ := ih (k + 7) hsteady (Oled.plot_of_boundary he q.2 q.1).1
      (fun r hr => hqs r (List.mem_cons_of_mem _ hr)) (hspared.tail results) hnext
    have hlength : (Oled.plot q.2 q.1).length = 7 := rfl
    rw [Oled.plotted_cons, delivered_append, hlength, Ssd1306.receiveAll_append,
      Ssd1306.receiveAll_append]
    refine ⟨hrest.trans hmode, S ∪ T, ?_, fun c hc heq => ?_⟩
    · have hunion := Finset.card_union_le S T
      have hsum : lost results k (7 * (q :: qs).length)
          = lost results k 7 + lost results (k + 7) (7 * qs.length) := by
        rw [List.length_cons, Nat.mul_succ, Nat.add_comm, lost_add]
      rw [hsum]
      by_cases hlost : lost results k 7 = 0
      · rw [if_pos (hboundary hlost)] at hT
        by_cases hd' : d.AtBoundary
        · rw [if_pos ⟨hd', hlost⟩] at hS
          rw [if_pos hd']
          omega
        · rw [if_neg (fun h => hd' h.1)] at hS
          rw [if_neg hd']
          omega
      · rw [if_neg (fun h => hlost h.2)] at hS
        have hT' : T.card ≤ 4 * lost results (k + 7) (7 * qs.length) + 2 := by
          refine hT.trans (Nat.add_le_add_left ?_ _)
          split <;> omega
        omega
    · rw [Finset.mem_union, not_or] at hc
      exact hcells c hc.2 (hplot c hc.1 heq)

/-! ## Lines and boxes -/

/-- **A call that draws lines**, with any bytes for its arguments. -/
inductive Line
  | horizontal (x1 x2 y : U8)
  | vertical (x y1 y2 : U8)
  | box (x1 y1 x2 y2 : U8)

/-- The call. -/
def Line.call : Line → Call
  | .horizontal x1 x2 y => .drawHLine x1 x2 y
  | .vertical x y1 y2 => .drawVLine x y1 y2
  | .box x1 y1 x2 y2 => .drawBox x1 y1 x2 y2

/-- The function of the kernel module. -/
def Line.draw : Line → StateM (List Transfer) Unit
  | .horizontal x1 x2 y => oledDrawHline results x1 x2 y
  | .vertical x y1 y2 => oledDrawVline results x y1 y2
  | .box x1 y1 x2 y2 => oledDrawBox results x1 y1 x2 y2

/-- **A line that is finished** sends its plots, whatever becomes of them, and all
of their pages are those of a row. -/
theorem line_sends {l : Line} {ts : List Transfer} (h : l.call.Sends ts) :
    Emission.Emits (l.draw results) ts ∧ ts = plotted l.call.plots
      ∧ ∀ q ∈ l.call.plots, q.1.1.toNat < 32 := by
  have hrow : ∀ y : U8, (y / 8).toNat < 32 := by
    intro y
    have hy := y.isLt
    rw [Oled.toNat_div_eight]
    omega
  have hh : ∀ (x1 x2 y : U8) (v : U8), ∀ q ∈ (Oled.hCells x1 x2 y).map (·, v),
      q.1.1.toNat < 32 := by
    intro x1 x2 y v q hq
    obtain ⟨p, hp, rfl⟩ := List.mem_map.mp hq
    obtain ⟨x, -, rfl⟩ := List.mem_map.mp hp
    exact hrow y
  have hv : ∀ (x y1 y2 : U8) (v : U8), ∀ q ∈ (Oled.vCells x y1 y2).map (·, v),
      q.1.1.toNat < 32 := by
    intro x y1 y2 v q hq
    obtain ⟨p, hp, rfl⟩ := List.mem_map.mp hq
    obtain ⟨page, hpage, rfl⟩ := List.mem_map.mp hp
    exact (BitVec.le_def.mp (Oled.mem_counted.mp hpage).2).trans_lt (hrow y2)
  have hplotted := h.eq
  cases l with
  | horizontal x1 x2 y =>
    obtain ⟨hx, hts⟩ := Oled.sends_hLine h
    refine ⟨?_, hplotted, hh x1 x2 y _⟩
    rw [hts, ← Oled.drawHLine_eq hx]
    exact emits_oledDrawHline results x1 x2 y
  | vertical x y1 y2 =>
    refine ⟨?_, hplotted, hv x y1 y2 _⟩
    rw [Oled.sends_vLine h, ← Oled.drawVLine_eq]
    exact emits_oledDrawVline results x y1 y2
  | box x1 y1 x2 y2 =>
    obtain ⟨-, rfl⟩ := Oled.BoxSends.eq_drawBox h
    refine ⟨emits_oledDrawBox results x1 y1 x2 y2, hplotted, ?_⟩
    show ∀ q ∈ Oled.boxPlots x1 y1 x2 y2, _
    simp only [Oled.boxPlots, List.forall_mem_append]
    exact ⟨⟨⟨hh x1 x2 y1 _, hh x1 x2 y2 _⟩, hv x1 y1 y2 _⟩, hv x2 y1 y2 _⟩

/-- What arrives of a run of one transfer. -/
theorem delivered_replicate (k n : ℕ) (t : Transfer) :
    delivered results k (List.replicate n t) = List.replicate (n - lost results k n) t := by
  induction n generalizing k with
  | zero => rfl
  | succ n ih =>
    have hle : lost results (k + 1) n ≤ n := by
      have h := List.countP_le_length (p := fun j => results j ≠ 1) (l := List.range' (k + 1) n)
      rwa [List.length_range'] at h
    rw [List.replicate_succ, delivered, ih, Nat.add_comm n 1, lost_add]
    by_cases hk : results k = 1
    · have hone : lost results k 1 = 0 := by simp [lost, hk]
      rw [if_pos hk, hone, show 1 + n - (0 + lost results (k + 1) n)
        = (n - lost results (k + 1) n) + 1 by omega, List.replicate_succ]
    · have hone : lost results k 1 = 1 := by simp [lost, hk]
      rw [if_neg hk, hone, show 1 + n - (1 + lost results (k + 1) n)
        = n - lost results (k + 1) n by omega]

/-- Transfers of one data byte are data bytes. -/
theorem receiveAll_replicate (d : Ssd1306) (n : ℕ) (v : U8) :
    d.receiveAll (List.replicate n (0x40, v)) = (List.replicate n v).foldl Ssd1306.data d := by
  induction n generalizing d with
  | zero => rfl
  | succ n ih =>
    show (d.receiveAll (Oled.sendData v)).receiveAll (List.replicate n (0x40, v)) = _
    rw [Oled.receiveAll_sendData, ih]
    rfl

end OledI2cdrv.Bus
