import EmbeddedDrivers.OledDriver

/-!
# Arguments of the drawing functions

The drawing functions check none of their arguments. This module says what
becomes of a box with any four bytes for its corners.

The loop over the columns compares a byte counter with a byte bound by `<=`,
and a bound that is the last value of a byte is never passed: such a box is
never finished. It is the only kind (`box_finished_iff`). The loop over the
pages counts eighths of a row, whose last value is 31.
-/

namespace Oled

/-- **A box finished**: its four loops are left, one after the other, and this
has been sent. -/
def BoxSends (x1 y1 x2 y2 : U8) (sent : List Transfer) : Prop :=
  ∃ top bottom left right, Loop.Ends (hLineBody x2 y1) x1 top
    ∧ Loop.Ends (hLineBody x2 y2) x1 bottom ∧ Loop.Ends (vLineBody x1 y2) (y1 / 8) left
    ∧ Loop.Ends (vLineBody x2 y2) (y1 / 8) right ∧ sent = top ++ bottom ++ left ++ right

/-- The number of data bytes among transfers. -/
def dataBytes (ts : List Transfer) : ℕ := ts.countP (·.1 = 0x40)

theorem dataBytes_append (ts us : List Transfer) :
    dataBytes (ts ++ us) = dataBytes ts + dataBytes us := List.countP_append

/-- A plot sends one data byte. -/
theorem dataBytes_plots (data : U8) (ps : List (U8 × U8)) :
    dataBytes (ps.flatMap (plot data)) = ps.length := by
  induction ps with
  | nil => rfl
  | cons p ps ih =>
    have hone : dataBytes (plot data p) = 1 := rfl
    rw [List.flatMap_cons, dataBytes_append, ih, hone, List.length_cons, Nat.add_comm]

theorem length_counted (lo hi : U8) : (counted lo hi).length = hi.toNat + 1 - lo.toNat := by
  rw [counted, List.length_map, List.length_range']

/-- **What a box sends** whose right edge is not the last value of a byte. -/
theorem boxSends_drawBox (x1 y1 : U8) {x2 : U8} (y2 : U8) (hmax : x2.toNat < 255) :
    BoxSends x1 y1 x2 y2 (drawBox x1 y1 x2 y2) := by
  obtain ⟨n₁, -, h₁⟩ := drawHLine_halts hmax x1 y1
  obtain ⟨n₂, -, h₂⟩ := drawHLine_halts hmax x1 y2
  obtain ⟨n₃, -, h₃⟩ := drawVLine_halts x1 y1 y2
  obtain ⟨n₄, -, h₄⟩ := drawVLine_halts x2 y1 y2
  rw [← drawHLine_eq hmax] at h₁ h₂
  rw [← drawVLine_eq] at h₃ h₄
  exact ⟨_, _, _, _, ⟨n₁, h₁⟩, ⟨n₂, h₂⟩, ⟨n₃, h₃⟩, ⟨n₄, h₄⟩, rfl⟩

theorem dataBytes_drawBox (x1 y1 : U8) {x2 : U8} (y2 : U8) (hmax : x2.toNat < 255) :
    dataBytes (drawBox x1 y1 x2 y2)
      = 2 * (x2.toNat + 1 - x1.toNat) + 2 * ((y2 / 8).toNat + 1 - (y1 / 8).toNat) := by
  rw [drawBox, drawHLine_eq hmax, drawHLine_eq hmax, drawVLine_eq, drawVLine_eq, dataBytes_append,
    dataBytes_append, dataBytes_append, dataBytes_plots, dataBytes_plots, dataBytes_plots,
    dataBytes_plots]
  simp only [hCells, vCells, List.length_map, length_counted]
  omega

/-- **A box with its right edge at 255 is never finished.** -/
theorem not_boxSends (x1 y1 y2 : U8) (sent : List Transfer) : ¬ BoxSends x1 y1 255 y2 sent := by
  rintro ⟨top, -, -, -, htop, -⟩
  exact Loop.not_ends_upTo (by decide) _ x1 top htop

/-- **What a finished box has sent**, and that its right edge is not 255. -/
theorem BoxSends.eq_drawBox {x1 y1 x2 y2 : U8} {sent : List Transfer}
    (h : BoxSends x1 y1 x2 y2 sent) : x2.toNat < 255 ∧ sent = drawBox x1 y1 x2 y2 := by
  have hlt : x2.toNat < 255 := by
    have hne : x2.toNat ≠ 255 := by
      intro hc
      obtain rfl : x2 = 255 := BitVec.eq_of_toNat_eq hc
      exact not_boxSends x1 y1 y2 sent h
    have hx := x2.isLt
    omega
  obtain ⟨top, bottom, left, right, htop, hbottom, hleft, hright, rfl⟩ := h
  obtain ⟨top', bottom', left', right', htop', hbottom', hleft', hright', heq⟩ :=
    boxSends_drawBox x1 y1 y2 hlt
  refine ⟨hlt, ?_⟩
  rw [heq, htop.unique htop', hbottom.unique hbottom', hleft.unique hleft', hright.unique hright']

/-- **When a box is finished.** For any four bytes, the drawing of a box
terminates, with the number of data bytes its edges need, exactly when its
right edge is not 255; and what it then sends is what both programs' functions
are. -/
theorem box_finished_iff (x1 y1 x2 y2 : U8) :
    ((∃ sent, BoxSends x1 y1 x2 y2 sent
        ∧ (dataBytes sent : ℤ) = 2 * max 0 ((x2.toNat : ℤ) - x1.toNat + 1)
          + 2 * max 0 (((y2 / 8).toNat : ℤ) - (y1 / 8).toNat + 1))
      ↔ x2 ≠ 255)
    ∧ ∀ sent, BoxSends x1 y1 x2 y2 sent →
      I2cUserOled.oledDrawBox x1 y1 x2 y2 = sent ∧ OledI2cdrv.oledDrawBox x1 y1 x2 y2 = sent := by
  refine ⟨⟨?_, fun h => ?_⟩, fun sent hsent => ?_⟩
  · rintro ⟨sent, hsent, -⟩ rfl
    exact not_boxSends x1 y1 y2 sent hsent
  · have hlt : x2.toNat < 255 := by
      have hx := x2.isLt
      have hne : x2.toNat ≠ 255 := fun hc => h (BitVec.eq_of_toNat_eq hc)
      omega
    refine ⟨_, boxSends_drawBox x1 y1 y2 hlt, ?_⟩
    rw [dataBytes_drawBox x1 y1 y2 hlt]
    omega
  · have hbox := hsent.eq_drawBox.2.symm
    exact ⟨hbox, hbox⟩

/-- **Not for all arguments**: the columns up to 255 are drawn for ever. -/
theorem not_forall_box_finished :
    ¬ ∀ x1 y1 x2 y2 : U8, ∃ sent, BoxSends x1 y1 x2 y2 sent
        ∧ (dataBytes sent : ℤ) = 2 * max 0 ((x2.toNat : ℤ) - x1.toNat + 1)
          + 2 * max 0 (((y2 / 8).toNat : ℤ) - (y1 / 8).toNat + 1) := by
  intro h
  obtain ⟨sent, hsent, -⟩ := h 0 0 255 0
  exact not_boxSends 0 0 0 sent hsent

end Oled
