import EmbeddedDrivers.OledFraming

/-!
# Pixels on the graphic display

A byte of the display memory holds eight pixels of a column, and the drivers
write whole bytes: they keep no copy of the memory and cannot read it. What a
line does to the pixels it does not name is therefore decided by what the other
seven bits of its bytes are.

A horizontal line writes a single bit, so it clears the seven other rows of its
page (`hline_pixels`). A vertical line writes all eight, so it fills the first
and the last page whatever the rows it was given (`vline_exact_iff`). A box is
drawn edge by edge, the bottom after the top; where both lie in one page, the
bottom edge clears the top one (`box_outline_iff`).
-/

namespace Oled

open Ssd1306 (pixel)

/-! ## The lines on a memory -/

/-- The numbers a byte counter goes through. -/
theorem exists_counted {lo hi : U8} {k : ℕ} :
    (∃ x ∈ counted lo hi, x.toNat = k) ↔ lo.toNat ≤ k ∧ k ≤ hi.toNat := by
  constructor
  · rintro ⟨x, hx, rfl⟩
    exact mem_counted.mp hx
  · intro hk
    have hhi := hi.isLt
    have hto : (BitVec.ofNat 8 k).toNat = k := by
      rw [BitVec.toNat_ofNat, Nat.mod_eq_of_lt (by omega)]
    refine ⟨BitVec.ofNat 8 k, mem_counted.mpr ?_, hto⟩
    rw [BitVec.le_def, BitVec.le_def, hto]
    exact hk

/-- The bit of a row in its byte. -/
theorem getLsbD_row (y : U8) {i : ℕ} (hi : i < 8) :
    ((1 : U8) <<< (y % 8)).getLsbD i = decide (i = y.toNat % 8) := by
  have hmod : (y % 8).toNat = y.toNat % 8 := BitVec.toNat_umod
  have hone : ∀ j, (1 : U8).getLsbD j = decide (j = 0) := fun j => by simp
  rw [BitVec.getLsbD_shiftLeft', hmod, hone]
  by_cases h : i < y.toNat % 8
  · rw [decide_eq_true h, decide_eq_false (Nat.ne_of_lt h), Bool.not_true, Bool.and_false,
      Bool.false_and]
  · rw [decide_eq_true hi, decide_eq_false h, Bool.not_false, Bool.and_self, Bool.true_and]
    refine decide_eq_decide.mpr ?_
    omega

/-- **A horizontal line on the pixels**: in its columns and its page its own row
is lit and the seven others are not. -/
theorem pixel_hStores (m : Raster.Cell → U8) (x1 x2 y : U8) (x' y' : ℕ) :
    pixel (Stores.storeAll m (hStores x1 x2 y)) x' y'
      = if (x1.toNat ≤ x' ∧ x' ≤ x2.toNat) ∧ y' / 8 = y.toNat / 8 then decide (y' = y.toNat)
        else pixel m x' y' := by
  have hcells : hStores x1 x2 y
      = ((counted x1 x2).map fun x => ((y / 8).toNat, x.toNat)).map
          fun p => (p, (1 : U8) <<< (y % 8)) := by
    rw [List.map_map]
    rfl
  have hmem : (y' / 8, x') ∈ (counted x1 x2).map (fun x => ((y / 8).toNat, x.toNat))
      ↔ (x1.toNat ≤ x' ∧ x' ≤ x2.toNat) ∧ y' / 8 = y.toNat / 8 := by
    rw [← exists_counted, ← toNat_div_eight, List.mem_map]
    constructor
    · rintro ⟨x, hx, heq⟩
      exact ⟨⟨x, hx, (Prod.mk.inj heq).2⟩, (Prod.mk.inj heq).1.symm⟩
    · rintro ⟨⟨x, hx, rfl⟩, hpage⟩
      exact ⟨x, hx, by rw [hpage]⟩
  unfold pixel
  rw [hcells, Stores.storeAll_map]
  by_cases hin : (x1.toNat ≤ x' ∧ x' ≤ x2.toNat) ∧ y' / 8 = y.toNat / 8
  · rw [if_pos (hmem.mpr hin), if_pos hin, getLsbD_row y (Nat.mod_lt _ (by omega))]
    refine decide_eq_decide.mpr ?_
    omega
  · rw [if_neg (fun h => hin (hmem.mp h)), if_neg hin]

/-- **A vertical line on the pixels**: all rows of its pages are lit. -/
theorem pixel_vStores (m : Raster.Cell → U8) (x y1 y2 : U8) (x' y' : ℕ) :
    pixel (Stores.storeAll m (vStores x y1 y2)) x' y'
      = if x' = x.toNat ∧ y1.toNat / 8 ≤ y' / 8 ∧ y' / 8 ≤ y2.toNat / 8 then true
        else pixel m x' y' := by
  have hcells : vStores x y1 y2
      = ((counted (y1 / 8) (y2 / 8)).map fun page => (page.toNat, x.toNat)).map
          fun p => (p, (0xFF : U8)) := by
    rw [List.map_map]
    rfl
  have hmem : (y' / 8, x') ∈ (counted (y1 / 8) (y2 / 8)).map (fun page => (page.toNat, x.toNat))
      ↔ x' = x.toNat ∧ y1.toNat / 8 ≤ y' / 8 ∧ y' / 8 ≤ y2.toNat / 8 := by
    rw [← toNat_div_eight, ← toNat_div_eight, ← exists_counted, List.mem_map]
    constructor
    · rintro ⟨page, hpage, heq⟩
      exact ⟨(Prod.mk.inj heq).2.symm, page, hpage, (Prod.mk.inj heq).1⟩
    · rintro ⟨rfl, page, hpage, heq⟩
      exact ⟨page, hpage, by rw [heq]⟩
  have hall : ∀ i < 8, (0xFF : U8).getLsbD i = true := by decide
  unfold pixel
  rw [hcells, Stores.storeAll_map]
  by_cases hin : x' = x.toNat ∧ y1.toNat / 8 ≤ y' / 8 ∧ y' / 8 ≤ y2.toNat / 8
  · rw [if_pos (hmem.mpr hin), if_pos hin]
    exact hall _ (Nat.mod_lt _ (by omega))
  · rw [if_neg (fun h => hin (hmem.mp h)), if_neg hin]

/-- **Exactly these pixels are lit** by some transfers: each of them is on
afterwards, and every other pixel of the display is as it was. -/
def LitExactly (d : Ssd1306) (ts : List Transfer) (S : ℕ → ℕ → Prop) : Prop :=
  ∀ x < 128, ∀ y < 64, (S x y → pixel (d.receiveAll ts).gddram x y = true)
    ∧ (¬ S x y → pixel (d.receiveAll ts).gddram x y = pixel d.gddram x y)

/-- The display in horizontal mode, with any memory. -/
def horizontalDisplay (mem : Raster.Cell → U8) : Ssd1306 :=
  { powerOnDisplay mem with mode := .horizontal }

theorem inStep_horizontalDisplay (mem : Raster.Cell → U8) : (horizontalDisplay mem).InStep :=
  ⟨rfl, rfl⟩

/-! ## Horizontal lines -/

theorem pixel_drawHLine {d : Ssd1306} (hd : d.InStep) (x1 x2 : Column) (y : Row) (x' y' : ℕ) :
    pixel (d.receiveAll (drawHLine x1 x2 y)).gddram x' y'
      = if (x1.1.toNat ≤ x' ∧ x' ≤ x2.1.toNat) ∧ y' / 8 = y.1.toNat / 8 then
          decide (y' = y.1.toNat)
        else pixel d.gddram x' y' := by
  rw [(drawHLine_draws hd x1.1 x2.2 y.2).gddram]
  exact pixel_hStores d.gddram x1.1 x2.1 y.1 x' y'

/-- **What a horizontal line does to the pixels.** On any display in step, after
either program's function: the pixels of its row between its ends are on, the
seven other rows of the same page are off in its columns, and every other
pixel is as it was. -/
theorem hline_pixels (d : Ssd1306) (hd : d.InStep) (x1 x2 : Column) (y : Row) :
    ∀ ts ∈ [I2cUserOled.oledDrawHLine x1 x2 y, OledI2cdrv.oledDrawHline x1 x2 y], ∀ x' y',
      pixel (d.receiveAll ts).gddram x' y'
        = if (x1.1.toNat ≤ x' ∧ x' ≤ x2.1.toNat) ∧ y' / 8 = y.1.toNat / 8 then
            decide (y' = y.1.toNat)
          else pixel d.gddram x' y' := by
  intro ts hts x' y'
  obtain rfl : ts = drawHLine x1 x2 y := by
    simpa [I2cUserOled.oledDrawHLine, OledI2cdrv.oledDrawHline] using hts
  exact pixel_drawHLine hd x1 x2 y x' y'

theorem hline_pixels_horizontalDisplay :
    pixel ((horizontalDisplay fun _ => 0x55).receiveAll
      (I2cUserOled.oledDrawHLine 3 90 12)).gddram 40 12 = true :=
  (hline_pixels (horizontalDisplay fun _ => 0x55) (inStep_horizontalDisplay _) ⟨3, by decide⟩
    ⟨90, by decide⟩ ⟨12, by decide⟩ _ List.mem_cons_self 40 12).trans (by decide)

/-- **Not on every memory**: a line in the first row of a bright display clears
the second. -/
theorem not_forall_hline_exact :
    ¬ ∀ (d : Ssd1306) (x1 x2 : Column) (y : Row), d.InStep → x1.1 ≤ x2.1 →
        LitExactly d (I2cUserOled.oledDrawHLine x1 x2 y)
          (fun x' y' => (x1.1.toNat ≤ x' ∧ x' ≤ x2.1.toNat) ∧ y' = y.1.toNat) := by
  intro h
  have hd := inStep_horizontalDisplay fun _ => 0xFF
  have hexact := (h _ ⟨0, by decide⟩ ⟨0, by decide⟩ ⟨0, by decide⟩ hd (by decide) 0 (by omega) 1
    (by omega)).2 (by simp)
  rw [I2cUserOled.oledDrawHLine, pixel_drawHLine hd, if_pos (by decide)] at hexact
  exact absurd hexact (by decide)

/-! ## Vertical lines -/

theorem pixel_drawVLine {d : Ssd1306} (hd : d.InStep) (x : Column) (y1 y2 : Row) (x' y' : ℕ) :
    pixel (d.receiveAll (drawVLine x y1 y2)).gddram x' y'
      = if x' = x.1.toNat ∧ y1.1.toNat / 8 ≤ y' / 8 ∧ y' / 8 ≤ y2.1.toNat / 8 then true
        else pixel d.gddram x' y' := by
  rw [(drawVLine_draws hd y1.1 x.2 y2.2).gddram]
  exact pixel_vStores d.gddram x.1 y1.1 y2.1 x' y'

/-- The pixels of a vertical line. -/
def OnVLine (x : Column) (y1 y2 : Row) (x' y' : ℕ) : Prop :=
  x' = x.1.toNat ∧ y1.1.toNat ≤ y' ∧ y' ≤ y2.1.toNat

/-- The rows of its pages that are not its own. -/
def Beyond (y1 y2 : Row) (y' : ℕ) : Prop :=
  y1.1.toNat / 8 ≤ y' / 8 ∧ y' / 8 ≤ y2.1.toNat / 8 ∧ ¬ (y1.1.toNat ≤ y' ∧ y' ≤ y2.1.toNat)

/-- A vertical line lights its pixels and the rest of its pages. -/
theorem litExactly_drawVLine_iff {d : Ssd1306} (hd : d.InStep) (x : Column) (y1 y2 : Row) :
    LitExactly d (drawVLine x y1 y2) (OnVLine x y1 y2)
      ↔ ∀ y' < 64, Beyond y1 y2 y' → pixel d.gddram x.1.toNat y' = true := by
  constructor
  · intro h y' hy' hbeyond
    have hout := (h x.1.toNat x.2 y' hy').2 (fun hon => hbeyond.2.2 hon.2)
    rw [← hout, pixel_drawVLine hd, if_pos ⟨rfl, hbeyond.1, hbeyond.2.1⟩]
  · intro h x' hx' y' hy'
    rw [pixel_drawVLine hd]
    refine ⟨fun hon => if_pos ?_, fun hoff => ?_⟩
    · obtain ⟨rfl, h1, h2⟩ := hon
      exact ⟨rfl, Nat.div_le_div_right h1, Nat.div_le_div_right h2⟩
    · by_cases hin : x' = x.1.toNat ∧ y1.1.toNat / 8 ≤ y' / 8 ∧ y' / 8 ≤ y2.1.toNat / 8
      · obtain ⟨rfl, h1, h2⟩ := hin
        rw [if_pos ⟨rfl, h1, h2⟩, h y' hy' ⟨h1, h2, fun hr => hoff ⟨rfl, hr⟩⟩]
      · rw [if_neg hin]

/-- There are no such rows exactly between the edges of pages. -/
theorem not_beyond_iff {y1 y2 : Row} (hy : y1.1 ≤ y2.1) :
    (∀ y' < 64, ¬ Beyond y1 y2 y') ↔ y1.1.toNat % 8 = 0 ∧ y2.1.toNat % 8 = 7 := by
  rw [BitVec.le_def] at hy
  have hy1 := y1.2
  have hy2 := y2.2
  unfold Beyond
  constructor
  · intro h
    have hfirst := h (y1.1.toNat / 8 * 8) (by omega)
    have hlast := h (y2.1.toNat / 8 * 8 + 7) (by omega)
    omega
  · rintro ⟨h1, h2⟩ y' - hbeyond
    omega

/-- **When a vertical line is exact.** On any display in step, for any column
and rows in order, and either program's function: exactly the pixels of the
line are lit if and only if the other rows of its first and last page were on
already; and that is so for every memory if and only if the line begins with a
page and ends with one. -/
theorem vline_exact_iff (d : Ssd1306) (hd : d.InStep) (x : Column) (y1 y2 : Row)
    (hy : y1.1 ≤ y2.1) :
    ∀ ts ∈ [I2cUserOled.oledDrawVLine x y1 y2, OledI2cdrv.oledDrawVline x y1 y2],
      (LitExactly d ts (OnVLine x y1 y2)
        ↔ ∀ y' < 64, Beyond y1 y2 y' → pixel d.gddram x.1.toNat y' = true)
      ∧ ((∀ mem, LitExactly { d with gddram := mem } ts (OnVLine x y1 y2))
        ↔ y1.1.toNat % 8 = 0 ∧ y2.1.toNat % 8 = 7) := by
  intro ts hts
  obtain rfl : ts = drawVLine x y1 y2 := by
    simpa [I2cUserOled.oledDrawVLine, OledI2cdrv.oledDrawVline] using hts
  have hmem : ∀ mem, ({ d with gddram := mem } : Ssd1306).InStep :=
    fun _ => ⟨hd.boundary, hd.horizontal⟩
  refine ⟨litExactly_drawVLine_iff hd x y1 y2, ?_⟩
  rw [← not_beyond_iff hy]
  constructor
  · intro h y' hy' hbeyond
    -- on a dark display nothing else was on
    have hdark := (litExactly_drawVLine_iff (hmem fun _ => 0x00) x y1 y2).mp (h _) y' hy' hbeyond
    exact absurd hdark (by simp [pixel])
  · intro h mem
    exact (litExactly_drawVLine_iff (hmem mem) x y1 y2).mpr
      (fun y' hy' hbeyond => absurd hbeyond (h y' hy'))

/-- From the edge of a page to the edge of a page. -/
theorem vline_exact_iff_aligned :
    LitExactly (horizontalDisplay fun _ => 0x55) (I2cUserOled.oledDrawVLine 5 8 31)
      (OnVLine ⟨5, by decide⟩ ⟨8, by decide⟩ ⟨31, by decide⟩) :=
  ((vline_exact_iff (horizontalDisplay fun _ => 0x55) (inStep_horizontalDisplay _) ⟨5, by decide⟩
    ⟨8, by decide⟩ ⟨31, by decide⟩ (by decide) _ List.mem_cons_self).2.mpr (by decide)) _

/-- **Not for every line**: one of the rows 20 to 40 lights row 16 as well. -/
theorem not_forall_vline_exact :
    ¬ ∀ (d : Ssd1306) (x : Column) (y1 y2 : Row), d.InStep → y1.1 ≤ y2.1 →
        LitExactly d (I2cUserOled.oledDrawVLine x y1 y2) (OnVLine x y1 y2) := by
  intro h
  have hd := inStep_horizontalDisplay fun _ => 0x00
  have hexact := h _ ⟨0, by decide⟩ ⟨20, by decide⟩ ⟨40, by decide⟩ hd (by decide)
  rw [I2cUserOled.oledDrawVLine, litExactly_drawVLine_iff hd] at hexact
  exact absurd (hexact 16 (by omega) (by unfold Beyond; decide)) (by decide)

/-! ## Boxes -/

theorem pixel_drawBox {d : Ssd1306} (hd : d.InStep) (x1 x2 : Column) (y1 y2 : Row) (x' y' : ℕ) :
    pixel (d.receiveAll (drawBox x1 y1 x2 y2)).gddram x' y'
      = if x' = x2.1.toNat ∧ y1.1.toNat / 8 ≤ y' / 8 ∧ y' / 8 ≤ y2.1.toNat / 8 then true
        else if x' = x1.1.toNat ∧ y1.1.toNat / 8 ≤ y' / 8 ∧ y' / 8 ≤ y2.1.toNat / 8 then true
        else if (x1.1.toNat ≤ x' ∧ x' ≤ x2.1.toNat) ∧ y' / 8 = y2.1.toNat / 8 then
          decide (y' = y2.1.toNat)
        else if (x1.1.toNat ≤ x' ∧ x' ≤ x2.1.toNat) ∧ y' / 8 = y1.1.toNat / 8 then
          decide (y' = y1.1.toNat)
        else pixel d.gddram x' y' := by
  rw [(drawBox_draws hd x1.2 y1.2 x2.2 y2.2).gddram, boxStores, Stores.storeAll_append,
    Stores.storeAll_append, Stores.storeAll_append, pixel_vStores, pixel_vStores, pixel_hStores,
    pixel_hStores]

/-- **The outline of a box** is on. -/
structure Outlined (d : Ssd1306) (x1 x2 : Column) (y1 y2 : Row) : Prop where
  top : ∀ x, x1.1.toNat ≤ x → x ≤ x2.1.toNat → pixel d.gddram x y1.1.toNat = true
  bottom : ∀ x, x1.1.toNat ≤ x → x ≤ x2.1.toNat → pixel d.gddram x y2.1.toNat = true
  left : ∀ y, y1.1.toNat ≤ y → y ≤ y2.1.toNat → pixel d.gddram x1.1.toNat y = true
  right : ∀ y, y1.1.toNat ≤ y → y ≤ y2.1.toNat → pixel d.gddram x2.1.toNat y = true

/-- The columns of a box are drawn last, and are on. -/
theorem pixel_drawBox_column {d : Ssd1306} (hd : d.InStep) (x1 x2 : Column) (y1 y2 : Row)
    {x' y' : ℕ} (hx : x' = x1.1.toNat ∨ x' = x2.1.toNat)
    (hy : y1.1.toNat ≤ y' ∧ y' ≤ y2.1.toNat) :
    pixel (d.receiveAll (drawBox x1 y1 x2 y2)).gddram x' y' = true := by
  have hpages : y1.1.toNat / 8 ≤ y' / 8 ∧ y' / 8 ≤ y2.1.toNat / 8 :=
    ⟨Nat.div_le_div_right hy.1, Nat.div_le_div_right hy.2⟩
  rw [pixel_drawBox hd]
  by_cases hright : x' = x2.1.toNat
  · rw [if_pos ⟨hright, hpages⟩]
  · rw [if_neg (fun h => hright h.1), if_pos ⟨hx.resolve_right hright, hpages⟩]

/-- Between them there are the rows, the lower one drawn after the upper. -/
theorem pixel_drawBox_row {d : Ssd1306} (hd : d.InStep) {x1 x2 : Column} (y1 y2 : Row)
    {x' : ℕ} (hx : x1.1.toNat < x' ∧ x' < x2.1.toNat) (y' : ℕ) :
    pixel (d.receiveAll (drawBox x1 y1 x2 y2)).gddram x' y'
      = if y' / 8 = y2.1.toNat / 8 then decide (y' = y2.1.toNat)
        else if y' / 8 = y1.1.toNat / 8 then decide (y' = y1.1.toNat)
        else pixel d.gddram x' y' := by
  have hin : x1.1.toNat ≤ x' ∧ x' ≤ x2.1.toNat := ⟨hx.1.le, hx.2.le⟩
  rw [pixel_drawBox hd, if_neg (fun h => hx.2.ne h.1), if_neg (fun h => hx.1.ne' h.1)]
  simp only [hin, true_and]

/-- **When the outline of a box is complete.** On any display in step, with any
memory, for any box inside the display, its corners in order, and either
program's function: the whole outline is on if and only if its rows are the
same or lie in different pages, or there is no column between its edges. -/
theorem box_outline_iff (d : Ssd1306) (hd : d.InStep) (x1 x2 : Column) (y1 y2 : Row)
    (hx : x1.1 ≤ x2.1) (hy : y1.1 ≤ y2.1) :
    ∀ ts ∈ [I2cUserOled.oledDrawBox x1 y1 x2 y2, OledI2cdrv.oledDrawBox x1 y1 x2 y2],
      Outlined (d.receiveAll ts) x1 x2 y1 y2
        ↔ y1.1 = y2.1 ∨ y1.1.toNat / 8 ≠ y2.1.toNat / 8 ∨ x2.1.toNat ≤ x1.1.toNat + 1 := by
  intro ts hts
  obtain rfl : ts = drawBox x1 y1 x2 y2 := by
    simpa [I2cUserOled.oledDrawBox, OledI2cdrv.oledDrawBox] using hts
  rw [BitVec.le_def] at hx hy
  constructor
  · intro h
    by_contra hno
    rw [not_or, not_or, not_not] at hno
    obtain ⟨hrows, hpage, hwide⟩ := hno
    -- the pixel next to the upper left corner
    have htop := h.top (x1.1.toNat + 1) (by omega) (by omega)
    rw [pixel_drawBox_row hd y1 y2 ⟨by omega, by omega⟩, if_pos hpage] at htop
    exact hrows (BitVec.eq_of_toNat_eq (of_decide_eq_true htop))
  · intro h
    have hends : ∀ {x}, x1.1.toNat ≤ x → x ≤ x2.1.toNat →
        (x = x1.1.toNat ∨ x = x2.1.toNat) ∨ x1.1.toNat < x ∧ x < x2.1.toNat := by
      intro x h1 h2
      omega
    refine ⟨fun x h1 h2 => ?_, fun x h1 h2 => ?_,
      fun y h1 h2 => pixel_drawBox_column hd x1 x2 y1 y2 (Or.inl rfl) ⟨h1, h2⟩,
      fun y h1 h2 => pixel_drawBox_column hd x1 x2 y1 y2 (Or.inr rfl) ⟨h1, h2⟩⟩
    · rcases hends h1 h2 with hcol | hin
      · exact pixel_drawBox_column hd x1 x2 y1 y2 hcol ⟨le_rfl, hy⟩
      · rw [pixel_drawBox_row hd y1 y2 hin]
        by_cases hpage : y1.1.toNat / 8 = y2.1.toNat / 8
        · rw [if_pos hpage]
          rcases h with hrows | hpages | hnarrow
          · exact decide_eq_true (congrArg BitVec.toNat hrows)
          · exact absurd hpage hpages
          · omega
        · rw [if_neg hpage, if_pos rfl]
          exact decide_eq_true rfl
    · rcases hends h1 h2 with hcol | hin
      · exact pixel_drawBox_column hd x1 x2 y1 y2 hcol ⟨hy, le_rfl⟩
      · rw [pixel_drawBox_row hd y1 y2 hin, if_pos rfl]
        exact decide_eq_true rfl

/-- The box of both initialisations. -/
theorem box_outline_iff_init :
    Outlined ((horizontalDisplay fun _ => 0x55).receiveAll (I2cUserOled.oledDrawBox 27 14 100 50))
      ⟨27, by decide⟩ ⟨100, by decide⟩ ⟨14, by decide⟩ ⟨50, by decide⟩ :=
  (box_outline_iff (horizontalDisplay fun _ => 0x55) (inStep_horizontalDisplay _) ⟨27, by decide⟩
    ⟨100, by decide⟩ ⟨14, by decide⟩ ⟨50, by decide⟩ (by decide) (by decide) _
    List.mem_cons_self).mpr (by decide)

/-- **Not for every box**: one of the rows 0 to 7 loses its upper edge. -/
theorem not_forall_box_outlined :
    ¬ ∀ (d : Ssd1306) (x1 x2 : Column) (y1 y2 : Row), d.InStep → x1.1 ≤ x2.1 → y1.1 ≤ y2.1 →
        Outlined (d.receiveAll (I2cUserOled.oledDrawBox x1 y1 x2 y2)) x1 x2 y1 y2 := by
  intro h
  have hd := inStep_horizontalDisplay fun _ => 0x00
  have houtline := h _ ⟨0, by decide⟩ ⟨9, by decide⟩ ⟨0, by decide⟩ ⟨7, by decide⟩ hd (by decide)
    (by decide)
  have htop := houtline.top 5 (by decide) (by decide)
  rw [I2cUserOled.oledDrawBox, pixel_drawBox_row hd _ _ (by decide), if_pos (by decide)] at htop
  exact absurd htop (by decide)

end Oled
