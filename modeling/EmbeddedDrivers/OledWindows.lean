import EmbeddedDrivers.OledArguments
import EmbeddedDrivers.OledFraming

/-!
# Boxes that leave the screen

A cursor sends two windows, of columns and of pages, each from the cursor to a
constant: the last column and the last page of the display. Nothing compares
the cursor with these constants. To the right of the screen and below it the
window starts after its end, and the display, which keeps seven bits of a
column and three of a page, puts the byte somewhere on the screen.

`windows_valid_iff` says for which boxes this does not happen: those whose
lines have all of their cells on the screen. A line that is empty, its ends
being the wrong way round, has no cells and asks for nothing.

The user program's own animation does not keep to such boxes. It moves a box to
the right until its left edge is at column 145, and `main_frames` says which of
its thirty boxes lie on the screen.
-/

namespace Oled

/-! ## A box as one run of plots -/

/-- The plots of a box, each with the byte it sends. -/
def boxPlots (x1 y1 x2 y2 : U8) : List ((U8 × U8) × U8) :=
  (hCells x1 x2 y1).map (·, (1 : U8) <<< (y1 % 8))
    ++ (hCells x1 x2 y2).map (·, (1 : U8) <<< (y2 % 8))
    ++ (vCells x1 y1 y2).map (·, 0xFF) ++ (vCells x2 y1 y2).map (·, 0xFF)

theorem drawBox_eq (x1 y1 : U8) {x2 : U8} (y2 : U8) (hmax : x2.toNat < 255) :
    drawBox x1 y1 x2 y2 = (boxPlots x1 y1 x2 y2).flatMap fun q => plot q.2 q.1 := by
  rw [drawBox, drawHLine_eq hmax, drawHLine_eq hmax, drawVLine_eq, drawVLine_eq, boxPlots]
  simp only [List.flatMap_append, List.flatMap_map]

/-- The stores a box is for are those of its plots. -/
theorem boxStores_eq (x1 y1 x2 y2 : U8) :
    boxStores x1 y1 x2 y2
      = (boxPlots x1 y1 x2 y2).map fun q => ((q.1.1.toNat, q.1.2.toNat), q.2) := by
  simp only [boxStores, boxPlots, hStores, vStores, hCells, vCells, List.map_append, List.map_map]
  rfl

/-! ## What the display makes of the plots -/

/-- The commands of a cursor. -/
def cursorCommands (p : U8 × U8) : List (List U8) := [[0x21, p.2, 127], [0x22, p.1, 7]]

/-- **A cursor** is read as its two commands. -/
theorem commands_setCursor {d : Ssd1306} (h : d.AtBoundary) (p : U8 × U8) :
    d.commands (setCursor p.2 p.1) = cursorCommands p := by
  have hcontrol : (0x00 : U8).getLsbD 6 = false := by decide
  have hcolumns : d.receiveAll (sendCommand 0x21 ++ sendCommand p.2 ++ sendCommand 127)
      = d.withColumns p.2 127 := by
    rw [Ssd1306.receiveAll_append, Ssd1306.receiveAll_append, receiveAll_sendCommand,
      receiveAll_sendCommand, receiveAll_sendCommand, Ssd1306.command_columns h]
  have hsplit : setCursor p.2 p.1
      = (sendCommand 0x21 ++ sendCommand p.2 ++ sendCommand 127)
        ++ (sendCommand 0x22 ++ sendCommand p.1 ++ sendCommand 7) := rfl
  rw [hsplit, Ssd1306.commands_append, hcolumns]
  -- the window of the columns leaves the display between two commands
  have hop : Ssd1306.paramCount 0x21 = 2 ∧ Ssd1306.paramCount 0x22 = 2 := ⟨rfl, rfl⟩
  have hpages := Ssd1306.commands_two (d := d.withColumns p.2 127) h hop.2 hcontrol p.1 7
  exact congrArg₂ (· ++ ·) (Ssd1306.commands_two h hop.1 hcontrol p.2 127) hpages

theorem commands_plot {d : Ssd1306} (h : d.AtBoundary) (data : U8) (p : U8 × U8) :
    d.commands (plot data p) = cursorCommands p := by
  have hcontrol : (0x40 : U8).getLsbD 6 = true := by decide
  rw [plot, Ssd1306.commands_append, commands_setCursor h, sendData,
    Ssd1306.commands_data _ hcontrol, Ssd1306.commands, List.append_nil]

/-- **A run of plots**, of whatever bytes, is read as the commands of its cursors
and stored in their cells. -/
theorem plots_read {d : Ssd1306} (h : d.InStep) (qs : List ((U8 × U8) × U8)) :
    d.commands (qs.flatMap fun q => plot q.2 q.1) = qs.flatMap (fun q => cursorCommands q.1)
      ∧ d.stores (qs.flatMap fun q => plot q.2 q.1) = qs.map fun q => (cellOf q.1, q.2) := by
  induction qs generalizing d with
  | nil => exact ⟨rfl, rfl⟩
  | cons q qs ih =>
    have hplot := plot_draws h q.2 q.1
    obtain ⟨hcommands, hstores⟩ := ih hplot.inStep
    rw [List.flatMap_cons, Ssd1306.commands_append, Ssd1306.stores_append, hcommands, hstores,
      commands_plot h.boundary, hplot.stores]
    exact ⟨rfl, rfl⟩

/-! ## Cells on the screen -/

/-- A cell on the screen, by page and column. -/
def Visible (p : U8 × U8) : Prop := p.1.toNat < 8 ∧ p.2.toNat < 128

/-- The windows of a cursor are valid on the screen and nowhere else. -/
theorem cursorCommands_valid_iff (p : U8 × U8) :
    (∀ c ∈ cursorCommands p, Ssd1306.ValidWindow c) ↔ Visible p := by
  obtain ⟨page, col⟩ := p
  simp only [cursorCommands, List.forall_mem_cons, Ssd1306.ValidWindow, Visible, BitVec.le_def]
  simp
  omega

/-- All numbers counted are below a number if the last is, or there are none. -/
theorem forall_counted_iff {lo hi : U8} {A : Prop} {n : ℕ} :
    (∀ x ∈ counted lo hi, A ∧ x.toNat < n) ↔ (lo ≤ hi → A ∧ hi.toNat < n) := by
  constructor
  · exact fun h hle => h hi (mem_counted.mpr ⟨hle, BitVec.le_refl hi⟩)
  · intro h x hx
    obtain ⟨hlo, hhi⟩ := mem_counted.mp hx
    obtain ⟨hA, hlt⟩ := h (BitVec.le_trans hlo hhi)
    exact ⟨hA, lt_of_le_of_lt (BitVec.le_def.mp hhi) hlt⟩

/-- A page on the screen is one of a row on it. -/
theorem toNat_div_eight_lt_iff (y : U8) : (y / 8).toNat < 8 ↔ y.toNat < 64 := by
  rw [toNat_div_eight]
  omega

theorem hCells_visible_iff (x1 x2 y : U8) :
    (∀ p ∈ hCells x1 x2 y, Visible p) ↔ (x1 ≤ x2 → y.toNat < 64 ∧ x2.toNat < 128) := by
  rw [hCells, List.forall_mem_map, ← toNat_div_eight_lt_iff]
  exact forall_counted_iff (A := (y / 8).toNat < 8)

theorem vCells_visible_iff (x y1 y2 : U8) :
    (∀ p ∈ vCells x y1 y2, Visible p) ↔ (y1 / 8 ≤ y2 / 8 → x.toNat < 128 ∧ y2.toNat < 64) := by
  rw [vCells, List.forall_mem_map, ← toNat_div_eight_lt_iff]
  refine Iff.trans ?_ forall_counted_iff
  exact forall₂_congr fun page _ => and_comm

/-- **A box on the screen**: its two horizontal lines, unless they are empty, and
its two vertical lines, unless they are. -/
structure OnScreen (x1 y1 x2 y2 : U8) : Prop where
  horizontal : x1 ≤ x2 → x2.toNat < 128 ∧ y1.toNat < 64 ∧ y2.toNat < 64
  vertical : y1 / 8 ≤ y2 / 8 → x1.toNat < 128 ∧ x2.toNat < 128 ∧ y2.toNat < 64

instance (x1 y1 x2 y2 : U8) : Decidable (OnScreen x1 y1 x2 y2) :=
  decidable_of_iff
    ((x1 ≤ x2 → x2.toNat < 128 ∧ y1.toNat < 64 ∧ y2.toNat < 64)
      ∧ (y1 / 8 ≤ y2 / 8 → x1.toNat < 128 ∧ x2.toNat < 128 ∧ y2.toNat < 64))
    ⟨fun h => ⟨h.1, h.2⟩, fun h => ⟨h.1, h.2⟩⟩

/-- **Its plots are those of a box on the screen** exactly if their cells are. -/
theorem boxPlots_visible_iff (x1 y1 x2 y2 : U8) :
    (∀ q ∈ boxPlots x1 y1 x2 y2, Visible q.1) ↔ OnScreen x1 y1 x2 y2 := by
  simp only [boxPlots, List.forall_mem_append, List.forall_mem_map, hCells_visible_iff,
    vCells_visible_iff]
  constructor
  · rintro ⟨⟨⟨htop, hbottom⟩, hleft⟩, hright⟩
    exact ⟨fun h => ⟨(htop h).2, (htop h).1, (hbottom h).1⟩,
      fun h => ⟨(hleft h).1, (hright h).1, (hright h).2⟩⟩
  · intro h
    refine ⟨⟨⟨fun hx => ?_, fun hx => ?_⟩, fun hy => ?_⟩, fun hy => ?_⟩
    · obtain ⟨hx2, hy1, -⟩ := h.horizontal hx
      exact ⟨hy1, hx2⟩
    · obtain ⟨hx2, -, hy2⟩ := h.horizontal hx
      exact ⟨hy2, hx2⟩
    · obtain ⟨hx1, -, hy2⟩ := h.vertical hy
      exact ⟨hx1, hy2⟩
    · obtain ⟨-, hx2, hy2⟩ := h.vertical hy
      exact ⟨hx2, hy2⟩

/-! ## Valid windows -/

/-- **The windows of a run of plots** are valid exactly if their cells are on the
screen. -/
theorem plots_valid_iff {d : Ssd1306} (h : d.InStep) (qs : List ((U8 × U8) × U8)) :
    (∀ c ∈ d.commands (qs.flatMap fun q => plot q.2 q.1), Ssd1306.ValidWindow c)
      ↔ ∀ q ∈ qs, Visible q.1 := by
  rw [(plots_read h qs).1, List.forall_mem_flatMap]
  exact forall₂_congr fun q _ => cursorCommands_valid_iff q.1

/-- **What lies off the screen is left out** exactly if there is nothing off it:
every plot stores its byte, on the screen or wrapped onto it. -/
theorem plots_clipped_iff {d : Ssd1306} (h : d.InStep) (qs : List ((U8 × U8) × U8)) :
    d.stores (qs.flatMap fun q => plot q.2 q.1)
        = (qs.map fun q => ((q.1.1.toNat, q.1.2.toNat), q.2)).filter
            (fun s => s.1.1 < 8 ∧ s.1.2 < 128)
      ↔ ∀ q ∈ qs, Visible q.1 := by
  rw [(plots_read h qs).2]
  constructor
  · intro heq q hq
    -- a plot left out would leave fewer stores than plots
    have hlength := congrArg List.length heq
    rw [List.length_map] at hlength
    have hall := List.length_filter_eq_length_iff.mp (hlength.symm.trans (List.length_map _).symm)
    have hcell : q.1.1.toNat < 8 ∧ q.1.2.toNat < 128 :=
      of_decide_eq_true (hall _ (List.mem_map_of_mem hq))
    exact hcell
  · intro hvisible
    rw [List.filter_eq_self.mpr]
    · exact List.map_congr_left fun q hq => by
        rw [cellOf_eq (hvisible q hq).1 (hvisible q hq).2]
    · intro s hs
      obtain ⟨q, hq, rfl⟩ := List.mem_map.mp hs
      have hcell : q.1.1.toNat < 8 ∧ q.1.2.toNat < 128 := hvisible q hq
      exact decide_eq_true hcell

/-- **The windows of a box** that is finished. -/
theorem drawBox_valid_iff {d : Ssd1306} (h : d.InStep) (x1 y1 : U8) {x2 : U8} (y2 : U8)
    (hmax : x2.toNat < 255) :
    (∀ c ∈ d.commands (drawBox x1 y1 x2 y2), Ssd1306.ValidWindow c) ↔ OnScreen x1 y1 x2 y2 := by
  rw [drawBox_eq x1 y1 y2 hmax, plots_valid_iff h, boxPlots_visible_iff]

/-- **Valid windows.** For every box, of any four bytes, whose drawing loops are
left: both programs' functions send it, its window commands are valid exactly if
the box lies on the screen, and exactly then do the stores leave out what lies
off the screen. -/
theorem windows_valid_iff {d : Ssd1306} (h : d.InStep) {x1 y1 x2 y2 : U8} {sent : List Transfer}
    (hsent : BoxSends x1 y1 x2 y2 sent) :
    (I2cUserOled.oledDrawBox x1 y1 x2 y2 = sent ∧ OledI2cdrv.oledDrawBox x1 y1 x2 y2 = sent)
      ∧ ((∀ c ∈ d.commands sent, Ssd1306.ValidWindow c) ↔ OnScreen x1 y1 x2 y2)
      ∧ (d.stores sent = (boxStores x1 y1 x2 y2).filter (fun s => s.1.1 < 8 ∧ s.1.2 < 128)
          ↔ OnScreen x1 y1 x2 y2) := by
  obtain ⟨hmax, rfl⟩ := hsent.eq_drawBox
  refine ⟨⟨rfl, rfl⟩, drawBox_valid_iff h x1 y1 y2 hmax, ?_⟩
  rw [drawBox_eq x1 y1 y2 hmax, boxStores_eq, plots_clipped_iff h, boxPlots_visible_iff]

/-- The box of the initialisation, after its commands. -/
theorem windows_valid_initBox :
    I2cUserOled.oledDrawBox 27 14 100 50 = drawBox 27 14 100 50
      ∧ ∀ c ∈ ((powerOnDisplay fun _ => 0).receiveAll initCommands).commands (drawBox 27 14 100 50),
        Ssd1306.ValidWindow c := by
  have hstep := (initCommands_framed (d := powerOnDisplay fun _ => 0) rfl).2
  have hmax : (100 : U8).toNat < 255 := by decide
  obtain ⟨hbox, hvalid, -⟩ := windows_valid_iff hstep (boxSends_drawBox 27 14 50 hmax)
  exact ⟨hbox.1, hvalid.mpr (by decide)⟩

/-- **Not for all boxes**: the last box of the animation is off the screen to the
right. -/
theorem not_forall_windows_valid :
    ¬ ∀ (d : Ssd1306) (x1 y1 x2 y2 : U8) (sent : List Transfer), d.InStep →
      BoxSends x1 y1 x2 y2 sent → ∀ c ∈ d.commands sent, Ssd1306.ValidWindow c := by
  intro h
  have hstep := (initCommands_framed (d := powerOnDisplay fun _ => 0) rfl).2
  have hmax : (165 : U8).toNat < 255 := by decide
  have hvalid := h _ 145 20 165 40 _ hstep (boxSends_drawBox 145 20 40 hmax)
  rw [drawBox_valid_iff hstep 145 20 40 hmax] at hvalid
  exact absurd hvalid (by decide)

end Oled

/-! ## The animation of the user program -/

namespace I2cUserOled

open Oled (U8 Transfer)

/-- The loop of `main`, over the left edge of a box. -/
def mainBody : Loop.Body U8 Transfer := fun x =>
  if x < 150 then (oledClear ++ oledDrawBox x 20 (x + 20) 40, some (x + 5)) else ([], none)

/-- The left edge of the box in a turn of it. -/
def leftEdge (k : ℕ) : U8 := BitVec.ofNat 8 (5 * k)

/-- **The animation** ends after thirty turns, each of which clears the screen and
finishes a box; the windows of the first twenty-two are valid on every display
in step, and those of the others on none. -/
theorem main_frames :
    Loop.Ends mainBody 0 ((List.range 30).flatMap fun k =>
        oledClear ++ oledDrawBox (leftEdge k) 20 (leftEdge k + 20) 40)
      ∧ ∀ k < 30,
        Oled.BoxSends (leftEdge k) 20 (leftEdge k + 20) 40
            (oledDrawBox (leftEdge k) 20 (leftEdge k + 20) 40)
          ∧ ∀ d : Ssd1306, d.InStep →
            ((∀ c ∈ d.commands (oledDrawBox (leftEdge k) 20 (leftEdge k + 20) 40),
                Ssd1306.ValidWindow c)
              ↔ k < 22) := by
  have hedge : ∀ k < 30, leftEdge k < 150 ∧ leftEdge k + 5 = leftEdge (k + 1)
      ∧ (leftEdge k + 20).toNat < 255
      ∧ (Oled.OnScreen (leftEdge k) 20 (leftEdge k + 20) 40 ↔ k < 22) := by
    decide
  refine ⟨⟨31, Loop.halts_of_turns leftEdge _ (fun k hk => ?_) (if_neg (by decide))⟩,
    fun k hk => ?_⟩
  · obtain ⟨hlt, hnext, -⟩ := hedge k hk
    rw [← hnext]
    exact if_pos hlt
  · obtain ⟨-, -, hmax, hscreen⟩ := hedge k hk
    exact ⟨Oled.boxSends_drawBox _ _ _ hmax,
      fun d hd => (Oled.drawBox_valid_iff hd _ _ _ hmax).trans hscreen⟩

end I2cUserOled
