import EmbeddedDrivers.OledDriver
import EmbeddedDrivers.Ssd1306

/-!
# Drawing on the graphic display

What the transfers of the drawing functions do to a display. Everything they
draw is made of one thing, a cursor set and a byte sent (`plot`), and a plot
depends on nothing the display has been left with: it brings its own window
and position, stores one byte, and the window stays.

That a plot leaves its window behind is harmless for the next plot, which
brings another one. It is not harmless for what sends data without setting the
cursor first.
-/

namespace Oled

@[simp] theorem receiveAll_sendCommand (d : Ssd1306) (cmd : U8) :
    d.receiveAll (sendCommand cmd) = d.command cmd :=
  Ssd1306.receive_command d (show (0x00 : U8).getLsbD 6 = false from by decide)

@[simp] theorem receiveAll_sendData (d : Ssd1306) (data : U8) :
    d.receiveAll (sendData data) = d.data data :=
  Ssd1306.receive_data d (show (0x40 : U8).getLsbD 6 = true from by decide)

/-- Where the display stores the byte of a cell. -/
def cellOf (p : U8 × U8) : Raster.Cell := (p.1.toNat % 8, p.2.toNat % 128)

/-- The window a cursor leaves: from the cell to the last page and column. -/
def windowOf (p : U8 × U8) : Raster.Window := ⟨p.1.toNat % 8, 7, p.2.toNat % 128, 127⟩

theorem contains_cellOf (p : U8 × U8) : (windowOf p).Contains (cellOf p) := by
  have hpage := Nat.mod_lt p.1.toNat (show 0 < 8 by omega)
  have hcol := Nat.mod_lt p.2.toNat (show 0 < 128 by omega)
  exact ⟨⟨le_rfl, Nat.le_of_lt_succ hpage⟩, le_rfl, Nat.le_of_lt_succ hcol⟩

/-- **A cursor** sets the window and the position. -/
theorem receiveAll_setCursor {d : Ssd1306} (h : d.AtBoundary) (p : U8 × U8) :
    d.receiveAll (setCursor p.2 p.1)
      = { d with window := windowOf p, position := cellOf p } := by
  simp only [setCursor, Ssd1306.receiveAll_append, receiveAll_sendCommand]
  rw [Ssd1306.command_columns h, Ssd1306.command_pages (d := d.withColumns p.2 127) h]
  rfl

/-! ## One plot, and a run of them -/

theorem setCursor_commands (col page : U8) : ∀ t ∈ setCursor col page, t.1.getLsbD 6 = false := by
  simp [setCursor, sendCommand]

/-- A data byte is in frame between two commands. -/
theorem framed_sendData {d : Ssd1306} (h : d.AtBoundary) (data : U8) :
    d.Framed (sendData data) := by
  refine ⟨fun _ => h, ?_⟩
  show (d.receiveAll (sendData data)).AtBoundary
  rw [receiveAll_sendData]
  exact h

/-- It is stored at the position. -/
theorem stores_sendData (d : Ssd1306) (data : U8) :
    d.stores (sendData data) = [(d.position, data)] := by
  rw [sendData, Ssd1306.stores, if_pos (show (0x40 : U8).getLsbD 6 = true from by decide)]
  rfl

/-- A cursor keeps the display in step. -/
theorem inStep_setCursor {d : Ssd1306} (h : d.InStep) (p : U8 × U8) :
    (d.receiveAll (setCursor p.2 p.1)).InStep := by
  rw [receiveAll_setCursor h.boundary]
  exact ⟨h.boundary, h.horizontal⟩

/-- **What a drawing function has to do**: its transfers are in frame, keep the
display in step, and make the stores it is for. -/
structure Draws (d : Ssd1306) (ts : List Transfer) (ss : List (Raster.Cell × U8)) : Prop where
  framed : d.Framed ts
  inStep : (d.receiveAll ts).InStep
  stores : d.stores ts = ss

theorem Draws.append {d : Ssd1306} {ts us : List Transfer} {ss rs : List (Raster.Cell × U8)}
    (h : Draws d ts ss) (h' : Draws (d.receiveAll ts) us rs) : Draws d (ts ++ us) (ss ++ rs) where
  framed := h.framed.append h'.framed
  inStep := by
    rw [Ssd1306.receiveAll_append]
    exact h'.inStep
  stores := by rw [Ssd1306.stores_append, h.stores, h'.stores]

/-- **A plot** stores its byte in the cell of its cursor. -/
theorem plot_draws {d : Ssd1306} (h : d.InStep) (data : U8) (p : U8 × U8) :
    Draws d (plot data p) [(cellOf p, data)] := by
  have hcursor := inStep_setCursor h p
  have hposition : (d.receiveAll (setCursor p.2 p.1)).position = cellOf p := by
    rw [receiveAll_setCursor h.boundary]
  refine ⟨?_, ?_, ?_⟩
  · exact (Ssd1306.framed_of_commands (setCursor_commands p.2 p.1) hcursor.boundary).append
      (framed_sendData hcursor.boundary data)
  · rw [plot, Ssd1306.receiveAll_append, receiveAll_sendData]
    exact hcursor.data data
  · rw [plot, Ssd1306.stores_append, Ssd1306.stores_of_commands (setCursor_commands p.2 p.1),
      stores_sendData, hposition]
    rfl

/-- **A run of plots.** -/
theorem plots_draws {d : Ssd1306} (h : d.InStep) (data : U8) (ps : List (U8 × U8)) :
    Draws d (ps.flatMap (plot data)) (ps.map fun p => (cellOf p, data)) := by
  induction ps generalizing d with
  | nil => exact ⟨h.boundary, h, rfl⟩
  | cons p ps ih =>
    have hplot := plot_draws h data p
    exact hplot.append (ih hplot.inStep)

/-- **The memory after a drawing function** is that after its stores. -/
theorem Draws.gddram {d : Ssd1306} {ts : List Transfer} {ss : List (Raster.Cell × U8)}
    (h : Draws d ts ss) : (d.receiveAll ts).gddram = Stores.storeAll d.gddram ss := by
  rw [Ssd1306.gddram_receiveAll, h.stores]

/-! ## The window a plot leaves -/

/-- After a cursor, data can be sent. -/
theorem addressed_setCursor {d : Ssd1306} (h : d.Addressed) (p : U8 × U8) :
    (d.receiveAll (setCursor p.2 p.1)).Addressed := by
  rw [receiveAll_setCursor h.boundary]
  have hpages : (windowOf p).rowEnd < 8 := show 7 < 8 by omega
  have hcolumns : (windowOf p).colEnd < 128 := show 127 < 128 by omega
  exact ⟨⟨h.boundary, contains_cellOf p, hpages, hcolumns⟩, h.horizontal⟩

/-- **A plot** leaves its window behind. -/
theorem receiveAll_plot {d : Ssd1306} (h : d.Addressed) (data : U8) (p : U8 × U8) :
    (d.receiveAll (plot data p)).Addressed
      ∧ (d.receiveAll (plot data p)).window = windowOf p := by
  rw [plot, Ssd1306.receiveAll_append, receiveAll_sendData]
  refine ⟨(addressed_setCursor h p).data data, ?_⟩
  rw [receiveAll_setCursor h.boundary]
  rfl

theorem addressed_plots {d : Ssd1306} (h : d.Addressed) (data : U8) (ps : List (U8 × U8)) :
    (d.receiveAll (ps.flatMap (plot data))).Addressed := by
  induction ps generalizing d with
  | nil => exact h
  | cons p ps ih =>
    rw [List.flatMap_cons, Ssd1306.receiveAll_append]
    exact ih (receiveAll_plot h data p).1

theorem window_plots {d : Ssd1306} (h : d.Addressed) (data : U8) {ps : List (U8 × U8)}
    {p : U8 × U8} (hp : ps.getLast? = some p) :
    (d.receiveAll (ps.flatMap (plot data))).window = windowOf p := by
  induction ps generalizing d with
  | nil => exact absurd hp (Option.some_ne_none p).symm
  | cons p₁ ps ih =>
    obtain ⟨haddr, hwindow⟩ := receiveAll_plot h data p₁
    rw [List.flatMap_cons, Ssd1306.receiveAll_append]
    cases ps with
    | nil =>
      obtain rfl : p₁ = p := Option.some.inj hp
      rw [List.flatMap_nil, Ssd1306.receiveAll_nil, hwindow]
    | cons p₂ ps => exact ih haddr (by rwa [List.getLast?_cons_cons] at hp)

/-- **A run of plots** of one byte stores it in their cells and nowhere else;
the window is that of the last. -/
theorem receiveAll_plots {d : Ssd1306} (h : d.Addressed) (data : U8) (ps : List (U8 × U8)) :
    (d.receiveAll (ps.flatMap (plot data))).Addressed
      ∧ (∀ p, ps.getLast? = some p → (d.receiveAll (ps.flatMap (plot data))).window = windowOf p)
      ∧ ∀ q, (d.receiveAll (ps.flatMap (plot data))).gddram q
          = if q ∈ ps.map cellOf then data else d.gddram q := by
  refine ⟨addressed_plots h data ps, fun _ => window_plots h data, fun q => ?_⟩
  have hstores : ps.map (fun p => (cellOf p, data)) = (ps.map cellOf).map fun q => (q, data) := by
    rw [List.map_map]
    rfl
  rw [(plots_draws h.inStep data ps).gddram, hstores]
  refine (Stores.storeAll_map d.gddram (fun _ => data) (ps.map cellOf) q).trans ?_
  congr

/-! ## Lines and boxes -/

/-- **A horizontal line** that its loop finishes. -/
theorem receiveAll_drawHLine {d : Ssd1306} (h : d.Addressed) {x2 : U8} (hmax : x2.toNat < 255)
    (x1 y : U8) :
    (d.receiveAll (drawHLine x1 x2 y)).Addressed
      ∧ ∀ q, (d.receiveAll (drawHLine x1 x2 y)).gddram q
          = if q ∈ (hCells x1 x2 y).map cellOf then (1 : U8) <<< (y % 8) else d.gddram q := by
  rw [drawHLine_eq hmax]
  obtain ⟨haddr, -, hgddram⟩ := receiveAll_plots h ((1 : U8) <<< (y % 8)) (hCells x1 x2 y)
  exact ⟨haddr, hgddram⟩

/-- **A vertical line.** -/
theorem receiveAll_drawVLine {d : Ssd1306} (h : d.Addressed) (x y1 y2 : U8) :
    (d.receiveAll (drawVLine x y1 y2)).Addressed
      ∧ (∀ p, (vCells x y1 y2).getLast? = some p →
          (d.receiveAll (drawVLine x y1 y2)).window = windowOf p)
      ∧ ∀ q, (d.receiveAll (drawVLine x y1 y2)).gddram q
          = if q ∈ (vCells x y1 y2).map cellOf then 0xFF else d.gddram q := by
  rw [drawVLine_eq]
  exact receiveAll_plots h 0xFF (vCells x y1 y2)

/-- **A box**: the last line drawn wins, and leaves its window. -/
theorem receiveAll_drawBox {d : Ssd1306} (h : d.Addressed) {x2 : U8} (hmax : x2.toNat < 255)
    (x1 y1 y2 : U8) :
    (d.receiveAll (drawBox x1 y1 x2 y2)).Addressed
      ∧ (∀ p, (vCells x2 y1 y2).getLast? = some p →
          (d.receiveAll (drawBox x1 y1 x2 y2)).window = windowOf p)
      ∧ ∀ q, (d.receiveAll (drawBox x1 y1 x2 y2)).gddram q
          = if q ∈ (vCells x2 y1 y2).map cellOf then 0xFF
            else if q ∈ (vCells x1 y1 y2).map cellOf then 0xFF
            else if q ∈ (hCells x1 x2 y2).map cellOf then (1 : U8) <<< (y2 % 8)
            else if q ∈ (hCells x1 x2 y1).map cellOf then (1 : U8) <<< (y1 % 8)
            else d.gddram q := by
  obtain ⟨htop, gtop⟩ := receiveAll_drawHLine h hmax x1 y1
  obtain ⟨hbottom, gbottom⟩ := receiveAll_drawHLine htop hmax x1 y2
  obtain ⟨hleft, -, gleft⟩ := receiveAll_drawVLine hbottom x1 y1 y2
  obtain ⟨hright, wright, gright⟩ := receiveAll_drawVLine hleft x2 y1 y2
  rw [drawBox, Ssd1306.receiveAll_append, Ssd1306.receiveAll_append, Ssd1306.receiveAll_append]
  refine ⟨hright, wright, fun q => ?_⟩
  rw [gright, gleft, gbottom, gtop]

/-! ## Initialising, clearing and filling -/

/-- The commands of the initialisation select horizontal mode and keep the
window and the position. -/
theorem receiveAll_initCommands {d : Ssd1306} (h : d.AtBoundary) :
    d.receiveAll initCommands = { d with mode := .horizontal } := by
  simp only [initCommands, Ssd1306.receiveAll_append, receiveAll_sendCommand]
  have hmode : d.mode.select 0x00 = .horizontal := rfl
  rw [Ssd1306.command_single h rfl, Ssd1306.command_mode h, hmode,
    Ssd1306.command_chargePump (d := { d with mode := .horizontal }) h,
    Ssd1306.command_single (d := { d with mode := .horizontal }) h rfl,
    Ssd1306.command_single (d := { d with mode := .horizontal }) h rfl]

theorem addressed_initCommands {d : Ssd1306} (h : d.Placed) :
    (d.receiveAll initCommands).Addressed := by
  rw [receiveAll_initCommands h.boundary]
  exact ⟨⟨h.boundary, h.position, h.pages, h.columns⟩, rfl⟩

/-- Transfers of data bytes are data bytes. -/
theorem receiveAll_stream {w : ℕ} (bound : BitVec w) (hb : 0 < bound.toNat) (d : Ssd1306)
    (data : U8) :
    d.receiveAll (stream bound data) = (List.replicate bound.toNat data).foldl Ssd1306.data d := by
  rw [stream_eq hb]
  induction bound.toNat generalizing d with
  | zero => rfl
  | succ n ih =>
    show Ssd1306.receiveAll _ (sendData data ++ List.replicate n (0x40, data)) = _
    rw [Ssd1306.receiveAll_append, receiveAll_sendData, ih]
    rfl

/-- **Clearing and filling** write the window and nothing else. -/
theorem receiveAll_stream_fills {w : ℕ} (bound : BitVec w) (hb : bound.toNat = 1024)
    {d : Ssd1306} (h : d.Addressed) (data : U8) :
    (d.receiveAll (stream bound data)).Addressed
      ∧ (d.receiveAll (stream bound data)).window = d.window
      ∧ ∀ q, (d.receiveAll (stream bound data)).gddram q
          = if d.window.Contains q then data else d.gddram q := by
  have hsize : d.window.size ≤ bound.toNat := by
    rw [hb]
    exact h.size_le
  rw [receiveAll_stream bound (by omega)]
  exact Ssd1306.foldl_data_fills h data hsize

end Oled
