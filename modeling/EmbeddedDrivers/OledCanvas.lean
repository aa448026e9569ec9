import EmbeddedDrivers.OledWindows

/-!
# The canvas behind the drawing functions

What the drawing calls are to someone who has never heard of commands and
cursors: a canvas of eight pages of 128 bytes, on which plots put bytes. There
is one thing on it that such a reader would not expect, a window. A plot moves
it, and clearing and filling stop at it; the canvas has it as a part of its
state, since without it there is no saying what a clear does.

`canvas_refines` is that the display is this canvas, after any calls with any
bytes for their arguments whose loops are left: what lies off the screen is put
on it modulo its size, by the plots and by the window alike. Two things follow
that the functions alone do not show. Calls that only draw can be repeated
without harm (`redraw_display`). And clears between the boxes of an animation
do not separate its frames: on the pages between the upper and the lower edge
of the boxes every edge ever drawn stays (`animation_trail`).
-/

namespace Oled

/-! ## Calls -/

/-- **A call** of a drawing function, with any bytes for its arguments. -/
inductive Call
  | setCursor (col page : U8)
  | drawHLine (x1 x2 y : U8)
  | drawVLine (x y1 y2 : U8)
  | drawBox (x1 y1 x2 y2 : U8)
  | clear
  | fill

/-- **What a call sends** once its loops have been left. -/
def Call.Sends : Call → List Transfer → Prop
  | .setCursor col page, ts => ts = I2cUserOled.oledSetCursor col page
  | .drawHLine x1 x2 y, ts => Loop.Ends (hLineBody x2 y) x1 ts
  | .drawVLine x y1 y2, ts => Loop.Ends (vLineBody x y2) (y1 / 8) ts
  | .drawBox x1 y1 x2 y2, ts => BoxSends x1 y1 x2 y2 ts
  | .clear, ts => Loop.Ends (Loop.below (1024 : BitVec 16) fun _ => sendData 0x00) 0 ts
  | .fill, ts => Loop.Ends (Loop.below (1024 : BitVec 16) fun _ => sendData 0xFF) 0 ts

/-- A byte put in a cell, by page and column. -/
abbrev Plot := (U8 × U8) × U8

/-- The transfers of a run of plots. -/
def plotted (qs : List Plot) : List Transfer := qs.flatMap fun q => plot q.2 q.1

/-- The plots of a call that draws. -/
def Call.plots : Call → List Plot
  | .drawHLine x1 x2 y => (hCells x1 x2 y).map (·, (1 : U8) <<< (y % 8))
  | .drawVLine x y1 y2 => (vCells x y1 y2).map (·, 0xFF)
  | .drawBox x1 y1 x2 y2 => boxPlots x1 y1 x2 y2
  | _ => []

/-! ## The canvas -/

/-- **A canvas**: a byte for each page and column, and the window. -/
structure Canvas where
  cells : Raster.Cell → U8
  window : Raster.Window

/-- A byte is put in its cell, and the window goes from there to the last page
and column. -/
def Canvas.plot (cv : Canvas) (q : Plot) : Canvas :=
  ⟨Function.update cv.cells (cellOf q.1) q.2, windowOf q.1⟩

/-- The window gets a value. -/
def Canvas.paint (cv : Canvas) (v : U8) : Canvas :=
  ⟨fun q => if cv.window.Contains q then v else cv.cells q, cv.window⟩

/-- **A call on the canvas.** -/
def Canvas.draw (cv : Canvas) : Call → Canvas
  | .setCursor col page => ⟨cv.cells, windowOf (page, col)⟩
  | .clear => cv.paint 0x00
  | .fill => cv.paint 0xFF
  | c => c.plots.foldl Canvas.plot cv

/-- The canvas of a display. -/
def canvasOf (d : Ssd1306) : Canvas := ⟨d.gddram, d.window⟩

/-! ## The display is the canvas -/

theorem plotted_cons (q : Plot) (qs : List Plot) :
    plotted (q :: qs) = plot q.2 q.1 ++ plotted qs := List.flatMap_cons

/-- **A run of plots** on the canvas. -/
theorem canvas_plotted {d : Ssd1306} (h : d.Addressed) (qs : List Plot) :
    (d.receiveAll (plotted qs)).Addressed
      ∧ canvasOf (d.receiveAll (plotted qs)) = qs.foldl Canvas.plot (canvasOf d) := by
  induction qs generalizing d with
  | nil => exact ⟨h, rfl⟩
  | cons q qs ih =>
    obtain ⟨haddr, hwindow⟩ := receiveAll_plot h q.2 q.1
    have hcanvas : canvasOf (d.receiveAll (plot q.2 q.1)) = (canvasOf d).plot q := by
      rw [canvasOf, hwindow, (plot_draws h.inStep q.2 q.1).gddram]
      rfl
    rw [plotted_cons, Ssd1306.receiveAll_append, List.foldl_cons, ← hcanvas]
    exact ih haddr

/-- A horizontal line sends its plots, and its right end is not 255. -/
theorem sends_hLine {x1 x2 y : U8} {ts : List Transfer}
    (h : Loop.Ends (hLineBody x2 y) x1 ts) :
    x2.toNat < 255 ∧ ts = (hCells x1 x2 y).flatMap (plot ((1 : U8) <<< (y % 8))) := by
  have hlt : x2.toNat < 255 := by
    by_contra hge
    have hx := x2.isLt
    obtain rfl : x2 = 255 := BitVec.eq_of_toNat_eq (show x2.toNat = 255 by omega)
    exact Loop.not_ends_upTo (by decide) _ x1 ts h
  obtain ⟨n, -, hhalts⟩ := drawHLine_halts hlt x1 y
  exact ⟨hlt, h.unique ⟨n, hhalts⟩⟩

/-- A vertical line sends its plots. -/
theorem sends_vLine {x y1 y2 : U8} {ts : List Transfer}
    (h : Loop.Ends (vLineBody x y2) (y1 / 8) ts) :
    ts = (vCells x y1 y2).flatMap (plot 0xFF) := by
  obtain ⟨n, -, hhalts⟩ := drawVLine_halts x y1 y2
  exact h.unique ⟨n, hhalts⟩

/-- **What a call sends**: its plots, or a cursor, or a stream of one byte. -/
theorem Call.Sends.eq {c : Call} {ts : List Transfer} (h : c.Sends ts) :
    match c with
    | .setCursor col page => ts = Oled.setCursor col page
    | .clear => ts = stream (1024 : BitVec 16) 0x00
    | .fill => ts = stream (1024 : BitVec 16) 0xFF
    | c => ts = plotted c.plots := by
  cases c with
  | setCursor col page => exact h
  | drawHLine x1 x2 y =>
    show ts = plotted ((hCells x1 x2 y).map (·, (1 : U8) <<< (y % 8)))
    rw [plotted, List.flatMap_map]
    exact (sends_hLine h).2
  | drawVLine x y1 y2 =>
    show ts = plotted ((vCells x y1 y2).map (·, 0xFF))
    rw [plotted, List.flatMap_map]
    exact sends_vLine h
  | drawBox x1 y1 x2 y2 =>
    obtain ⟨hmax, rfl⟩ := BoxSends.eq_drawBox h
    exact drawBox_eq x1 y1 y2 hmax
  | clear => exact Loop.Ends.unique h (Loop.ends_below (by decide) _ le_rfl)
  | fill => exact Loop.Ends.unique h (Loop.ends_below (by decide) _ le_rfl)

/-- A stream of 1024 bytes on the canvas. -/
theorem canvas_stream {d : Ssd1306} (h : d.Addressed) (v : U8) :
    (d.receiveAll (stream (1024 : BitVec 16) v)).Addressed
      ∧ canvasOf (d.receiveAll (stream (1024 : BitVec 16) v)) = (canvasOf d).paint v := by
  obtain ⟨haddr, hwindow, hgddram⟩ := receiveAll_stream_fills (1024 : BitVec 16) rfl h v
  have hcells : (d.receiveAll (stream (1024 : BitVec 16) v)).gddram
      = fun q => if d.window.Contains q then v else d.gddram q := funext hgddram
  refine ⟨haddr, ?_⟩
  rw [canvasOf, hwindow, hcells]
  rfl

/-- **One call** does to the display what it does to the canvas. -/
theorem canvas_call {d : Ssd1306} (h : d.Addressed) {c : Call} {ts : List Transfer}
    (hs : c.Sends ts) :
    (d.receiveAll ts).Addressed ∧ canvasOf (d.receiveAll ts) = (canvasOf d).draw c := by
  have hts := hs.eq
  cases c with
  | setCursor col page =>
    rw [hts]
    refine ⟨addressed_setCursor h (page, col), ?_⟩
    rw [receiveAll_setCursor h.boundary (page, col)]
    rfl
  | clear =>
    rw [hts]
    exact canvas_stream h 0x00
  | fill =>
    rw [hts]
    exact canvas_stream h 0xFF
  | drawHLine | drawVLine | drawBox =>
    rw [hts]
    exact canvas_plotted h _

/-- The call draws, or sets the cursor: it sends no data from where the display
has been left. -/
def Call.Draws (c : Call) : Prop := c ≠ .clear ∧ c ≠ .fill

/-- The display with some stores made, and put to a window and a position, if to
any. -/
def overdrawn (d : Ssd1306) (ss : List (Raster.Cell × U8))
    (place : Option (Raster.Window × Raster.Cell)) : Ssd1306 :=
  { d with
    gddram := Stores.storeAll d.gddram ss
    window := (place.map Prod.fst).getD d.window
    position := (place.map Prod.snd).getD d.position }

theorem inStep_overdrawn {d : Ssd1306} (h : d.InStep) (ss : List (Raster.Cell × U8))
    (place : Option (Raster.Window × Raster.Cell)) : (overdrawn d ss place).InStep :=
  ⟨h.boundary, h.horizontal⟩

theorem overdrawn_overdrawn (d : Ssd1306) (ss ss' : List (Raster.Cell × U8))
    (place place' : Option (Raster.Window × Raster.Cell)) :
    overdrawn (overdrawn d ss place) ss' place' = overdrawn d (ss ++ ss') (place'.or place) := by
  cases place' <;> simp [overdrawn, Stores.storeAll_append]

/-- **Overdrawn twice** is overdrawn once. -/
theorem overdrawn_self (d : Ssd1306) (ss : List (Raster.Cell × U8))
    (place : Option (Raster.Window × Raster.Cell)) :
    overdrawn (overdrawn d ss place) ss place = overdrawn d ss place := by
  cases place <;> simp [overdrawn, Stores.storeAll_self]

/-- **Transfers overdraw** the display, whatever is on it and wherever it has been
left. -/
def Overdraws (ts : List Transfer) : Prop :=
  ∃ ss place, ∀ d : Ssd1306, d.InStep → d.receiveAll ts = overdrawn d ss place

theorem Overdraws.append {ts us : List Transfer} (ht : Overdraws ts) (hu : Overdraws us) :
    Overdraws (ts ++ us) := by
  obtain ⟨ss, place, hts⟩ := ht
  obtain ⟨ss', place', hus⟩ := hu
  refine ⟨ss ++ ss', place'.or place, fun d hd => ?_⟩
  rw [Ssd1306.receiveAll_append, hts d hd, hus _ (inStep_overdrawn hd ss place),
    overdrawn_overdrawn]

theorem overdraws_nil : Overdraws [] := ⟨[], none, fun _ _ => rfl⟩

/-- A cursor stores nothing. -/
theorem overdraws_setCursor (col page : U8) : Overdraws (setCursor col page) :=
  ⟨[], some (windowOf (page, col), cellOf (page, col)),
    fun _ hd => receiveAll_setCursor hd.boundary (page, col)⟩

/-- A plot stores its byte and moves on in its own window. -/
theorem overdraws_plot (data : U8) (p : U8 × U8) : Overdraws (plot data p) := by
  refine ⟨[(cellOf p, data)], some (windowOf p, (windowOf p).next (cellOf p)), fun d hd => ?_⟩
  rw [plot, Ssd1306.receiveAll_append, receiveAll_setCursor hd.boundary, receiveAll_sendData]
  obtain ⟨pending, mode, window, position, gddram⟩ := d
  obtain rfl : mode = .horizontal := hd.horizontal
  rfl

theorem overdraws_plotted (qs : List Plot) : Overdraws (plotted qs) := by
  induction qs with
  | nil => exact overdraws_nil
  | cons q qs ih => exact (overdraws_plot q.2 q.1).append ih

/-- **A call that draws** overdraws. -/
theorem Call.Sends.overdraws {c : Call} {ts : List Transfer} (h : c.Sends ts) (hc : c.Draws) :
    Overdraws ts := by
  have hts := h.eq
  cases c with
  | setCursor col page =>
    rw [hts]
    exact overdraws_setCursor col page
  | clear => exact absurd rfl hc.1
  | fill => exact absurd rfl hc.2
  | drawHLine | drawVLine | drawBox =>
    rw [hts]
    exact overdraws_plotted _

/-- **Drawing again changes nothing.** On a display in step, after any cursors,
lines and boxes with any bytes for their arguments, the same calls once more
leave the display as it is: its memory, its window, its position and its
mode. -/
theorem redraw_display {d : Ssd1306} (h : d.InStep) {calls : List Call}
    {sent : List (List Transfer)} (hs : List.Forall₂ Call.Sends calls sent)
    (hdraw : ∀ c ∈ calls, c.Draws) :
    (d.receiveAll sent.flatten).receiveAll sent.flatten = d.receiveAll sent.flatten := by
  have hover : Overdraws sent.flatten := by
    induction hs with
    | nil => exact overdraws_nil
    | cons hc _ ih =>
      exact (hc.overdraws (hdraw _ List.mem_cons_self)).append
        (ih (fun c hmem => hdraw c (List.mem_cons_of_mem _ hmem)))
  obtain ⟨ss, place, hall⟩ := hover
  rw [hall d h, hall _ (inStep_overdrawn h ss place), overdrawn_self]

/-- A line drawn on a display of unknown contents. -/
theorem redraw_display_line :
    ∃ sent, Call.Sends (.drawVLine 5 3 200) sent
      ∧ (((powerOnDisplay fun _ => 0x55).receiveAll initCommands).receiveAll sent).receiveAll sent
        = ((powerOnDisplay fun _ => 0x55).receiveAll initCommands).receiveAll sent := by
  have hstep := (addressed_initCommands (placed_powerOnDisplay fun _ => 0x55)).inStep
  obtain ⟨n, -, hhalts⟩ := drawVLine_halts 5 3 200
  have hsent : Call.Sends (.drawVLine 5 3 200) _ := ⟨n, hhalts⟩
  have hagain := redraw_display hstep (.cons hsent .nil)
    (fun c hc => List.mem_singleton.mp hc ▸ ⟨by simp, by simp⟩)
  rw [List.flatten_singleton] at hagain
  exact ⟨_, hsent, hagain⟩

/-! ## Frames of an animation -/

/-- The calls of an animation: a box for each pair of edges, and a clear before
each box. -/
def frames (y1 y2 : U8) (xs : List (U8 × U8)) : List Call :=
  xs.flatMap fun x => [.clear, .drawBox x.1 y1 x.2 y2]

/-- The last number counted. -/
theorem getLast?_counted {lo hi : U8} (h : lo ≤ hi) : (counted lo hi).getLast? = some hi := by
  rw [BitVec.le_def] at h
  obtain ⟨k, hk⟩ := Nat.exists_eq_add_of_le h
  rw [counted, show hi.toNat + 1 - lo.toNat = k + 1 by omega, List.range'_concat, List.map_append,
    Nat.one_mul, ← hk]
  simp

/-- A vertical line is in its column, on its pages. -/
theorem mem_vCells_cellOf {x y1 y2 : U8} (hy : y2.toNat < 64) {page col : ℕ}
    (hlo : (y1 / 8).toNat ≤ page) (hhi : page ≤ (y2 / 8).toNat) :
    (page, col) ∈ (vCells x y1 y2).map cellOf ↔ col = x.toNat % 128 := by
  have hpages : (y2 / 8).toNat < 8 := (toNat_div_eight_lt_iff y2).mpr hy
  rw [vCells, List.map_map, List.mem_map]
  constructor
  · rintro ⟨p, -, heq⟩
    exact (Prod.mk.inj heq).2.symm
  · rintro rfl
    have hpage : (BitVec.ofNat 8 page).toNat = page := by
      rw [BitVec.toNat_ofNat, Nat.mod_eq_of_lt (by omega)]
    refine ⟨BitVec.ofNat 8 page, mem_counted.mpr ?_, ?_⟩
    · rw [BitVec.le_def, BitVec.le_def, hpage]
      exact ⟨hlo, hhi⟩
    · show ((BitVec.ofNat 8 page).toNat % 8, x.toNat % 128) = _
      rw [hpage, Nat.mod_eq_of_lt (by omega)]

/-- A horizontal line is on its page. -/
theorem not_mem_hCells_cellOf {x1 x2 y : U8} {page col : ℕ} (h : (y / 8).toNat % 8 ≠ page) :
    (page, col) ∉ (hCells x1 x2 y).map cellOf := by
  rw [hCells, List.map_map, List.mem_map]
  rintro ⟨x, -, heq⟩
  exact h (Prod.mk.inj heq).1

/-- **A box between its edges**: on the pages strictly between the upper and the
lower one it is its two columns. -/
theorem gddram_drawBox_between {d : Ssd1306} (h : d.Addressed) (x1 y1 : U8) {x2 y2 : U8}
    (hx : x2.toNat < 255) (hy : y2.toNat < 64) {page : ℕ} (hlo : (y1 / 8).toNat < page)
    (hhi : page < (y2 / 8).toNat) (col : ℕ) :
    (d.receiveAll (drawBox x1 y1 x2 y2)).gddram (page, col)
      = if col = x1.toNat % 128 ∨ col = x2.toNat % 128 then 0xFF else d.gddram (page, col) := by
  have hpage : (y2 / 8).toNat < 8 := (toNat_div_eight_lt_iff y2).mpr hy
  have htop : (y1 / 8).toNat % 8 ≠ page := by omega
  have hbottom : (y2 / 8).toNat % 8 ≠ page := by omega
  obtain ⟨-, -, hcells⟩ := receiveAll_drawBox h hx x1 y1 y2
  rw [hcells, if_congr (mem_vCells_cellOf hy hlo.le hhi.le) rfl rfl,
    if_congr (mem_vCells_cellOf hy hlo.le hhi.le) rfl rfl,
    if_neg (not_mem_hCells_cellOf hbottom), if_neg (not_mem_hCells_cellOf htop)]
  by_cases hleft : col = x1.toNat % 128
  · simp [hleft]
  · simp [hleft]

/-- **One frame**, from a window that does not reach above the lower edge of its
box: on the pages between its edges the box adds its two columns and nothing
goes. -/
theorem frame_trail {d : Ssd1306} (h : d.Addressed) {x1 x2 y1 y2 : U8} (hx : x2.toNat < 255)
    (hy : y2.toNat < 64) (hwindow : (y2 / 8).toNat ≤ d.window.rowStart)
    (hpages : (y1 / 8).toNat ≤ (y2 / 8).toNat) :
    (d.receiveAll (stream (1024 : BitVec 16) 0x00 ++ drawBox x1 y1 x2 y2)).Addressed
      ∧ (d.receiveAll (stream (1024 : BitVec 16) 0x00 ++ drawBox x1 y1 x2 y2)).window.rowStart
        = (y2 / 8).toNat
      ∧ ∀ page col, (y1 / 8).toNat < page → page < (y2 / 8).toNat →
        (d.receiveAll (stream (1024 : BitVec 16) 0x00 ++ drawBox x1 y1 x2 y2)).gddram (page, col)
          = if col = x1.toNat % 128 ∨ col = x2.toNat % 128 then 0xFF else d.gddram (page, col) := by
  have hlast : (vCells x2 y1 y2).getLast? = some (y2 / 8, x2) := by
    rw [vCells, List.getLast?_map, getLast?_counted (BitVec.le_def.mpr hpages)]
    rfl
  have hpage : (y2 / 8).toNat < 8 := (toNat_div_eight_lt_iff y2).mpr hy
  obtain ⟨haddr, -, hclear⟩ := receiveAll_stream_fills (1024 : BitVec 16) rfl h 0x00
  obtain ⟨hbox, hwin, -⟩ := receiveAll_drawBox haddr hx x1 y1 y2
  rw [Ssd1306.receiveAll_append]
  refine ⟨hbox, ?_, fun page col hlo hhi => ?_⟩
  · rw [hwin _ hlast]
    exact Nat.mod_eq_of_lt hpage
  · have houtside : ¬ d.window.Contains (page, col) := fun hin => by
      have hrow : d.window.rowStart ≤ page := hin.1.1
      omega
    rw [gddram_drawBox_between haddr x1 y1 hx hy hlo hhi, hclear, if_neg houtside]

/-- **Any number of frames**: every one adds its two columns, and leaves a window
that does not reach above the lower edge. -/
theorem frames_trail {d : Ssd1306} (h : d.Addressed) {y1 y2 : U8} (hy : y2.toNat < 64)
    (hpages : (y1 / 8).toNat ≤ (y2 / 8).toNat) (hwindow : (y2 / 8).toNat ≤ d.window.rowStart)
    {xs : List (U8 × U8)} {sent : List (List Transfer)}
    (hs : List.Forall₂ Call.Sends (frames y1 y2 xs) sent) :
    (d.receiveAll sent.flatten).Addressed
      ∧ (y2 / 8).toNat ≤ (d.receiveAll sent.flatten).window.rowStart
      ∧ ∀ page col, (y1 / 8).toNat < page → page < (y2 / 8).toNat →
        (d.receiveAll sent.flatten).gddram (page, col)
          = if ∃ x ∈ xs, col = x.1.toNat % 128 ∨ col = x.2.toNat % 128 then 0xFF
            else d.gddram (page, col) := by
  induction xs generalizing d sent with
  | nil =>
    rw [List.forall₂_nil_left_iff.mp hs]
    refine ⟨h, hwindow, fun page col _ _ => ?_⟩
    rw [if_neg (by simp)]
    rfl
  | cons x xs ih =>
    obtain ⟨x1, x2⟩ := x
    cases hs with
    | cons hclear hrest =>
    cases hrest with
    | cons hbox hrest =>
    obtain rfl : _ = stream (1024 : BitVec 16) 0x00 := hclear.eq
    obtain ⟨hx, rfl⟩ := BoxSends.eq_drawBox hbox
    obtain ⟨haddr, hwin, hcells⟩ := frame_trail h hx hy hwindow hpages
    obtain ⟨haddr', hwin', hcells'⟩ := ih haddr hwin.ge hrest
    rw [List.flatten_cons, List.flatten_cons, ← List.append_assoc, Ssd1306.receiveAll_append]
    refine ⟨haddr', hwin', fun page col hlo hhi => ?_⟩
    rw [hcells' page col hlo hhi, hcells page col hlo hhi]
    simp only [List.exists_mem_cons_iff]
    by_cases hlater : ∃ x ∈ xs, col = x.1.toNat % 128 ∨ col = x.2.toNat % 128
    · rw [if_pos hlater, if_pos (Or.inr hlater)]
    · rw [if_neg hlater, if_congr (or_iff_left hlater) rfl rfl]

/-- **The trail of an animation.** From a display in which data can be sent, and
whose window does not reach above the lower edge of the boxes: after any number
of frames, with any bytes for the edges, every byte on the pages strictly
between the upper and the lower edge is lit if it is in the column of an edge of
any of the boxes, and otherwise what it was before the first frame. No clear
has taken anything away. -/
theorem animation_trail {d : Ssd1306} (h : d.Addressed) {y1 y2 : U8} (hy : y2.toNat < 64)
    (hwindow : (y2 / 8).toNat ≤ d.window.rowStart) {xs : List (U8 × U8)}
    {sent : List (List Transfer)} (hs : List.Forall₂ Call.Sends (frames y1 y2 xs) sent)
    {page : ℕ} (hlo : (y1 / 8).toNat < page) (hhi : page < (y2 / 8).toNat) (col : ℕ) :
    (d.receiveAll sent.flatten).gddram (page, col)
      = if ∃ x ∈ xs, col = x.1.toNat % 128 ∨ col = x.2.toNat % 128 then 0xFF
        else d.gddram (page, col) :=
  (frames_trail h hy (hlo.trans hhi).le hwindow hs).2.2 page col hlo hhi

/-- What the frames of an animation send, if no right edge is 255. -/
theorem frames_sends (y1 y2 : U8) {xs : List (U8 × U8)} (hx : ∀ x ∈ xs, x.2.toNat < 255) :
    List.Forall₂ Call.Sends (frames y1 y2 xs)
      (xs.flatMap fun x => [I2cUserOled.oledClear, I2cUserOled.oledDrawBox x.1 y1 x.2 y2]) := by
  induction xs with
  | nil => exact .nil
  | cons x xs ih =>
    have hclear : Call.Sends .clear I2cUserOled.oledClear := Loop.ends_below (by decide) _ le_rfl
    have hbox : Call.Sends (.drawBox x.1 y1 x.2 y2) (I2cUserOled.oledDrawBox x.1 y1 x.2 y2) :=
      boxSends_drawBox x.1 y1 y2 (hx x List.mem_cons_self)
    exact .cons hclear (.cons hbox (ih fun y hmem => hx y (List.mem_cons_of_mem _ hmem)))

/-- The boxes of the user program's animation. -/
def mainBoxes : List (U8 × U8) :=
  (List.range 30).map fun k => (I2cUserOled.leftEdge k, I2cUserOled.leftEdge k + 20)

/-- No right edge of it is 255. -/
theorem mainBoxes_lt : ∀ x ∈ mainBoxes, x.2.toNat < 255 := by
  have hedge : ∀ k < 30, (I2cUserOled.leftEdge k + 20).toNat < 255 := by decide
  intro x hmem
  obtain ⟨k, hk, rfl⟩ := List.mem_map.mp hmem
  exact hedge k (List.mem_range.mp hk)

/-- **The user program's own animation** leaves the left edge of its second box
standing. -/
theorem animation_trail_main :
    (((powerOnDisplay fun _ => 0x55).receiveAll I2cUserOled.oledInit).receiveAll
      (mainBoxes.flatMap fun x =>
        [I2cUserOled.oledClear, I2cUserOled.oledDrawBox x.1 20 x.2 40]).flatten).gddram (3, 5)
      = 0xFF := by
  -- the initialisation leaves the window of the lower right corner of its box
  have hinit : ((powerOnDisplay fun _ => 0x55).receiveAll I2cUserOled.oledInit).Addressed
      ∧ ((powerOnDisplay fun _ => 0x55).receiveAll I2cUserOled.oledInit).window
        = windowOf (6, 100) := by
    rw [receiveAll_oledInit]
    obtain ⟨haddr, hwin, -⟩ :=
      box_leaves (addressed_boxInit (1024 : BitVec 16) rfl (placed_powerOnDisplay fun _ => 0x55))
    exact ⟨haddr, hwin⟩
  rw [animation_trail hinit.1 (by decide) (by rw [hinit.2]; decide)
    (frames_sends 20 40 mainBoxes_lt) (show (20 / 8 : U8).toNat < 3 by decide)
    (show 3 < (40 / 8 : U8).toNat by decide), if_pos (by decide)]

end Oled
