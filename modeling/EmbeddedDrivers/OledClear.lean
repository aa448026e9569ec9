import EmbeddedDrivers.OledDrawing

/-!
# Clearing the graphic display

`OLED_Clear`, `OLED_Fill` and `oled_clear` send 1024 bytes and set no cursor.
They therefore cover the window that is there, several times over if it is
small, and not the display: every cursor set since power-on has left a window
that reaches from the cursor to the last page and column, and the cells before
it are not written.

`clear_fill_iff` says what that comes to, after any drawing: the display is
cleared or filled as a whole exactly when the cells outside the window already
were. The window the initialisation itself leaves is the lower right corner of
its box, and so the next clear leaves most of the box standing – in the user
program at once (`not_forall_cleared`), in the kernel module when it is probed a
second time, which is the last part of `clear_fill_iff`.
-/

namespace Oled

/-! ## Drawing in the user program -/

/-- A column, a row and a page of the display. -/
abbrev Column := {x : U8 // x.toNat < 128}
abbrev Row := {y : U8 // y.toNat < 64}
abbrev Page := {p : U8 // p.toNat < 8}

/-- **A drawing operation** with its coordinates inside the display. -/
inductive Drawing
  | setCursor (col : Column) (page : Page)
  | drawHLine (x1 x2 : Column) (y : Row)
  | drawVLine (x : Column) (y1 y2 : Row)
  | drawBox (x1 : Column) (y1 : Row) (x2 : Column) (y2 : Row)
  | clear
  | fill

/-- The transfers of an operation. -/
def Drawing.transfers : Drawing → List Transfer
  | .setCursor col page => I2cUserOled.oledSetCursor col page
  | .drawHLine x1 x2 y => I2cUserOled.oledDrawHLine x1 x2 y
  | .drawVLine x y1 y2 => I2cUserOled.oledDrawVLine x y1 y2
  | .drawBox x1 y1 x2 y2 => I2cUserOled.oledDrawBox x1 y1 x2 y2
  | .clear => I2cUserOled.oledClear
  | .fill => I2cUserOled.oledFill

/-- **Every operation leaves the addressing in order.** -/
theorem addressed_drawing {d : Ssd1306} (h : d.Addressed) (op : Drawing) :
    (d.receiveAll op.transfers).Addressed := by
  cases op with
  | setCursor col page => exact addressed_setCursor h (page.1, col.1)
  | drawHLine x1 x2 y => exact (receiveAll_drawHLine h (x2.2.trans (by omega)) _ _).1
  | drawVLine x y1 y2 => exact (receiveAll_drawVLine h _ _ _).1
  | drawBox x1 y1 x2 y2 => exact (receiveAll_drawBox h (x2.2.trans (by omega)) _ _ _).1
  | clear => exact (receiveAll_stream_fills 1024 rfl h 0x00).1
  | fill => exact (receiveAll_stream_fills 1024 rfl h 0xFF).1

theorem addressed_drawings {d : Ssd1306} (h : d.Addressed) (ops : List Drawing) :
    (d.receiveAll (ops.flatMap Drawing.transfers)).Addressed := by
  induction ops generalizing d with
  | nil => exact h
  | cons op ops ih =>
    rw [List.flatMap_cons, Ssd1306.receiveAll_append]
    exact ih (addressed_drawing h op)

/-- The display after the user program's initialisation and what it has
drawn. -/
def afterDrawings (d : Ssd1306) (ops : List Drawing) : Ssd1306 :=
  d.receiveAll (I2cUserOled.oledInit ++ ops.flatMap Drawing.transfers)

/-- The display when the kernel module, probed `n` times before, comes to
`oled_clear` in its next probe. -/
def beforeClear (d : Ssd1306) (n : ℕ) : Ssd1306 :=
  d.receiveAll ((List.replicate n OledI2cdrv.oledInitSequence).flatten ++ initCommands)

/-- Both initialisations are the commands and a clearing loop, and the box. -/
theorem receiveAll_oledInit (d : Ssd1306) :
    d.receiveAll I2cUserOled.oledInit
      = (d.receiveAll (initCommands ++ stream (1024 : BitVec 16) 0x00)).receiveAll
          (drawBox 27 14 100 50) := by
  rw [I2cUserOled.oledInit, I2cUserOled.oledClear, I2cUserOled.oledDrawBox,
    Ssd1306.receiveAll_append]

theorem receiveAll_oledInitSequence (d : Ssd1306) :
    d.receiveAll OledI2cdrv.oledInitSequence
      = (d.receiveAll (initCommands ++ stream (1024 : BitVec 32) 0x00)).receiveAll
          (drawBox 27 14 100 50) := by
  rw [OledI2cdrv.oledInitSequence, OledI2cdrv.oledClear, OledI2cdrv.oledDrawBox,
    Ssd1306.receiveAll_append]

theorem addressed_boxInit {w : ℕ} (bound : BitVec w) (hb : bound.toNat = 1024) {d : Ssd1306}
    (h : d.Placed) : (d.receiveAll (initCommands ++ stream bound 0x00)).Addressed := by
  rw [Ssd1306.receiveAll_append]
  exact (receiveAll_stream_fills bound hb (addressed_initCommands h) 0x00).1

theorem addressed_afterDrawings {d : Ssd1306} (h : d.Placed) (ops : List Drawing) :
    (afterDrawings d ops).Addressed := by
  rw [afterDrawings, Ssd1306.receiveAll_append]
  refine addressed_drawings ?_ ops
  rw [receiveAll_oledInit]
  exact (receiveAll_drawBox (addressed_boxInit 1024 rfl h) (by decide) 27 14 50).1

/-- **What the box leaves**: the window of its lower right corner, and its left
edge outside. -/
theorem box_leaves {d : Ssd1306} (h : d.Addressed) :
    (d.receiveAll (drawBox 27 14 100 50)).Addressed
      ∧ (d.receiveAll (drawBox 27 14 100 50)).window = windowOf (6, 100)
      ∧ (d.receiveAll (drawBox 27 14 100 50)).gddram (1, 27) = 0xFF := by
  obtain ⟨haddr, hwindow, hgddram⟩ :=
    receiveAll_drawBox h (show (100 : U8).toNat < 255 by decide) 27 14 50
  refine ⟨haddr, hwindow (6, 100) (by decide), ?_⟩
  rw [hgddram, if_neg (by decide), if_pos (by decide)]

/-- Every probe leaves the display placed, and every one but none leaves the
box. -/
theorem probes_leave {d : Ssd1306} (h : d.Placed) (n : ℕ) :
    (d.receiveAll (List.replicate n OledI2cdrv.oledInitSequence).flatten).Placed
      ∧ (0 < n →
        (d.receiveAll (List.replicate n OledI2cdrv.oledInitSequence).flatten).window
            = windowOf (6, 100)
          ∧ (d.receiveAll (List.replicate n OledI2cdrv.oledInitSequence).flatten).gddram (1, 27)
            = 0xFF) := by
  induction n with
  | zero => exact ⟨h, fun h0 => absurd h0 (Nat.lt_irrefl 0)⟩
  | succ n ih =>
    rw [List.replicate_succ', List.flatten_append, List.flatten_singleton,
      Ssd1306.receiveAll_append]
    rw [receiveAll_oledInitSequence]
    obtain ⟨haddr, hwindow, hgddram⟩ :=
      box_leaves (addressed_boxInit (1024 : BitVec 32) (by simp) ih.1)
    exact ⟨haddr.toPlaced, fun _ => ⟨hwindow, hgddram⟩⟩

/-! ## The whole display -/

/-- Every byte of the display memory has a value. -/
def AllCells (d : Ssd1306) (v : U8) : Prop := ∀ page < 8, ∀ col < 128, d.gddram (page, col) = v

/-- Every byte outside the window does. -/
def OutsideIs (d : Ssd1306) (v : U8) : Prop :=
  ∀ page < 8, ∀ col < 128, ¬ d.window.Contains (page, col) → d.gddram (page, col) = v

/-- **A loop of 1024 bytes** gives the whole display its value exactly when the
cells outside the window have it already. -/
theorem allCells_stream_iff {w : ℕ} (bound : BitVec w) (hb : bound.toNat = 1024) {d : Ssd1306}
    (h : d.Addressed) (v : U8) :
    AllCells (d.receiveAll (stream bound v)) v ↔ OutsideIs d v := by
  obtain ⟨-, -, hgddram⟩ := receiveAll_stream_fills bound hb h v
  unfold AllCells OutsideIs
  refine forall₄_congr (fun page _ col _ => ?_)
  rw [hgddram]
  by_cases hin : d.window.Contains (page, col)
  · rw [if_pos hin]
    exact iff_of_true rfl (fun hout => absurd hin hout)
  · rw [if_neg hin]
    exact ⟨fun hv _ => hv, fun hv => hv hin⟩

theorem not_outsideIs_of_box {d : Ssd1306} (hwindow : d.window = windowOf (6, 100))
    (hleft : d.gddram (1, 27) = 0xFF) : ¬ OutsideIs d 0x00 := by
  intro hout
  have hzero := hout 1 (by omega) 27 (by omega) (by rw [hwindow]; decide)
  rw [hleft] at hzero
  exact absurd hzero (by decide)

/-- **When clearing and filling cover the display.** On a display found between
two commands: after the user program's initialisation and any drawing inside
the display, clearing or filling gives every one of the 1024 bytes its value
exactly when the bytes outside the window already have it; so does the
clearing in the kernel module's initialisation, after any number of earlier
probes; and after at least one it never does. -/
theorem clear_fill_iff (d : Ssd1306) (hd : d.Placed) :
    (∀ ops : List Drawing,
      (AllCells ((afterDrawings d ops).receiveAll I2cUserOled.oledClear) 0x00
          ↔ OutsideIs (afterDrawings d ops) 0x00)
        ∧ (AllCells ((afterDrawings d ops).receiveAll I2cUserOled.oledFill) 0xFF
          ↔ OutsideIs (afterDrawings d ops) 0xFF))
      ∧ (∀ n, AllCells ((beforeClear d n).receiveAll OledI2cdrv.oledClear) 0x00
          ↔ OutsideIs (beforeClear d n) 0x00)
      ∧ ∀ n, ¬ AllCells ((beforeClear d (n + 1)).receiveAll OledI2cdrv.oledClear) 0x00 := by
  have hbefore : ∀ n, (beforeClear d n).Addressed := by
    intro n
    rw [beforeClear, Ssd1306.receiveAll_append]
    exact addressed_initCommands (probes_leave hd n).1
  rw [I2cUserOled.oledClear, I2cUserOled.oledFill, OledI2cdrv.oledClear]
  refine ⟨fun ops => ?_, fun n => allCells_stream_iff 1024 (by simp) (hbefore n) 0x00,
    fun n => ?_⟩
  · have h := addressed_afterDrawings hd ops
    exact ⟨allCells_stream_iff 1024 rfl h 0x00, allCells_stream_iff 1024 rfl h 0xFF⟩
  · rw [allCells_stream_iff 1024 (by simp) (hbefore (n + 1)) 0x00]
    -- the window is that of the last box, whose left edge is outside
    obtain ⟨hplaced, hleave⟩ := probes_leave hd (n + 1)
    obtain ⟨hwindow, hleft⟩ := hleave (Nat.succ_pos n)
    rw [beforeClear, Ssd1306.receiveAll_append]
    generalize d.receiveAll (List.replicate (n + 1) OledI2cdrv.oledInitSequence).flatten = e at *
    rw [receiveAll_initCommands hplaced.boundary]
    exact not_outsideIs_of_box hwindow hleft

/-- The display out of power-on, its memory unknown. -/
def powerOnDisplay (mem : Raster.Cell → U8) : Ssd1306 where
  pending := []
  mode := .page
  window := ⟨0, 7, 0, 127⟩
  position := (0, 0)
  gddram := mem

theorem placed_powerOnDisplay (mem : Raster.Cell → U8) : (powerOnDisplay mem).Placed :=
  ⟨rfl, ⟨⟨le_rfl, Nat.zero_le 7⟩, le_rfl, Nat.zero_le 127⟩, show 7 < 8 by omega,
    show 127 < 128 by omega⟩

/-- With the cursor at the origin everything is cleared. -/
theorem clear_fill_iff_origin :
    AllCells ((afterDrawings (powerOnDisplay fun _ => 0x55)
      [.setCursor ⟨0, by decide⟩ ⟨0, by decide⟩]).receiveAll I2cUserOled.oledClear) 0x00 := by
  have hplaced := placed_powerOnDisplay fun _ => 0x55
  refine ((clear_fill_iff (powerOnDisplay fun _ => 0x55) hplaced).1 _).1.mpr ?_
  have hinit := addressed_afterDrawings hplaced []
  have hwindow : (afterDrawings (powerOnDisplay fun _ => 0x55)
      [.setCursor ⟨0, by decide⟩ ⟨0, by decide⟩]).window = windowOf (0, 0) := by
    rw [afterDrawings, Ssd1306.receiveAll_append, List.flatMap_singleton]
    rw [afterDrawings, List.flatMap_nil, List.append_nil] at hinit
    rw [show Drawing.transfers _ = setCursor 0 0 from rfl,
      receiveAll_setCursor hinit.boundary (0, 0)]
  intro page hpage col hcol hout
  rw [hwindow] at hout
  exact absurd ⟨⟨Nat.zero_le page, Nat.le_of_lt_succ hpage⟩, Nat.zero_le col,
    Nat.le_of_lt_succ hcol⟩ hout

/-- **Not after every drawing**: right after the initialisation, clearing
leaves the left edge of its box. -/
theorem not_forall_cleared :
    ¬ ∀ (d : Ssd1306) (ops : List Drawing), d.Placed →
        AllCells ((afterDrawings d ops).receiveAll I2cUserOled.oledClear) 0x00 := by
  intro h
  have hplaced := placed_powerOnDisplay fun _ => 0x00
  have hall := h (powerOnDisplay fun _ => 0x00) [] hplaced
  rw [I2cUserOled.oledClear,
    allCells_stream_iff 1024 rfl (addressed_afterDrawings hplaced []), afterDrawings,
    List.flatMap_nil, List.append_nil, receiveAll_oledInit] at hall
  obtain ⟨-, hwindow, hleft⟩ := box_leaves (addressed_boxInit (1024 : BitVec 16) rfl hplaced)
  exact not_outsideIs_of_box hwindow hleft hall

end Oled
