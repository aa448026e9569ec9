import EmbeddedDrivers.Loop

/-!
# The graphic display drivers

A 128×64 display on an I²C bus is driven twice in the repository: by a user
program, `i2c_user_oled.c`, and by a kernel module, `oled_i2cdrv.c`. The two
send the same bytes. Each function sends two-byte transfers, a control byte
and a command or a byte of display memory; what it returns, if anything, says
how its transfer went, and no caller looks at it, so a function is the list of
its transfers.

What the pairs have in common is written once (`Oled`), and each program's
functions are that, under their own names (`I2cUserOled`, `OledI2cdrv`).

The lines are drawn by loops whose counter is a byte compared with `<=`, and
such a loop is left only if the counter can pass the bound. They are kept as
the loops they are, run for as many turns as a byte has values and one more;
`drawHLine_halts` and `drawVLine_halts` say when they are left, and
`drawHLine_eq` and `drawVLine_eq` what they send.
-/

namespace Oled

/-- `uint8_t` and `u8`. -/
abbrev U8 := BitVec 8

/-- A transfer: a control byte and another byte. -/
abbrev Transfer := U8 × U8

/-! ## What the two drivers share -/

/-- `OLED_SendCommand`, `oled_send_command`. -/
def sendCommand (cmd : U8) : List Transfer := [(0x00, cmd)]

/-- `OLED_SendData`, `oled_send_data`. -/
def sendData (data : U8) : List Transfer := [(0x40, data)]

/-- `OLED_SetCursor`, `oled_set_cursor`. -/
def setCursor (col page : U8) : List Transfer :=
  sendCommand 0x21 ++ sendCommand col ++ sendCommand 127
    ++ sendCommand 0x22 ++ sendCommand page ++ sendCommand 7

/-- The loop that sends one byte over and over, its counter `w` bits wide. -/
def stream {w : ℕ} (bound : BitVec w) (data : U8) : List Transfer :=
  Loop.trace (Loop.below bound fun _ => sendData data) (bound.toNat + 1) 0

/-- A cursor set and a byte sent, the turn of both line loops. -/
def plot (data : U8) (p : U8 × U8) : List Transfer := setCursor p.2 p.1 ++ sendData data

/-- The loop of `OLED_DrawHLine`, `oled_draw_hline`, over the columns. -/
def hLineBody (x2 y : U8) : Loop.Body U8 Transfer :=
  Loop.upTo x2 fun x => plot ((1 : U8) <<< (y % 8)) (y / 8, x)

/-- The loop of `OLED_DrawVLine`, `oled_draw_vline`, over the pages. -/
def vLineBody (x y2 : U8) : Loop.Body U8 Transfer :=
  Loop.upTo (y2 / 8) fun page => plot 0xFF (page, x)

/-- `OLED_DrawHLine`, `oled_draw_hline`, run for 257 turns. -/
def drawHLine (x1 x2 y : U8) : List Transfer := Loop.trace (hLineBody x2 y) 257 x1

/-- `OLED_DrawVLine`, `oled_draw_vline`, run for 257 turns. -/
def drawVLine (x y1 y2 : U8) : List Transfer := Loop.trace (vLineBody x y2) 257 (y1 / 8)

/-- `OLED_DrawBox`, `oled_draw_box`. -/
def drawBox (x1 y1 x2 y2 : U8) : List Transfer :=
  drawHLine x1 x2 y1 ++ drawHLine x1 x2 y2 ++ drawVLine x1 y1 y2 ++ drawVLine x2 y1 y2

/-- The commands both initialisations begin with: display off, horizontal
addressing, charge pump on, normal display, display on. -/
def initCommands : List Transfer :=
  sendCommand 0xAE ++ sendCommand 0x20 ++ sendCommand 0x00 ++ sendCommand 0x8D
    ++ sendCommand 0x14 ++ sendCommand 0xA6 ++ sendCommand 0xAF

/-! ## What the loops send -/

/-- **The clearing and filling loops** send their byte as often as their bound
says. -/
theorem stream_eq {w : ℕ} {bound : BitVec w} (h : 0 < bound.toNat) (data : U8) :
    stream bound data = List.replicate bound.toNat (0x40, data) := by
  rw [stream, Loop.trace_below h _ le_rfl]
  show (List.range bound.toNat).flatMap (fun _ => [((0x40 : U8), data)]) = _
  rw [← List.map_eq_flatMap, List.map_const', List.length_range]

/-- The numbers a byte counter takes on its way from a bound to another. -/
def counted (lo hi : U8) : List U8 :=
  (List.range' lo.toNat (hi.toNat + 1 - lo.toNat)).map (BitVec.ofNat 8)

theorem mem_counted {lo hi x : U8} : x ∈ counted lo hi ↔ lo ≤ x ∧ x ≤ hi := by
  have hhi := hi.isLt
  rw [counted, List.mem_map, BitVec.le_def, BitVec.le_def]
  constructor
  · rintro ⟨k, hk, rfl⟩
    have hk' := List.mem_range'_1.mp hk
    rw [BitVec.toNat_ofNat, Nat.mod_eq_of_lt (by omega)]
    omega
  · intro h
    exact ⟨x.toNat, List.mem_range'_1.mpr (by omega),
      by rw [BitVec.ofNat_toNat, BitVec.setWidth_eq]⟩

/-- The cells of a horizontal line, by page and column. -/
def hCells (x1 x2 y : U8) : List (U8 × U8) := (counted x1 x2).map fun x => (y / 8, x)

/-- The cells of a vertical line. -/
def vCells (x y1 y2 : U8) : List (U8 × U8) := (counted (y1 / 8) (y2 / 8)).map fun p => (p, x)

/-- A byte loop that can pass its bound is left within 257 turns, having taken
one for each number counted. -/
theorem halts_counted {hi : U8} (hmax : hi.toNat < 255) (out : U8 → List Transfer) (lo : U8) :
    ∃ n ≤ 257, Loop.Halts (Loop.upTo hi out) n lo ((counted lo hi).flatMap out) := by
  have h := Loop.halts_upTo hi out (by omega) lo
  rw [counted, List.flatMap_map]
  exact ⟨_, by omega, h⟩

/-- **A horizontal line is finished** unless its right end is the last value of
a byte, and has then plotted its cells in order. -/
theorem drawHLine_halts {x2 : U8} (hmax : x2.toNat < 255) (x1 y : U8) :
    ∃ n ≤ 257, Loop.Halts (hLineBody x2 y) n x1
      ((hCells x1 x2 y).flatMap (plot ((1 : U8) <<< (y % 8)))) := by
  rw [hCells, List.flatMap_map]
  exact halts_counted hmax _ x1

/-- **A vertical line is finished** whatever its ends are: its loop counts
pages. -/
theorem drawVLine_halts (x y1 y2 : U8) :
    ∃ n ≤ 257, Loop.Halts (vLineBody x y2) n (y1 / 8) ((vCells x y1 y2).flatMap (plot 0xFF)) := by
  -- there are 32 pages in a byte's range of rows
  have hpages : (y2 / 8).toNat < 255 := by
    have hy := y2.isLt
    rw [BitVec.toNat_udiv]
    show y2.toNat / 8 < 255
    omega
  rw [vCells, List.flatMap_map]
  exact halts_counted hpages _ (y1 / 8)

theorem drawHLine_eq {x2 : U8} (hmax : x2.toNat < 255) (x1 y : U8) :
    drawHLine x1 x2 y = (hCells x1 x2 y).flatMap (plot ((1 : U8) <<< (y % 8))) := by
  obtain ⟨n, hn, h⟩ := drawHLine_halts hmax x1 y
  exact Loop.trace_of_halts h hn

theorem drawVLine_eq (x y1 y2 : U8) :
    drawVLine x y1 y2 = (vCells x y1 y2).flatMap (plot 0xFF) := by
  obtain ⟨n, hn, h⟩ := drawVLine_halts x y1 y2
  exact Loop.trace_of_halts h hn

end Oled

/-! ## The user program -/

namespace I2cUserOled

open Oled (U8 Transfer)

/-- `OLED_SendCommand`. -/
def oledSendCommand (cmd : U8) : List Transfer := Oled.sendCommand cmd

/-- `OLED_SendData`. -/
def oledSendData (data : U8) : List Transfer := Oled.sendData data

/-- `OLED_Clear`, whose counter is a `uint16_t`. -/
def oledClear : List Transfer := Oled.stream (1024 : BitVec 16) 0x00

/-- `OLED_Fill`, likewise. -/
def oledFill : List Transfer := Oled.stream (1024 : BitVec 16) 0xFF

/-- `OLED_SetCursor`. -/
def oledSetCursor (col page : U8) : List Transfer := Oled.setCursor col page

/-- `OLED_DrawHLine`. -/
def oledDrawHLine (x1 x2 y : U8) : List Transfer := Oled.drawHLine x1 x2 y

/-- `OLED_DrawVLine`. -/
def oledDrawVLine (x y1 y2 : U8) : List Transfer := Oled.drawVLine x y1 y2

/-- `OLED_DrawBox`. -/
def oledDrawBox (x1 y1 x2 y2 : U8) : List Transfer := Oled.drawBox x1 y1 x2 y2

/-- `OLED_Init`. -/
def oledInit : List Transfer := Oled.initCommands ++ oledClear ++ oledDrawBox 27 14 100 50

end I2cUserOled

/-! ## The kernel module -/

namespace OledI2cdrv

open Oled (U8 Transfer)

/-- `oled_send_command`. -/
def oledSendCommand (cmd : U8) : List Transfer := Oled.sendCommand cmd

/-- `oled_send_data`. -/
def oledSendData (data : U8) : List Transfer := Oled.sendData data

/-- `oled_set_cursor`. -/
def oledSetCursor (col page : U8) : List Transfer := Oled.setCursor col page

/-- `oled_draw_hline`. -/
def oledDrawHline (x1 x2 y : U8) : List Transfer := Oled.drawHLine x1 x2 y

/-- `oled_draw_vline`. -/
def oledDrawVline (x y1 y2 : U8) : List Transfer := Oled.drawVLine x y1 y2

/-- `oled_draw_box`. -/
def oledDrawBox (x1 y1 x2 y2 : U8) : List Transfer := Oled.drawBox x1 y1 x2 y2

/-- `oled_clear`, whose counter is an `int` that is never negative. -/
def oledClear : List Transfer := Oled.stream (1024 : BitVec 32) 0x00

/-- `oled_init_sequence`. -/
def oledInitSequence : List Transfer :=
  Oled.initCommands ++ oledClear ++ oledDrawBox 27 14 100 50

end OledI2cdrv
