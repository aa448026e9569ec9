import EmbeddedDrivers.Emission
import EmbeddedDrivers.OledWindows

/-!
# Transfers that fail

`EmbeddedDrivers.OledDriver` takes every transfer for made and forgets its
result. This module is about the results. In the kernel module each transfer is
one `i2c_transfer`, which returns the number of messages it has sent, here one,
or an error; and the functions are written again, as computations on the
transfers made so far, with the results that the two senders look at and their
callers do not.

The senders turn a result into 0 or an error. Everything above them drops
it: the drawing functions return nothing, and `oled_probe` returns 0. So the
transfers made are those of `EmbeddedDrivers.OledDriver`, whatever their results
are (`probe_run`), and a lost one is never reported (`probe_reports_iff`).

It is not a matter of one wrong pixel. A display that misses a parameter takes
the next command for it, and `probe_unreported` follows this to the end of a
probe that has returned 0.
-/

namespace OledI2cdrv.Bus

open Oled (U8 Transfer)

/-- `EIO`. -/
def EIO : ℤ := 5

section Functions

-- what the calls of `i2c_transfer` return, in their order
variable (results : ℕ → ℤ)

/-- `i2c_transfer`, for the one message both senders build. -/
def i2cTransfer (msg : Transfer) : StateM (List Transfer) ℤ := Emission.emit results msg

/-- `oled_send_command`. -/
def oledSendCommand (cmd : U8) : StateM (List Transfer) ℤ := do
  let ret ← i2cTransfer results (0x00, cmd)
  if ret = 1 then pure 0 else pure (- EIO)

/-- `oled_send_data`. -/
def oledSendData (data : U8) : StateM (List Transfer) ℤ := do
  let ret ← i2cTransfer results (0x40, data)
  if ret = 1 then pure 0 else pure (- EIO)

/-- `oled_set_cursor`. -/
def oledSetCursor (col page : U8) : StateM (List Transfer) Unit := do
  let _ ← oledSendCommand results 0x21
  let _ ← oledSendCommand results col
  let _ ← oledSendCommand results 127
  let _ ← oledSendCommand results 0x22
  let _ ← oledSendCommand results page
  let _ ← oledSendCommand results 7

/-- `oled_draw_hline`, run for 257 turns. -/
def oledDrawHline (x1 x2 y : U8) : StateM (List Transfer) Unit :=
  Emission.loopM (Emission.upToM x2 fun x => do
    oledSetCursor results x (y / 8)
    let _ ← oledSendData results ((1 : U8) <<< (y % 8))) 257 x1

/-- `oled_draw_vline`, run for 257 turns. -/
def oledDrawVline (x y1 y2 : U8) : StateM (List Transfer) Unit :=
  Emission.loopM (Emission.upToM (y2 / 8) fun page => do
    oledSetCursor results x page
    let _ ← oledSendData results 0xFF) 257 (y1 / 8)

/-- `oled_draw_box`. -/
def oledDrawBox (x1 y1 x2 y2 : U8) : StateM (List Transfer) Unit := do
  oledDrawHline results x1 x2 y1
  oledDrawHline results x1 x2 y2
  oledDrawVline results x1 y1 y2
  oledDrawVline results x2 y1 y2

/-- `oled_clear`, run for 1025 turns. -/
def oledClear : StateM (List Transfer) Unit :=
  Emission.loopM (Emission.belowM (1024 : BitVec 32) fun _ => do
    let _ ← oledSendData results 0x00) 1025 0

/-- `oled_init_sequence`. -/
def oledInitSequence : StateM (List Transfer) Unit := do
  let _ ← oledSendCommand results 0xAE
  let _ ← oledSendCommand results 0x20
  let _ ← oledSendCommand results 0x00
  let _ ← oledSendCommand results 0x8D
  let _ ← oledSendCommand results 0x14
  let _ ← oledSendCommand results 0xA6
  let _ ← oledSendCommand results 0xAF
  oledClear results
  oledDrawBox results 27 14 100 50

/-- `oled_probe`. -/
def oledProbe : StateM (List Transfer) ℤ := do
  oledInitSequence results
  pure 0

end Functions

/-! ## The transfers do not depend on their results -/

variable (results : ℕ → ℤ)

/-- A result is turned into another one, and nothing else is sent. -/
theorem emits_checked (msg : Transfer) :
    Emission.Emits (do
        let ret ← i2cTransfer results msg
        if ret = 1 then pure 0 else pure (- EIO) : StateM (List Transfer) ℤ) [msg] := by
  refine (Emission.emits_emit results msg).bind (fun ret => ?_)
  split
  · exact Emission.emits_pure 0
  · exact Emission.emits_pure (- EIO)

theorem emits_oledSendCommand (cmd : U8) :
    Emission.Emits (oledSendCommand results cmd) (OledI2cdrv.oledSendCommand cmd) :=
  emits_checked results (0x00, cmd)

theorem emits_oledSendData (data : U8) :
    Emission.Emits (oledSendData results data) (OledI2cdrv.oledSendData data) :=
  emits_checked results (0x40, data)

theorem emits_oledSetCursor (col page : U8) :
    Emission.Emits (oledSetCursor results col page) (OledI2cdrv.oledSetCursor col page) := by
  have hsend := emits_oledSendCommand results
  exact (hsend 0x21).bind fun _ => (hsend col).bind fun _ => (hsend 127).bind fun _ =>
    (hsend 0x22).bind fun _ => (hsend page).bind fun _ => (hsend 7).bind fun _ =>
    Emission.emits_pure ()

/-- The turn of the line loops. -/
theorem emits_plot (data : U8) (p : U8 × U8) :
    Emission.Emits (do
        oledSetCursor results p.2 p.1
        let _ ← oledSendData results data) (Oled.plot data p) :=
  (emits_oledSetCursor results p.2 p.1).bind fun _ =>
    (emits_oledSendData results data).bind fun _ => Emission.emits_pure ()

theorem emits_oledDrawHline (x1 x2 y : U8) :
    Emission.Emits (oledDrawHline results x1 x2 y) (OledI2cdrv.oledDrawHline x1 x2 y) :=
  Emission.loopM_emits (Emission.follows_upToM x2 fun x => emits_plot results _ (y / 8, x)) 257 x1

theorem emits_oledDrawVline (x y1 y2 : U8) :
    Emission.Emits (oledDrawVline results x y1 y2) (OledI2cdrv.oledDrawVline x y1 y2) :=
  Emission.loopM_emits
    (Emission.follows_upToM (y2 / 8) fun page => emits_plot results 0xFF (page, x)) 257 (y1 / 8)

theorem emits_oledDrawBox (x1 y1 x2 y2 : U8) :
    Emission.Emits (oledDrawBox results x1 y1 x2 y2) (OledI2cdrv.oledDrawBox x1 y1 x2 y2) := by
  rw [OledI2cdrv.oledDrawBox, Oled.drawBox, List.append_assoc, List.append_assoc]
  exact (emits_oledDrawHline results x1 x2 y1).bind fun _ =>
    (emits_oledDrawHline results x1 x2 y2).bind fun _ =>
    (emits_oledDrawVline results x1 y1 y2).bind fun _ => emits_oledDrawVline results x2 y1 y2

theorem emits_oledClear : Emission.Emits (oledClear results) OledI2cdrv.oledClear :=
  Emission.loopM_emits (Emission.follows_belowM (1024 : BitVec 32) fun _ =>
    (emits_oledSendData results 0x00).bind fun _ => Emission.emits_pure ()) 1025 0

theorem emits_oledInitSequence :
    Emission.Emits (oledInitSequence results) OledI2cdrv.oledInitSequence := by
  have hsend := emits_oledSendCommand results
  rw [OledI2cdrv.oledInitSequence, List.append_assoc]
  exact (hsend 0xAE).bind fun _ => (hsend 0x20).bind fun _ => (hsend 0x00).bind fun _ =>
    (hsend 0x8D).bind fun _ => (hsend 0x14).bind fun _ => (hsend 0xA6).bind fun _ =>
    (hsend 0xAF).bind fun _ => (emits_oledClear results).bind fun _ =>
    emits_oledDrawBox results 27 14 100 50

/-- **A probe** makes the transfers of its initialisation and returns 0, whatever
they return. -/
theorem probe_run : (oledProbe results).run [] = (0, OledI2cdrv.oledInitSequence) :=
  (emits_oledInitSequence results).run_then 0 []

/-! ## What is reported -/

/-- **Lost transfers are reported**: a probe returns 0 only if each of its
transfers has sent its message, and a negative error otherwise. -/
structure LossesReported (ret : ℤ) (made : List Transfer) : Prop where
  success : ret = 0 → ∀ k < made.length, results k = 1
  error : (∃ k < made.length, results k ≠ 1) → ret < 0

/-- A plot is seven transfers. -/
theorem length_plots (data : U8) (ps : List (U8 × U8)) :
    (ps.flatMap (Oled.plot data)).length = 7 * ps.length := by
  induction ps with
  | nil => rfl
  | cons p ps ih =>
    have hplot : (Oled.plot data p).length = 7 := rfl
    rw [List.flatMap_cons, List.length_append, ih, hplot, List.length_cons, Nat.mul_succ,
      Nat.add_comm]

/-- **The transfers of a probe**: seven for the commands, 1024 for the clear, and
seven for each column of the box's two horizontal lines and each page of its two
vertical ones. -/
theorem length_oledInitSequence : OledI2cdrv.oledInitSequence.length = 2151 := by
  have hmax : (100 : U8).toNat < 255 := by decide
  have hbox : OledI2cdrv.oledDrawBox 27 14 100 50 = Oled.drawBox 27 14 100 50 := rfl
  have hclear : OledI2cdrv.oledClear.length = 1024 := by
    rw [OledI2cdrv.oledClear, Oled.stream_eq (by decide), List.length_replicate]
    rfl
  rw [OledI2cdrv.oledInitSequence, List.length_append, List.length_append, hclear, hbox,
    Oled.drawBox, Oled.drawHLine_eq hmax, Oled.drawHLine_eq hmax, Oled.drawVLine_eq,
    Oled.drawVLine_eq, List.length_append, List.length_append, List.length_append, length_plots,
    length_plots, length_plots, length_plots]
  simp only [Oled.hCells, Oled.vCells, List.length_map, Oled.length_counted]
  decide

/-- **When a probe reports its losses.** Its transfers are those of the
initialisation, 2151 of them, whatever their results are, and it reports the
lost ones exactly if none is lost. -/
theorem probe_reports_iff :
    ((oledProbe results).run []).2 = OledI2cdrv.oledInitSequence
      ∧ (LossesReported results ((oledProbe results).run []).1 ((oledProbe results).run []).2
        ↔ ∀ k < 2151, results k = 1) := by
  rw [probe_run]
  refine ⟨rfl, fun h => ?_, fun h => ⟨fun _ => ?_, ?_⟩⟩
  · have hall := h.success rfl
    rwa [length_oledInitSequence] at hall
  · rwa [length_oledInitSequence]
  · rintro ⟨k, hk, hne⟩
    rw [length_oledInitSequence] at hk
    exact absurd (h k hk) hne

/-- **Not for all results**: one that says an error is enough. -/
theorem not_forall_probe_reports :
    ¬ ∀ results : ℕ → ℤ,
      LossesReported results ((oledProbe results).run []).1 ((oledProbe results).run []).2 := by
  intro h
  have hlost := h fun k => if k = 2 then - EIO else 1
  rw [probe_run] at hlost
  have hk : 2 < OledI2cdrv.oledInitSequence.length := by
    rw [length_oledInitSequence]
    decide
  exact absurd (hlost.success rfl 2 hk) (by decide)

/-! ## What a lost parameter does -/

/-- The transfers that reach the display, from the one with this number on. -/
def delivered : ℕ → List Transfer → List Transfer
  | _, [] => []
  | k, t :: ts => if results k = 1 then t :: delivered (k + 1) ts else delivered (k + 1) ts

/-- All of them do if none is lost. -/
theorem delivered_eq_self {k : ℕ} (h : ∀ j, k ≤ j → results j = 1) (ts : List Transfer) :
    delivered results k ts = ts := by
  induction ts generalizing k with
  | nil => rfl
  | cons t ts ih => rw [delivered, if_pos (h k le_rfl), ih fun j hj => h j (by omega)]

/-- **A run of plots** keeps the mode of any display between two commands. -/
theorem mode_plots {d : Ssd1306} (h : d.AtBoundary) (qs : List ((U8 × U8) × U8)) :
    (d.receiveAll (qs.flatMap fun q => Oled.plot q.2 q.1)).mode = d.mode := by
  induction qs generalizing d with
  | nil => rfl
  | cons q qs ih =>
    have hplot : d.receiveAll (Oled.plot q.2 q.1)
        = ({ d with window := Oled.windowOf q.1, position := Oled.cellOf q.1 } : Ssd1306).data
            q.2 := by
      rw [Oled.plot, Ssd1306.receiveAll_append, Oled.receiveAll_sendData,
        Oled.receiveAll_setCursor h]
    rw [List.flatMap_cons, Ssd1306.receiveAll_append, hplot]
    exact ih h

/-- So does a run of data bytes, and the display stays between two commands. -/
theorem boundary_mode_data (d : Ssd1306) (vs : List U8) :
    ((vs.foldl Ssd1306.data d).AtBoundary ↔ d.AtBoundary)
      ∧ (vs.foldl Ssd1306.data d).mode = d.mode := by
  induction vs generalizing d with
  | nil => exact ⟨Iff.rfl, rfl⟩
  | cons v vs ih => exact ih (d.data v)

/-- The commands of the initialisation without the parameter of the second, as the
display reads them: the third is taken for it. -/
theorem receiveAll_misread {d : Ssd1306} (hd : d.AtBoundary) :
    d.receiveAll
        [(0x00, 0xAE), (0x00, 0x20), (0x00, 0x8D), (0x00, 0x14), (0x00, 0xA6), (0x00, 0xAF)]
      = { d with mode := .vertical } := by
  have hmode : d.mode.select 0x8D = .vertical := rfl
  show d.receiveAll (Oled.sendCommand 0xAE ++ Oled.sendCommand 0x20 ++ Oled.sendCommand 0x8D
    ++ Oled.sendCommand 0x14 ++ Oled.sendCommand 0xA6 ++ Oled.sendCommand 0xAF) = _
  simp only [Ssd1306.receiveAll_append, Oled.receiveAll_sendCommand]
  rw [Ssd1306.command_single hd rfl, Ssd1306.command_mode hd, hmode,
    Ssd1306.command_single (d := { d with mode := .vertical }) hd rfl,
    Ssd1306.command_single (d := { d with mode := .vertical }) hd rfl,
    Ssd1306.command_single (d := { d with mode := .vertical }) hd rfl]

/-- **A probe that has lost one parameter**, that of the addressing mode, returns
0, and has left the display in another mode: the next command was read as the
parameter. -/
theorem probe_unreported {d : Ssd1306} (hd : d.AtBoundary) (hlost : results 2 ≠ 1)
    (hrest : ∀ k ≠ 2, results k = 1) :
    ((oledProbe results).run []).1 = 0
      ∧ (d.receiveAll (delivered results 0 ((oledProbe results).run []).2)).mode = .vertical := by
  have hmax : (100 : U8).toNat < 255 := by decide
  have hsplit : OledI2cdrv.oledInitSequence = (0x00, 0xAE) :: (0x00, 0x20) :: (0x00, 0x00)
      :: ([(0x00, 0x8D), (0x00, 0x14), (0x00, 0xA6), (0x00, 0xAF)]
        ++ (OledI2cdrv.oledClear ++ Oled.drawBox 27 14 100 50)) := by
    rw [OledI2cdrv.oledInitSequence, List.append_assoc]
    rfl
  have hdelivered : delivered results 0 OledI2cdrv.oledInitSequence
      = [(0x00, 0xAE), (0x00, 0x20), (0x00, 0x8D), (0x00, 0x14), (0x00, 0xA6), (0x00, 0xAF)]
        ++ (OledI2cdrv.oledClear ++ Oled.drawBox 27 14 100 50) := by
    rw [hsplit, delivered, if_pos (hrest 0 (by decide)), delivered, if_pos (hrest 1 (by decide)),
      delivered, if_neg hlost, delivered_eq_self results fun j hj => hrest j (by omega)]
    rfl
  rw [probe_run]
  refine ⟨rfl, ?_⟩
  -- the clear and the box go on from the display left so, and keep its mode
  show (d.receiveAll (delivered results 0 OledI2cdrv.oledInitSequence)).mode = _
  rw [hdelivered, Ssd1306.receiveAll_append, Ssd1306.receiveAll_append, receiveAll_misread hd,
    OledI2cdrv.oledClear, Oled.receiveAll_stream _ (by decide), Oled.drawBox_eq _ _ _ hmax]
  obtain ⟨hboundary, hmode⟩ :=
    boundary_mode_data { d with mode := .vertical } (List.replicate (1024 : BitVec 32).toNat 0x00)
  exact (mode_plots (hboundary.mpr hd) _).trans hmode

end OledI2cdrv.Bus
