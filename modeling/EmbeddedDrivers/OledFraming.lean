import EmbeddedDrivers.OledClear

/-!
# Framing and placement on the graphic display

Commands, their parameters and the bytes of the display memory go to the
display over one channel, and the display tells a command from a parameter by
what came before. A host that sent one byte too few would from then on be
misread. This module shows that the two drivers never are: whatever they draw,
every data byte finds the display between two commands, and every call leaves
it there.

Where a data byte goes depends in turn on the window and the position the
display has been left with. A clear relies on these; a line does not, since
it sets the cursor before each of its bytes. The bytes of a line are stored
in the cells its loop goes through, after any calls at all (`framing`).

The argument asks less of the display than that of `EmbeddedDrivers.OledClear`:
not that its position lies in its window, only that it is in step.
-/

namespace Oled

/-! ## The stores of the lines -/

/-- The stores of `OLED_DrawHLine`, one for each column its loop goes through. -/
def hStores (x1 x2 y : U8) : List (Raster.Cell × U8) :=
  (counted x1 x2).map fun x => (((y / 8).toNat, x.toNat), (1 : U8) <<< (y % 8))

/-- The stores of `OLED_DrawVLine`, one for each page its loop goes through. -/
def vStores (x y1 y2 : U8) : List (Raster.Cell × U8) :=
  (counted (y1 / 8) (y2 / 8)).map fun page => ((page.toNat, x.toNat), 0xFF)

/-- Inside the display a byte is stored where its cursor says. -/
theorem cellOf_eq {p : U8 × U8} (hpage : p.1.toNat < 8) (hcol : p.2.toNat < 128) :
    cellOf p = (p.1.toNat, p.2.toNat) := by
  rw [cellOf, Nat.mod_eq_of_lt hpage, Nat.mod_eq_of_lt hcol]

theorem toNat_div_eight (y : U8) : (y / 8).toNat = y.toNat / 8 := BitVec.toNat_udiv

theorem hCells_cellOf (x1 : U8) {x2 y : U8} (hx : x2.toNat < 128) (hy : y.toNat < 64) :
    (hCells x1 x2 y).map (fun p => (cellOf p, (1 : U8) <<< (y % 8))) = hStores x1 x2 y := by
  rw [hCells, hStores, List.map_map]
  refine List.map_congr_left (fun x hmem => ?_)
  have hle := (mem_counted.mp hmem).2
  rw [BitVec.le_def] at hle
  show (cellOf (y / 8, x), _) = _
  rw [cellOf_eq (by rw [toNat_div_eight]; omega) (by dsimp only; omega)]

theorem vCells_cellOf {x : U8} (y1 : U8) {y2 : U8} (hx : x.toNat < 128) (hy : y2.toNat < 64) :
    (vCells x y1 y2).map (fun p => (cellOf p, (0xFF : U8))) = vStores x y1 y2 := by
  rw [vCells, vStores, List.map_map]
  refine List.map_congr_left (fun page hmem => ?_)
  have hle := (mem_counted.mp hmem).2
  rw [BitVec.le_def, toNat_div_eight] at hle
  show (cellOf (page, x), _) = _
  rw [cellOf_eq (by dsimp only; omega) hx]

/-- **A horizontal line.** -/
theorem drawHLine_draws {d : Ssd1306} (h : d.InStep) (x1 : U8) {x2 y : U8}
    (hx : x2.toNat < 128) (hy : y.toNat < 64) : Draws d (drawHLine x1 x2 y) (hStores x1 x2 y) := by
  rw [drawHLine_eq (by omega), ← hCells_cellOf x1 hx hy]
  exact plots_draws h _ _

/-- **A vertical line.** -/
theorem drawVLine_draws {d : Ssd1306} (h : d.InStep) {x : U8} (y1 : U8) {y2 : U8}
    (hx : x.toNat < 128) (hy : y2.toNat < 64) : Draws d (drawVLine x y1 y2) (vStores x y1 y2) := by
  rw [drawVLine_eq, ← vCells_cellOf y1 hx hy]
  exact plots_draws h _ _

/-- The stores of `OLED_DrawBox`. -/
def boxStores (x1 y1 x2 y2 : U8) : List (Raster.Cell × U8) :=
  hStores x1 x2 y1 ++ hStores x1 x2 y2 ++ vStores x1 y1 y2 ++ vStores x2 y1 y2

/-- **A box**: its four lines, each from the display the one before leaves. -/
theorem drawBox_draws {d : Ssd1306} (h : d.InStep) {x1 y1 x2 y2 : U8} (hx1 : x1.toNat < 128)
    (hy1 : y1.toNat < 64) (hx2 : x2.toNat < 128) (hy2 : y2.toNat < 64) :
    Draws d (drawBox x1 y1 x2 y2) (boxStores x1 y1 x2 y2) := by
  have htop := drawHLine_draws h x1 hx2 hy1
  have hbottom := htop.append (drawHLine_draws htop.inStep x1 hx2 hy2)
  have hleft := hbottom.append (drawVLine_draws hbottom.inStep y1 hx1 hy2)
  exact hleft.append (drawVLine_draws hleft.inStep y1 hx2 hy2)

/-- **A run of one data byte**, wherever it goes. -/
theorem stream_framed {w : ℕ} (bound : BitVec w) (hb : 0 < bound.toNat) {d : Ssd1306}
    (h : d.InStep) (data : U8) :
    d.Framed (stream bound data) ∧ (d.receiveAll (stream bound data)).InStep := by
  rw [stream_eq hb]
  induction bound.toNat generalizing d with
  | zero => exact ⟨h.boundary, h⟩
  | succ n ih =>
    have hstep : (d.receiveAll (sendData data)).InStep := by
      rw [receiveAll_sendData]
      exact h.data data
    obtain ⟨hframed, hlast⟩ := ih hstep
    exact ⟨(framed_sendData h.boundary data).append hframed, hlast⟩

/-- **The commands of the initialisation** are in frame on any display between
two commands, and bring it into step. -/
theorem initCommands_framed {d : Ssd1306} (h : d.AtBoundary) :
    d.Framed initCommands ∧ (d.receiveAll initCommands).InStep := by
  have hstep : (d.receiveAll initCommands).InStep := by
    rw [receiveAll_initCommands h]
    exact ⟨h, rfl⟩
  refine ⟨Ssd1306.framed_of_commands ?_ hstep.boundary, hstep⟩
  simp [initCommands, sendCommand]

/-! ## The calls -/

/-- The stores a call has to make: those of the lines it draws. -/
def Drawing.lines : Drawing → Option (List (Raster.Cell × U8))
  | .drawHLine x1 x2 y => some (hStores x1 x2 y)
  | .drawVLine x y1 y2 => some (vStores x y1 y2)
  | .drawBox x1 y1 x2 y2 => some (boxStores x1 y1 x2 y2)
  | _ => none

/-- **Every call of the user program** is in frame, keeps the display in step,
and makes the stores of its lines. -/
theorem drawing_framed {d : Ssd1306} (h : d.InStep) (op : Drawing) :
    d.Framed op.transfers ∧ (d.receiveAll op.transfers).InStep
      ∧ ∀ ss, op.lines = some ss → d.stores op.transfers = ss := by
  have hdraws : ∀ {ss}, Draws d op.transfers ss → op.lines = some ss →
      d.Framed op.transfers ∧ (d.receiveAll op.transfers).InStep
        ∧ ∀ ss, op.lines = some ss → d.stores op.transfers = ss :=
    fun hd hlines => ⟨hd.framed, hd.inStep, fun ss hss =>
      hd.stores.trans (Option.some.inj (hlines.symm.trans hss))⟩
  cases op with
  | setCursor col page =>
    have hcursor := inStep_setCursor h (page.1, col.1)
    exact ⟨Ssd1306.framed_of_commands (setCursor_commands _ _) hcursor.boundary, hcursor,
      fun ss hss => absurd hss (Option.some_ne_none ss).symm⟩
  | drawHLine x1 x2 y => exact hdraws (drawHLine_draws h x1.1 x2.2 y.2) rfl
  | drawVLine x y1 y2 => exact hdraws (drawVLine_draws h y1.1 x.2 y2.2) rfl
  | drawBox x1 y1 x2 y2 => exact hdraws (drawBox_draws h x1.2 y1.2 x2.2 y2.2) rfl
  | clear =>
    obtain ⟨hframed, hstep⟩ := stream_framed (1024 : BitVec 16) (by decide) h 0x00
    exact ⟨hframed, hstep, fun ss hss => absurd hss (Option.some_ne_none ss).symm⟩
  | fill =>
    obtain ⟨hframed, hstep⟩ := stream_framed (1024 : BitVec 16) (by decide) h 0xFF
    exact ⟨hframed, hstep, fun ss hss => absurd hss (Option.some_ne_none ss).symm⟩

/-- A drawing operation of the kernel module, which has no filling. -/
abbrev KernelDrawing := {op : Drawing // op ≠ .fill}

/-- Its transfers. -/
def KernelDrawing.transfers : KernelDrawing → List Transfer
  | ⟨.setCursor col page, _⟩ => OledI2cdrv.oledSetCursor col page
  | ⟨.drawHLine x1 x2 y, _⟩ => OledI2cdrv.oledDrawHline x1 x2 y
  | ⟨.drawVLine x y1 y2, _⟩ => OledI2cdrv.oledDrawVline x y1 y2
  | ⟨.drawBox x1 y1 x2 y2, _⟩ => OledI2cdrv.oledDrawBox x1 y1 x2 y2
  | ⟨.clear, _⟩ => OledI2cdrv.oledClear
  | ⟨.fill, h⟩ => absurd rfl h

/-- The two clearing loops send the same, their counters being wide enough. -/
theorem oledClear_eq : OledI2cdrv.oledClear = I2cUserOled.oledClear := by
  rw [OledI2cdrv.oledClear, I2cUserOled.oledClear, stream_eq (by decide), stream_eq (by decide)]
  rfl

/-- **The two drivers send the same.** -/
theorem transfers_kernel (op : KernelDrawing) : op.transfers = op.1.transfers := by
  obtain ⟨op, hop⟩ := op
  cases op with
  | setCursor | drawHLine | drawVLine | drawBox => rfl
  | clear => exact oledClear_eq
  | fill => exact absurd rfl hop

/-! ## Whole sequences -/

/-- The box both initialisations draw. -/
def initBox : Drawing :=
  .drawBox ⟨27, by decide⟩ ⟨14, by decide⟩ ⟨100, by decide⟩ ⟨50, by decide⟩

/-- The user program's initialisation ends with two calls. -/
theorem oledInit_eq : I2cUserOled.oledInit
    = initCommands ++ [.clear, initBox].flatMap Drawing.transfers := by
  rw [I2cUserOled.oledInit, List.append_assoc, List.flatMap_cons, List.flatMap_singleton]
  rfl

/-- The kernel module's calls at its initialisation. -/
def kernelInitCalls : List KernelDrawing :=
  [⟨.clear, by simp⟩, ⟨initBox, by simp [initBox]⟩]

theorem oledInitSequence_eq : OledI2cdrv.oledInitSequence
    = initCommands ++ kernelInitCalls.flatMap KernelDrawing.transfers := by
  rw [OledI2cdrv.oledInitSequence, List.append_assoc, kernelInitCalls, List.flatMap_cons,
    List.flatMap_singleton]
  rfl

/-- **A sequence of calls in place**, after the commands of the initialisation:
the display is between two commands before each data byte and after each call,
and each call that draws lines stores their bytes, in order, in the cells its
loops go through, and changes no other cell. -/
structure InPlace {O : Type} (transfers : O → List Transfer)
    (lines : O → Option (List (Raster.Cell × U8))) (d : Ssd1306) (calls : List O) : Prop where
  before : ∀ pre t post, initCommands ++ calls.flatMap transfers = pre ++ t :: post →
    t.1.getLsbD 6 = true → (d.receiveAll pre).AtBoundary
  after : ∀ done, done <+: calls →
    (d.receiveAll (initCommands ++ done.flatMap transfers)).AtBoundary
  stored : ∀ done op rest, calls = done ++ op :: rest → ∀ ss, lines op = some ss →
    (d.receiveAll (initCommands ++ done.flatMap transfers)).stores (transfers op) = ss
      ∧ ∀ q, (∀ s ∈ ss, s.1 ≠ q) →
        (d.receiveAll (initCommands ++ done.flatMap transfers ++ transfers op)).gddram q
          = (d.receiveAll (initCommands ++ done.flatMap transfers)).gddram q

/-- Calls each of which is in frame, from a display in step. -/
theorem calls_framed {O : Type} {transfers : O → List Transfer}
    (hop : ∀ (e : Ssd1306) (op : O), e.InStep →
      e.Framed (transfers op) ∧ (e.receiveAll (transfers op)).InStep)
    {d : Ssd1306} (h : d.InStep) (calls : List O) :
    d.Framed (calls.flatMap transfers) ∧ (d.receiveAll (calls.flatMap transfers)).InStep := by
  induction calls generalizing d with
  | nil => exact ⟨h.boundary, h⟩
  | cons op calls ih =>
    obtain ⟨hframed, hstep⟩ := hop d op h
    obtain ⟨hframed', hstep'⟩ := ih hstep
    rw [List.flatMap_cons, Ssd1306.receiveAll_append]
    exact ⟨hframed.append hframed', hstep'⟩

/-- **Calls that are each in frame are in place together.** -/
theorem inPlace {O : Type} {transfers : O → List Transfer}
    {lines : O → Option (List (Raster.Cell × U8))}
    (hop : ∀ (e : Ssd1306) (op : O), e.InStep →
      e.Framed (transfers op) ∧ (e.receiveAll (transfers op)).InStep
        ∧ ∀ ss, lines op = some ss → e.stores (transfers op) = ss)
    {d : Ssd1306} (hd : d.AtBoundary) (calls : List O) : InPlace transfers lines d calls := by
  obtain ⟨hinit, hstep⟩ := initCommands_framed hd
  have hcalls : ∀ calls : List O,
      d.Framed (initCommands ++ calls.flatMap transfers)
        ∧ (d.receiveAll (initCommands ++ calls.flatMap transfers)).InStep := by
    intro calls
    obtain ⟨hframed, hlast⟩ :=
      calls_framed (fun e op he => ⟨(hop e op he).1, (hop e op he).2.1⟩) hstep calls
    rw [Ssd1306.receiveAll_append]
    exact ⟨hinit.append hframed, hlast⟩
  refine ⟨fun pre t post hsplit ht => ?_, fun done _ => (hcalls done).2.boundary,
    fun done op rest _ ss hss => ?_⟩
  · have hframed := (hcalls calls).1
    rw [hsplit] at hframed
    exact hframed.before ht
  · have hstores := (hop _ op (hcalls done).2).2.2 ss hss
    refine ⟨hstores, fun q hq => ?_⟩
    rw [Ssd1306.receiveAll_append _ (initCommands ++ _)]
    rw [Ssd1306.gddram_receiveAll, hstores]
    refine Stores.storeAll_of_not_mem _ (fun hmem => ?_)
    obtain ⟨s, hs, rfl⟩ := List.mem_map.mp hmem
    exact hq s hs rfl

/-- **Framing and placement.** On a display found between two commands, with
any window, position, mode and memory: in every sequence that begins with the
user program's initialisation and goes on with any calls inside the display,
and in every such sequence of the kernel module, every data byte finds the
display between two commands and so does what follows each call, and the bytes
of the lines drawn – those of the initialisation's box among them – are stored
in the cells of their loops and nowhere else. -/
theorem framing (d : Ssd1306) (hd : d.AtBoundary) (ops : List Drawing)
    (kops : List KernelDrawing) :
    (I2cUserOled.oledInit = initCommands ++ [.clear, initBox].flatMap Drawing.transfers
        ∧ InPlace Drawing.transfers Drawing.lines d ([.clear, initBox] ++ ops))
      ∧ OledI2cdrv.oledInitSequence
          = initCommands ++ kernelInitCalls.flatMap KernelDrawing.transfers
        ∧ InPlace KernelDrawing.transfers (fun op => op.1.lines) d (kernelInitCalls ++ kops) := by
  refine ⟨⟨oledInit_eq, inPlace (fun e op he => drawing_framed he op) hd _⟩,
    oledInitSequence_eq, inPlace (fun e op he => ?_) hd _⟩
  rw [transfers_kernel]
  exact drawing_framed he op.1

/-- Out of power-on, with a filling and a line after the initialisation. -/
theorem framing_powerOn :
    InPlace Drawing.transfers Drawing.lines (powerOnDisplay fun _ => 0x55)
      ([.clear, initBox]
        ++ [.fill, .drawHLine ⟨3, by decide⟩ ⟨90, by decide⟩ ⟨63, by decide⟩]) :=
  (framing (powerOnDisplay fun _ => 0x55) rfl _ []).1.2

end Oled
