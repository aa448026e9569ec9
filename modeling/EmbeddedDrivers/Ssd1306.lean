import EmbeddedDrivers.Raster
import EmbeddedDrivers.Stores

/-!
# The SSD1306 display controller

A 128×64 display of eight pages of 128 bytes, written over a serial bus, as
far as a host that only writes can tell. Every transfer says whether it
carries a command byte or a byte of display memory.

The command bytes are a stream of their own: a command and its parameters may
come in separate transfers, so the controller has a parser, and whether a byte
is a command or a parameter depends on what came before. The data bytes go
along a raster (`EmbeddedDrivers.Raster`): the commands fix a window and the
position in it, and each data byte is stored at the position, which moves on.

The position and the window stay when a host goes away, and no command says
"the whole display". What a run of data bytes covers is therefore decided by
whatever set the window last: `foldl_data_fills` says that a long run of one byte
fills the window, and that the rest of the memory keeps what it had.

What a run of transfers is read as is listed too, its stores (`stores`) and its
commands (`commands`), so that a host can be asked for both.

Of the commands those that address the memory through a window are modelled, as
they are in the two modes that have one. Of the others the number of parameters
is known, so that a byte misread as one of them takes with it what it takes on
the display, and nothing else: not what they do to the picture, nor that a
scroll, once activated, moves the memory.
-/

/-- The addressing modes. -/
inductive Ssd1306.Mode
  | horizontal
  | vertical
  | page
  deriving DecidableEq

/-- **The controller.** -/
structure Ssd1306 where
  /-- The bytes of a command whose parameters have not all come. -/
  pending : List (BitVec 8)
  /-- How the position moves on. -/
  mode : Ssd1306.Mode
  /-- The window of pages and columns. -/
  window : Raster.Window
  /-- The page and the column of the next data byte. -/
  position : Raster.Cell
  /-- The display memory, by page and column. -/
  gddram : Raster.Cell → BitVec 8

namespace Ssd1306

/-! ## Commands -/

/-- How many parameters follow a command byte: the two scrolls, the two diagonal
ones, the windows and the area of a vertical scroll, and the settings of one
byte. The other commands are a byte alone, and so is what is no command. -/
def paramCount (op : BitVec 8) : ℕ :=
  if op = 0x26 ∨ op = 0x27 then 6
  else if op = 0x29 ∨ op = 0x2A then 5
  else if op = 0x21 ∨ op = 0x22 ∨ op = 0xA3 then 2
  else if op = 0x20 ∨ op = 0x81 ∨ op = 0x8D ∨ op = 0xA8 ∨ op = 0xD3 ∨ op = 0xD5 ∨ op = 0xD9
      ∨ op = 0xDA ∨ op = 0xDB then 1
  else 0

/-- The mode a parameter asks for, one of the four values being invalid. -/
def Mode.select (m : Mode) (v : BitVec 8) : Mode :=
  if v.toNat % 4 = 0 then .horizontal
  else if v.toNat % 4 = 1 then .vertical
  else if v.toNat % 4 = 2 then .page
  else m

/-- Columns set: seven bits of each are kept, and the position goes to the
first. -/
def withColumns (d : Ssd1306) (s e : BitVec 8) : Ssd1306 :=
  { d with
    window := { d.window with colStart := s.toNat % 128, colEnd := e.toNat % 128 }
    position := (d.position.1, s.toNat % 128) }

/-- Pages set: three bits of each are kept, and the position goes to the
first. -/
def withPages (d : Ssd1306) (s e : BitVec 8) : Ssd1306 :=
  { d with
    window := { d.window with rowStart := s.toNat % 8, rowEnd := e.toNat % 8 }
    position := (s.toNat % 8, d.position.2) }

/-- **A complete command.** -/
def exec (d : Ssd1306) : List (BitVec 8) → Ssd1306
  | [op, v] => if op = 0x20 then { d with mode := d.mode.select v } else d
  | [op, s, e] =>
    if op = 0x21 then d.withColumns s e else if op = 0x22 then d.withPages s e else d
  | _ => d

/-- A command opens no other one, and leaves the memory alone. -/
theorem exec_keeps (d : Ssd1306) (bytes : List (BitVec 8)) :
    (d.exec bytes).pending = d.pending ∧ (d.exec bytes).gddram = d.gddram := by
  unfold exec
  split
  · split <;> exact ⟨rfl, rfl⟩
  · split
    · exact ⟨rfl, rfl⟩
    · split <;> exact ⟨rfl, rfl⟩
  · exact ⟨rfl, rfl⟩

/-- **A command byte**: it opens a command, or is the next parameter of the one
that is open. -/
def command (d : Ssd1306) (b : BitVec 8) : Ssd1306 :=
  let bytes := d.pending ++ [b]
  if bytes.length ≤ paramCount (bytes.headD b) then { d with pending := bytes }
  else { d with pending := [] }.exec bytes

/-! ## Data -/

/-- Where the position moves on to. -/
def advance (d : Ssd1306) : Raster.Cell :=
  match d.mode with
  | .horizontal => d.window.next d.position
  | .vertical =>
    if d.position.1 = d.window.rowEnd then
      (d.window.rowStart,
        if d.position.2 = d.window.colEnd then d.window.colStart else d.position.2 + 1)
    else (d.position.1 + 1, d.position.2)
  | .page =>
    (d.position.1, if d.position.2 = d.window.colEnd then d.window.colStart else d.position.2 + 1)

/-- **A data byte**: it is stored at the position, which moves on. -/
def data (d : Ssd1306) (v : BitVec 8) : Ssd1306 :=
  { d with gddram := Function.update d.gddram d.position v, position := d.advance }

/-- **A transfer** of a control byte and another one; bit 6 of the control byte
says what the other one is. -/
def receive (d : Ssd1306) (t : BitVec 8 × BitVec 8) : Ssd1306 :=
  if t.1.getLsbD 6 then d.data t.2 else d.command t.2

theorem receive_command (d : Ssd1306) {t : BitVec 8 × BitVec 8} (h : t.1.getLsbD 6 = false) :
    d.receive t = d.command t.2 := by
  rw [receive, h, if_neg Bool.false_ne_true]

theorem receive_data (d : Ssd1306) {t : BitVec 8 × BitVec 8} (h : t.1.getLsbD 6 = true) :
    d.receive t = d.data t.2 := by
  rw [receive, h, if_pos rfl]

/-- A run of transfers. -/
def receiveAll (d : Ssd1306) (ts : List (BitVec 8 × BitVec 8)) : Ssd1306 := ts.foldl receive d

@[simp] theorem receiveAll_nil (d : Ssd1306) : d.receiveAll [] = d := rfl

theorem receiveAll_append (d : Ssd1306) (ss ts : List (BitVec 8 × BitVec 8)) :
    d.receiveAll (ss ++ ts) = (d.receiveAll ss).receiveAll ts := List.foldl_append

/-! ## What is stored where -/

/-- **The stores of a run of transfers**: for each data byte, in order, the cell
it is stored at and the byte. -/
def stores (d : Ssd1306) : List (BitVec 8 × BitVec 8) → List (Raster.Cell × BitVec 8)
  | [] => []
  | t :: ts => (if t.1.getLsbD 6 then [(d.position, t.2)] else []) ++ (d.receive t).stores ts

theorem stores_append (d : Ssd1306) (ss ts : List (BitVec 8 × BitVec 8)) :
    d.stores (ss ++ ts) = d.stores ss ++ (d.receiveAll ss).stores ts := by
  induction ss generalizing d with
  | nil => rfl
  | cons t ss ih =>
    rw [List.cons_append, stores, stores, ih, List.append_assoc]
    rfl

/-- Commands store nothing. -/
theorem stores_of_commands {d : Ssd1306} {ts : List (BitVec 8 × BitVec 8)}
    (hts : ∀ t ∈ ts, t.1.getLsbD 6 = false) : d.stores ts = [] := by
  induction ts generalizing d with
  | nil => rfl
  | cons t ts ih =>
    rw [stores, hts t List.mem_cons_self, if_neg Bool.false_ne_true,
      ih (fun s hs => hts s (List.mem_cons_of_mem _ hs))]
    rfl

/-- A command byte leaves the memory alone. -/
theorem gddram_command (d : Ssd1306) (b : BitVec 8) : (d.command b).gddram = d.gddram := by
  unfold command
  dsimp only
  split
  · rfl
  · exact (exec_keeps _ _).2

/-- **The memory changes by the stores** and by nothing else. -/
theorem gddram_receiveAll (d : Ssd1306) (ts : List (BitVec 8 × BitVec 8)) :
    (d.receiveAll ts).gddram = Stores.storeAll d.gddram (d.stores ts) := by
  induction ts generalizing d with
  | nil => rfl
  | cons t ts ih =>
    show ((d.receive t).receiveAll ts).gddram = _
    rw [ih, stores, Stores.storeAll_append]
    cases ht : t.1.getLsbD 6 with
    | false =>
      rw [receive_command d ht, gddram_command]
      rfl
    | true =>
      rw [receive_data d ht]
      rfl

/-- **The pixel** in a column and a row: each byte holds eight rows, the lowest
bit the first of them. -/
def pixel (m : Raster.Cell → BitVec 8) (x y : ℕ) : Bool := (m (y / 8, x)).getLsbD (y % 8)

/-! ## On a command boundary -/

/-- The controller is between two commands. -/
def AtBoundary (d : Ssd1306) : Prop := d.pending = []

instance (d : Ssd1306) : Decidable d.AtBoundary := inferInstanceAs (Decidable (_ = _))

/-- **Transfers in frame**: each data byte of them finds the controller between
two commands, and so does what follows them. -/
def Framed (d : Ssd1306) : List (BitVec 8 × BitVec 8) → Prop
  | [] => d.AtBoundary
  | t :: ts => (t.1.getLsbD 6 = true → d.AtBoundary) ∧ (d.receive t).Framed ts

theorem Framed.append {d : Ssd1306} {ss ts : List (BitVec 8 × BitVec 8)} (hs : d.Framed ss)
    (ht : (d.receiveAll ss).Framed ts) : d.Framed (ss ++ ts) := by
  induction ss generalizing d with
  | nil => exact ht
  | cons t ss ih => exact ⟨hs.1, ih hs.2 ht⟩

/-- Every data byte finds the controller between two commands. -/
theorem Framed.before {d : Ssd1306} {pre post : List (BitVec 8 × BitVec 8)}
    {t : BitVec 8 × BitVec 8} (h : d.Framed (pre ++ t :: post)) (ht : t.1.getLsbD 6 = true) :
    (d.receiveAll pre).AtBoundary := by
  induction pre generalizing d with
  | nil => exact h.1 ht
  | cons s pre ih => exact ih h.2

/-- Commands alone need only be complete at their end. -/
theorem framed_of_commands {d : Ssd1306} {ts : List (BitVec 8 × BitVec 8)}
    (hts : ∀ t ∈ ts, t.1.getLsbD 6 = false) (h : (d.receiveAll ts).AtBoundary) : d.Framed ts := by
  induction ts generalizing d with
  | nil => exact h
  | cons t ts ih =>
    refine ⟨fun ht => ?_, ih (fun s hs => hts s (List.mem_cons_of_mem _ hs)) h⟩
    rw [hts t List.mem_cons_self] at ht
    exact absurd ht Bool.false_ne_true

/-- A command without a parameter leaves the addressing alone. -/
theorem command_single {d : Ssd1306} (h : d.AtBoundary) {op : BitVec 8} (hop : paramCount op = 0) :
    d.command op = d := by
  obtain ⟨pending, mode, window, position, gddram⟩ := d
  obtain rfl : pending = [] := h
  show (if 1 ≤ paramCount op then _ else _) = _
  rw [hop, if_neg (by omega)]
  rfl

/-- The command that selects a mode. -/
theorem command_mode {d : Ssd1306} (h : d.AtBoundary) (v : BitVec 8) :
    (d.command 0x20).command v = { d with mode := d.mode.select v } := by
  obtain ⟨pending, mode, window, position, gddram⟩ := d
  obtain rfl : pending = [] := h
  rfl

/-- The command that sets the charge pump leaves the addressing alone. -/
theorem command_chargePump {d : Ssd1306} (h : d.AtBoundary) (v : BitVec 8) :
    (d.command 0x8D).command v = d := by
  obtain ⟨pending, mode, window, position, gddram⟩ := d
  obtain rfl : pending = [] := h
  rfl

/-- The command that sets the column window. -/
theorem command_columns {d : Ssd1306} (h : d.AtBoundary) (s e : BitVec 8) :
    ((d.command 0x21).command s).command e = d.withColumns s e := by
  obtain ⟨pending, mode, window, position, gddram⟩ := d
  obtain rfl : pending = [] := h
  rfl

/-- The command that sets the page window. -/
theorem command_pages {d : Ssd1306} (h : d.AtBoundary) (s e : BitVec 8) :
    ((d.command 0x22).command s).command e = d.withPages s e := by
  obtain ⟨pending, mode, window, position, gddram⟩ := d
  obtain rfl : pending = [] := h
  rfl

/-! ## The commands of a run -/

/-- The command that a command byte completes, if it does. -/
def completed (d : Ssd1306) (b : BitVec 8) : Option (List (BitVec 8)) :=
  let bytes := d.pending ++ [b]
  if bytes.length ≤ paramCount (bytes.headD b) then none else some bytes

/-- What is completed is executed, and what is not is kept. -/
theorem command_eq (d : Ssd1306) (b : BitVec 8) :
    d.command b = match d.completed b with
      | none => { d with pending := d.pending ++ [b] }
      | some bytes => { d with pending := [] }.exec bytes := by
  unfold command completed
  dsimp only
  split <;> rfl

/-- **The commands of a run of transfers**: those completed, in order, each with
its parameters. -/
def commands (d : Ssd1306) : List (BitVec 8 × BitVec 8) → List (List (BitVec 8))
  | [] => []
  | t :: ts =>
    (if t.1.getLsbD 6 then [] else (d.completed t.2).toList) ++ (d.receive t).commands ts

theorem commands_append (d : Ssd1306) (ss ts : List (BitVec 8 × BitVec 8)) :
    d.commands (ss ++ ts) = d.commands ss ++ (d.receiveAll ss).commands ts := by
  induction ss generalizing d with
  | nil => rfl
  | cons t ss ih =>
    rw [List.cons_append, commands, commands, ih, List.append_assoc]
    rfl

theorem commands_command (d : Ssd1306) {c : BitVec 8} (h : c.getLsbD 6 = false) (b : BitVec 8)
    (ts : List (BitVec 8 × BitVec 8)) :
    d.commands ((c, b) :: ts) = (d.completed b).toList ++ (d.command b).commands ts := by
  rw [commands, receive_command d (t := (c, b)) h, h, if_neg Bool.false_ne_true]

theorem commands_data (d : Ssd1306) {c : BitVec 8} (h : c.getLsbD 6 = true) (v : BitVec 8)
    (ts : List (BitVec 8 × BitVec 8)) : d.commands ((c, v) :: ts) = (d.data v).commands ts := by
  rw [commands, receive_data d (t := (c, v)) h, h, if_pos rfl, List.nil_append]

/-- **A run of command bytes** executes the commands it is read as, whatever is
left open at its end. -/
theorem receiveAll_commands (d : Ssd1306) {ts : List (BitVec 8 × BitVec 8)}
    (hts : ∀ t ∈ ts, t.1.getLsbD 6 = false) :
    { d.receiveAll ts with pending := [] }
      = (d.commands ts).foldl exec { d with pending := [] } := by
  induction ts generalizing d with
  | nil => rfl
  | cons t ts ih =>
    have ht := hts t List.mem_cons_self
    have hstep : d.receiveAll (t :: ts) = (d.command t.2).receiveAll ts := by
      rw [← receive_command d ht]
      rfl
    rw [hstep, ih _ (fun s hs => hts s (List.mem_cons_of_mem _ hs)), commands_command d ht,
      List.foldl_append, command_eq]
    cases d.completed t.2 with
    | none => rfl
    | some bytes =>
      have hclosed : ∀ e : Ssd1306, e.pending = [] → { e with pending := [] } = e := by
        rintro ⟨pending, mode, window, position, gddram⟩ h
        obtain rfl : pending = [] := h
        rfl
      dsimp only [Option.toList_some, List.foldl_cons, List.foldl_nil]
      rw [hclosed _ (exec_keeps _ bytes).1]

/-- A command with its two parameters is read as that. -/
theorem commands_two {d : Ssd1306} (h : d.AtBoundary) {op c : BitVec 8} (hop : paramCount op = 2)
    (hc : c.getLsbD 6 = false) (s e : BitVec 8) :
    d.commands [(c, op), (c, s), (c, e)] = [[op, s, e]] := by
  obtain ⟨pending, mode, window, position, gddram⟩ := d
  obtain rfl : pending = [] := h
  rw [commands_command _ hc, commands_command _ hc, commands_command _ hc]
  simp [completed, command, hop, commands]

/-- **A valid command**: a window it sets does not end before it starts, and
ends on the display. -/
def ValidWindow : List (BitVec 8) → Prop
  | [op, s, e] => (op = 0x21 → s ≤ e ∧ e ≤ 127) ∧ (op = 0x22 → s ≤ e ∧ e ≤ 7)
  | _ => True

/-! ## Along the raster -/

/-- **The controller between two commands**, with the position in a window of
the display. -/
structure Placed (d : Ssd1306) : Prop where
  boundary : d.AtBoundary
  position : d.window.Contains d.position
  pages : d.window.rowEnd < 8
  columns : d.window.colEnd < 128

/-- **The controller in step** with its host: between two commands and in
horizontal mode, whatever its window and its position are. -/
structure InStep (d : Ssd1306) : Prop where
  boundary : d.AtBoundary
  horizontal : d.mode = .horizontal

/-- A data byte keeps the controller in step. -/
theorem InStep.data {d : Ssd1306} (h : d.InStep) (v : BitVec 8) : (d.data v).InStep :=
  ⟨h.boundary, h.horizontal⟩

/-- **The state data bytes can be sent in**: the controller is also in
horizontal mode. -/
structure Addressed (d : Ssd1306) : Prop extends d.Placed where
  horizontal : d.mode = .horizontal

theorem Addressed.inStep {d : Ssd1306} (h : d.Addressed) : d.InStep :=
  ⟨h.boundary, h.horizontal⟩

/-- The controller with another memory and position. -/
def moved (d : Ssd1306) (s : (Raster.Cell → BitVec 8) × Raster.Cell) : Ssd1306 :=
  { d with gddram := s.1, position := s.2 }

/-- **In horizontal mode a data byte is a write along the raster.** -/
theorem data_moved {d : Ssd1306} (h : d.mode = .horizontal) (v : BitVec 8)
    (s : (Raster.Cell → BitVec 8) × Raster.Cell) :
    (d.moved s).data v = d.moved (Raster.write d.window s.1 s.2 v) := by
  unfold data advance moved
  rw [h]
  rfl

/-- A data byte leaves the addressing in order. -/
theorem Addressed.data {d : Ssd1306} (h : d.Addressed) (v : BitVec 8) : (d.data v).Addressed := by
  have hdata := data_moved h.horizontal v (d.gddram, d.position)
  rw [show d.data v = _ from hdata]
  exact ⟨⟨h.boundary, Raster.Window.contains_next h.position, h.pages, h.columns⟩, h.horizontal⟩

/-- **A run of one data byte** is a run of writes. -/
theorem foldl_data {d : Ssd1306} (h : d.mode = .horizontal) (v : BitVec 8) (n : ℕ) :
    (List.replicate n v).foldl Ssd1306.data d
      = d.moved (Raster.paint d.window v n (d.gddram, d.position)) := by
  induction n with
  | zero => rfl
  | succ n ih =>
    rw [List.replicate_succ', List.foldl_append, ih, Raster.paint_succ]
    exact data_moved h v _

/-- A window of the display has at most as many cells as the display. -/
theorem Placed.size_le {d : Ssd1306} (h : d.Placed) : d.window.size ≤ 1024 := by
  have hrows : d.window.height ≤ 8 := by
    have := h.pages
    unfold Raster.Window.height
    omega
  have hcols : d.window.width ≤ 128 := by
    have := h.columns
    unfold Raster.Window.width
    omega
  exact Nat.mul_le_mul hrows hcols

/-- **A run of one byte as long as the window** fills it and leaves the rest of
the memory as it was. -/
theorem foldl_data_fills {d : Ssd1306} (h : d.Addressed) (v : BitVec 8) {n : ℕ}
    (hn : d.window.size ≤ n) :
    ((List.replicate n v).foldl Ssd1306.data d).Addressed
      ∧ ((List.replicate n v).foldl Ssd1306.data d).window = d.window
      ∧ ∀ q, ((List.replicate n v).foldl Ssd1306.data d).gddram q
          = if d.window.Contains q then v else d.gddram q := by
  rw [foldl_data h.horizontal]
  refine ⟨⟨⟨h.boundary, ?_, h.pages, h.columns⟩, h.horizontal⟩, rfl, fun q => ?_⟩
  · show d.window.Contains (Raster.paint d.window v n (d.gddram, d.position)).2
    rw [Raster.paint_snd]
    exact Raster.Window.contains_iterate h.position n
  · exact Raster.paint_of_size_le d.window v hn h.position q

end Ssd1306
