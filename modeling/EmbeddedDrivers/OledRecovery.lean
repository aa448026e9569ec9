import EmbeddedDrivers.OledCanvas
import EmbeddedDrivers.OledProbe

/-!
# A display out of step

A transfer that is lost takes more with it than its byte. The display tells a
command from a parameter by what came before, so after a lost command byte it
may take the next commands for parameters and a parameter for a command. No
function of the kernel module finds out (`EmbeddedDrivers.OledProbe`). This
module is about what brings the display back.

A cursor does, if all of its six bytes arrive and if nothing is open that swallows
more than two bytes (`boundary_setCursor`). What can be open is a cursor's own two
commands and what its column means as a command, should the byte before the
column be lost. Most columns mean little; a few do not, and are what
`Misleads` is about: 0x20 sets the mode, and among 0x23 to 0x2F are the scrolls,
some of which swallow the better part of the next plot. Down one of two columns a
line is not found again at all (`not_boundary_of_misled`).

The commands of the initialisation bring the display back from more than that,
for they end with enough bytes that are commands on their own. What they are
there for, the mode, is set if at most the first of them is swallowed:
`probe_recovers`.

Two things about the display are taken for granted. A byte that is no command
has no parameters, and no command touches the memory, which is so as long as no
scroll is activated; none is by the two drivers, and 0x2F is one of the columns
that mislead.
-/

namespace Ssd1306

/-! ## What is left open -/

/-- What a command byte leaves open. -/
def openAfter (p : List (BitVec 8)) (b : BitVec 8) : List (BitVec 8) :=
  if (p ++ [b]).length ≤ paramCount ((p ++ [b]).headD b) then p ++ [b] else []

/-- The bytes of an open command evolve on their own. -/
theorem pending_command (d : Ssd1306) (b : BitVec 8) :
    (d.command b).pending = openAfter d.pending b := by
  unfold command openAfter
  dsimp only
  split
  · rfl
  · exact (exec_keeps _ _).1

/-- A data byte does not come into it. -/
theorem pending_data (d : Ssd1306) (v : BitVec 8) : (d.data v).pending = d.pending := rfl

theorem openAfter_nil (b : BitVec 8) :
    openAfter [] b = if paramCount b = 0 then [] else [b] := by
  show (if 1 ≤ paramCount b then [b] else []) = _
  by_cases h : paramCount b = 0
  · rw [if_pos h, if_neg (by omega)]
  · rw [if_neg h, if_pos (by omega)]

/-- An open command takes the byte, and stays open if that was not its last. -/
theorem openAfter_cons (op : BitVec 8) (p : List (BitVec 8)) (b : BitVec 8) :
    openAfter (op :: p) b = if p.length + 1 < paramCount op then op :: (p ++ [b]) else [] := by
  show (if (op :: (p ++ [b])).length ≤ paramCount op then _ else _) = _
  rw [List.length_cons, List.length_append, List.length_singleton]
  rfl

/-- A command leaves the mode alone that is not the one to set it. -/
theorem mode_exec (d : Ssd1306) {op : BitVec 8} (h : op ≠ 0x20) (vs : List (BitVec 8)) :
    (d.exec (op :: vs)).mode = d.mode := by
  rcases vs with _ | ⟨v, _ | ⟨e, _ | ⟨b, vs⟩⟩⟩
  · rfl
  · rw [exec, if_neg h]
  · rw [exec]
    split
    · rfl
    · split <;> rfl
  · rfl

/-- The same of a byte. -/
theorem mode_command (d : Ssd1306) {b : BitVec 8} (h : (d.pending ++ [b]).headD b ≠ 0x20) :
    (d.command b).mode = d.mode := by
  unfold command
  dsimp only
  split
  · rfl
  · generalize hbytes : d.pending ++ [b] = bytes at h
    cases bytes with
    | nil => exact absurd hbytes (by simp)
    | cons op vs => exact mode_exec _ h vs

/-! ## What is awaited -/

/-- **The bytes a display awaits**: the parameters of the open command that have not
come. -/
def awaits (d : Ssd1306) : ℕ :=
  match d.pending with
  | [] => 0
  | op :: v => paramCount op - v.length

/-- No command has more than six parameters. -/
theorem paramCount_le (op : BitVec 8) : paramCount op ≤ 6 := by
  unfold paramCount
  split_ifs <;> decide

/-- A display that awaits one byte at most is between two commands after one that
has no parameters. -/
theorem boundary_command {d : Ssd1306} (h : d.awaits ≤ 1) {b : BitVec 8}
    (hb : paramCount b = 0) : (d.command b).AtBoundary := by
  show _ = []
  unfold awaits at h
  rw [pending_command]
  cases hp : d.pending with
  | nil => rw [openAfter_nil, if_pos hb]
  | cons op v =>
    rw [hp] at h
    dsimp only at h
    rw [openAfter_cons, if_neg (by omega)]

/-- **A command that is open swallows what it awaits**, and keeps the mode. -/
theorem foldl_swallowed {d : Ssd1306} {op : BitVec 8} {v : List (BitVec 8)}
    (h : d.pending = op :: v) (hop : op ≠ 0x20) {bs : List (BitVec 8)} (hbs : bs ≠ [])
    (hcount : paramCount op = v.length + bs.length) :
    (bs.foldl command d).AtBoundary ∧ (bs.foldl command d).mode = d.mode := by
  induction bs generalizing d v with
  | nil => exact absurd rfl hbs
  | cons b bs ih =>
    have hmode : (d.command b).mode = d.mode := mode_command d (by rw [h]; exact hop)
    have hpending := pending_command d b
    rw [List.length_cons] at hcount
    rw [h, openAfter_cons] at hpending
    rw [List.foldl_cons, ← hmode]
    cases bs with
    | nil =>
      rw [List.length_nil] at hcount
      rw [if_neg (by omega)] at hpending
      exact ⟨hpending, rfl⟩
    | cons c cs =>
      rw [List.length_cons] at hcount
      rw [if_pos (by omega)] at hpending
      exact ih hpending (List.cons_ne_nil c cs)
        (by rw [List.length_append, List.length_singleton, List.length_cons]; omega)

/-! ## What a cursor gets over -/

/-- **A mild command byte**: it has two parameters at most, and does not set the
mode. -/
structure Mild (op : BitVec 8) : Prop where
  params : paramCount op ≤ 2
  not_mode : op ≠ 0x20

instance (op : BitVec 8) : Decidable (Mild op) :=
  decidable_of_iff (paramCount op ≤ 2 ∧ op ≠ 0x20) ⟨fun h => ⟨h.1, h.2⟩, fun h => ⟨h.1, h.2⟩⟩

/-- Nothing is open but a mild command. -/
def Steady (d : Ssd1306) : Prop := ∀ op ∈ d.pending.head?, Mild op

theorem steady_of_boundary {d : Ssd1306} (h : d.AtBoundary) : d.Steady := by
  intro op hop
  rw [show d.pending = [] from h] at hop
  exact absurd hop (by simp)

/-- **A mild byte** keeps it so, and keeps the mode. -/
theorem steady_command {d : Ssd1306} (h : d.Steady) {b : BitVec 8} (hb : Mild b) :
    (d.command b).Steady ∧ (d.command b).mode = d.mode := by
  have hfirst : Mild ((d.pending ++ [b]).headD b) := by
    cases hp : d.pending with
    | nil => exact hb
    | cons op p => exact h op (by rw [hp]; rfl)
  refine ⟨fun op hop => ?_, mode_command d hfirst.not_mode⟩
  rw [pending_command, openAfter] at hop
  split at hop
  · rw [List.headD_eq_head?_getD, Option.mem_def.mp hop, Option.getD_some] at hfirst
    exact hfirst
  · exact absurd hop (by simp)

/-- So do transfers whose commands are all mild. -/
theorem steady_receiveAll {d : Ssd1306} (h : d.Steady) {ts : List (BitVec 8 × BitVec 8)}
    (hts : ∀ t ∈ ts, t.1.getLsbD 6 = false → Mild t.2) :
    (d.receiveAll ts).Steady ∧ (d.receiveAll ts).mode = d.mode := by
  induction ts generalizing d with
  | nil => exact ⟨h, rfl⟩
  | cons t ts ih =>
    obtain ⟨hfirst, hmode⟩ : (d.receive t).Steady ∧ (d.receive t).mode = d.mode := by
      cases ht : t.1.getLsbD 6 with
      | true =>
        rw [receive_data d ht]
        exact ⟨h, rfl⟩
      | false =>
        rw [receive_command d ht]
        exact steady_command h (hts t List.mem_cons_self ht)
    obtain ⟨hrest, hmode'⟩ := ih hfirst fun s hs => hts s (List.mem_cons_of_mem t hs)
    exact ⟨hrest, hmode'.trans hmode⟩

end Ssd1306

namespace Oled

open Ssd1306 (openAfter Mild)

/-! ## A cursor from anywhere -/

/-- **A column that misleads**: as a command it sets the mode, or is a scroll or one
of the bytes between these that the display does not know. -/
def Misleads (col : U8) : Prop := 0x20 ≤ col ∧ col ≤ 0x2F ∧ col ≠ 0x21 ∧ col ≠ 0x22

instance (col : U8) : Decidable (Misleads col) := inferInstanceAs (Decidable (_ ∧ _))

/-- The other columns are mild. -/
theorem mild_of_not_misleads {col : U8} (h : ¬ Misleads col) : Mild col := by
  have hne : ∀ op : U8, Misleads op → col ≠ op := by
    rintro op hop rfl
    exact h hop
  refine ⟨?_, hne 0x20 (by decide)⟩
  rw [Ssd1306.paramCount, if_neg (not_or.mpr ⟨hne 0x26 (by decide), hne 0x27 (by decide)⟩),
    if_neg (not_or.mpr ⟨hne 0x29 (by decide), hne 0x2A (by decide)⟩)]
  split_ifs <;> decide

/-- The number of a page opens no command with parameters. -/
theorem paramCount_page {page : U8} (h : page.toNat < 32) : Ssd1306.paramCount page = 0 := by
  have hall : ∀ page : U8, page < 32 → Ssd1306.paramCount page = 0 := by decide
  exact hall page (BitVec.lt_def.mpr h)

theorem mild_page {page : U8} (h : page.toNat < 32) : Mild page := by
  refine ⟨(paramCount_page h).le.trans (Nat.zero_le 2), ?_⟩
  rintro rfl
  exact absurd h (by decide)

/-- The second half of a cursor. -/
theorem openAfter_pages (page : U8) : [0x22, page, 7].foldl openAfter [] = [] := rfl

/-- The rest of a cursor whose column has been taken for a command. -/
theorem openAfter_column {col : U8} (hcol : Mild col) {page : U8} (h : page.toNat < 32) :
    [col, 127, 0x22, page, 7].foldl openAfter [] = [] := by
  have hle := hcol.params
  rw [List.foldl_cons, Ssd1306.openAfter_nil]
  split
  · exact openAfter_pages page
  · rw [List.foldl_cons, Ssd1306.openAfter_cons]
    split
    · -- the second command completes it, and the page is alone
      rw [List.nil_append, List.foldl_cons, Ssd1306.openAfter_cons,
        if_neg (by rw [List.length_singleton]; omega), List.foldl_cons, Ssd1306.openAfter_nil,
        if_pos (paramCount_page h)]
      rfl
    · exact openAfter_pages page

/-- **A cursor brings a display between two commands** on which nothing is open but
a mild command. -/
theorem boundary_setCursor {d : Ssd1306} (hd : d.Steady) {col page : U8} (hcol : Mild col)
    (h : page.toNat < 32) : (d.receiveAll (setCursor col page)).AtBoundary := by
  have hpending : (d.receiveAll (setCursor col page)).pending
      = [0x21, col, 127, 0x22, page, 7].foldl openAfter d.pending := by
    simp only [setCursor, Ssd1306.receiveAll_append, receiveAll_sendCommand,
      Ssd1306.pending_command, List.foldl_cons, List.foldl_nil]
  show _ = []
  rw [hpending, List.foldl_cons]
  cases hp : d.pending with
  | nil =>
    rw [show openAfter [] 0x21 = [0x21] from rfl, List.foldl_cons, Ssd1306.openAfter_cons,
      if_pos (by decide), List.nil_append, List.foldl_cons, Ssd1306.openAfter_cons,
      if_neg (by rw [List.length_singleton]; decide)]
    exact openAfter_pages page
  | cons op p =>
    have hle := (hd op (by rw [hp]; rfl)).params
    rw [Ssd1306.openAfter_cons]
    split
    · -- the column completes what was open
      rw [List.foldl_cons, Ssd1306.openAfter_cons,
        if_neg (by rw [List.length_append, List.length_singleton]; omega)]
      exact openAfter_pages page
    · exact openAfter_column hcol h

/-! ## One plot -/

/-- A plot from between two commands, in any mode. -/
theorem plot_of_boundary {d : Ssd1306} (h : d.AtBoundary) (data : U8) (p : U8 × U8) :
    (d.receiveAll (plot data p)).AtBoundary
      ∧ (d.receiveAll (plot data p)).gddram = Function.update d.gddram (cellOf p) data := by
  rw [plot, Ssd1306.receiveAll_append, receiveAll_setCursor h, receiveAll_sendData]
  exact ⟨h, rfl⟩

/-- **A plot from such a display** ends between two commands. -/
theorem boundary_plot {d : Ssd1306} (hd : d.Steady) (data : U8) {p : U8 × U8} (hcol : Mild p.2)
    (h : p.1.toNat < 32) : (d.receiveAll (plot data p)).AtBoundary := by
  rw [plot, Ssd1306.receiveAll_append, receiveAll_sendData]
  exact boundary_setCursor hd hcol h

/-- **What arrives of a plot** leaves nothing open but a mild command. -/
theorem steady_plot {d : Ssd1306} (hd : d.Steady) {ts : List Transfer} {data : U8} {p : U8 × U8}
    (hcol : Mild p.2) (h : p.1.toNat < 32) (hts : ts.Sublist (plot data p)) :
    (d.receiveAll ts).Steady ∧ (d.receiveAll ts).mode = d.mode := by
  refine Ssd1306.steady_receiveAll hd (fun t ht hcommand => ?_)
  have hmild : ∀ t ∈ plot data p, t.1.getLsbD 6 = false → Mild t.2 := by
    have hpage := mild_page h
    simp only [plot, setCursor, sendCommand, sendData, List.cons_append, List.nil_append,
      List.forall_mem_cons]
    exact ⟨fun _ => by decide, fun _ => hcol, fun _ => by decide, fun _ => by decide,
      fun _ => hpage, fun _ => by decide, fun hdata => absurd hdata (by decide),
      fun _ hnil => absurd hnil List.not_mem_nil⟩
  exact hmild t (hts.subset ht) hcommand

/-- **A plot in a column with five parameters**, misread as a command, leaves four
of them given, and so does the next one after it. -/
theorem pending_misled {d : Ssd1306} {op : U8} {v : List U8} (h : d.pending = op :: v)
    (hop : Ssd1306.paramCount op = 5) (hv : v.length = 4) (data : U8) {p : U8 × U8}
    (hcol : Ssd1306.paramCount p.2 = 5) :
    (d.receiveAll (plot data p)).pending = [p.2, 127, 0x22, p.1, 7] := by
  simp only [plot, setCursor, Ssd1306.receiveAll_append, receiveAll_sendCommand,
    receiveAll_sendData, Ssd1306.pending_data, Ssd1306.pending_command]
  rw [h, Ssd1306.openAfter_cons, if_neg (by omega), Ssd1306.openAfter_nil, if_neg (by omega)]
  simp [Ssd1306.openAfter_cons, hcol]

/-- **A line that is never found again**: down a column with five parameters, once
the byte before the column is lost, no later plot ends between two commands. -/
theorem not_boundary_of_misled {d : Ssd1306} (h : d.AtBoundary) {q : Plot} {qs : List Plot}
    (hqs : ∀ r ∈ q :: qs, Ssd1306.paramCount r.1.2 = 5) :
    ¬ (d.receiveAll ((plot q.2 q.1).tail ++ plotted qs)).AtBoundary := by
  have hfirst : (d.receiveAll (plot q.2 q.1).tail).pending = [q.1.2, 127, 0x22, q.1.1, 7] := by
    have hcol := hqs q List.mem_cons_self
    rw [show (plot q.2 q.1).tail = sendCommand q.1.2 ++ sendCommand 127 ++ sendCommand 0x22
      ++ sendCommand q.1.1 ++ sendCommand 7 ++ sendData q.2 from rfl]
    simp only [Ssd1306.receiveAll_append, receiveAll_sendCommand, receiveAll_sendData,
      Ssd1306.pending_data, Ssd1306.pending_command]
    rw [show d.pending = [] from h, Ssd1306.openAfter_nil, if_neg (by omega)]
    simp [Ssd1306.openAfter_cons, hcol]
  have hrun : ∀ (e : Ssd1306) (q : Plot), e.pending = [q.1.2, 127, 0x22, q.1.1, 7] →
      (∀ r ∈ q :: qs, Ssd1306.paramCount r.1.2 = 5) →
      ¬ (e.receiveAll (plotted qs)).AtBoundary := by
    clear hfirst hqs
    induction qs with
    | nil =>
      intro e q he _ hboundary
      rw [show e.pending = [] from hboundary] at he
      exact absurd he (by simp)
    | cons r qs ih =>
      intro e q he hqs
      obtain ⟨hcol, hcols⟩ := List.forall_mem_cons.mp hqs
      rw [plotted_cons, Ssd1306.receiveAll_append]
      exact ih _ r (pending_misled he hcol rfl r.2 (hcols r List.mem_cons_self)) hcols
  rw [Ssd1306.receiveAll_append]
  exact hrun _ q hfirst hqs

/-! ## A probe from anywhere -/

/-- The commands of an initialisation after the first, from between two
commands. -/
theorem receiveAll_initTail {d : Ssd1306} (h : d.AtBoundary) :
    d.receiveAll (sendCommand 0x20 ++ sendCommand 0x00 ++ sendCommand 0x8D ++ sendCommand 0x14
        ++ sendCommand 0xA6 ++ sendCommand 0xAF) = { d with mode := .horizontal } := by
  have hfirst : d.command 0xAE = d := Ssd1306.command_single h rfl
  have hall := receiveAll_initCommands h
  simp only [initCommands, Ssd1306.receiveAll_append, receiveAll_sendCommand] at hall ⊢
  rwa [hfirst] at hall

/-- The commands of an initialisation, as bytes. -/
def initBytes : List U8 := [0xAE, 0x20, 0x00, 0x8D, 0x14, 0xA6, 0xAF]

theorem receiveAll_initBytes (d : Ssd1306) :
    d.receiveAll initCommands = initBytes.foldl Ssd1306.command d := by
  simp only [initBytes, initCommands, Ssd1306.receiveAll_append, receiveAll_sendCommand,
    List.foldl_cons, List.foldl_nil]

/-- Wherever they are cut after the second byte, the rest of them changes nothing. -/
theorem foldl_initRest {d : Ssd1306} (h : d.AtBoundary) {n : ℕ} (hn : 2 ≤ n) (hn' : n ≤ 6) :
    (initBytes.drop n).foldl Ssd1306.command d = d := by
  have hsingle : ∀ b : U8, Ssd1306.paramCount b = 0 → d.command b = d :=
    fun b hb => Ssd1306.command_single h hb
  have hpump := Ssd1306.command_chargePump h 0x14
  obtain rfl | rfl | rfl | rfl | rfl : n = 2 ∨ n = 3 ∨ n = 4 ∨ n = 5 ∨ n = 6 := by omega
  all_goals simp only [initBytes, List.drop_succ_cons, List.drop_zero, List.foldl_cons,
    List.foldl_nil]
  all_goals simp only [hsingle 0x00 rfl, hpump, hsingle 0x14 rfl, hsingle 0xA6 rfl,
    hsingle 0xAF rfl]

/-- **The commands of an initialisation, from anywhere**: they end between two
commands, and have set the mode unless both of its bytes are swallowed. -/
theorem initCommands_recover (d : Ssd1306) :
    (d.receiveAll initCommands).AtBoundary
      ∧ (d.receiveAll initCommands).mode = if 2 ≤ d.awaits then d.mode else .horizontal := by
  by_cases hawaits : 2 ≤ d.awaits
  · obtain ⟨op, v, hp⟩ : ∃ op v, d.pending = op :: v := by
      refine List.exists_cons_of_ne_nil (fun hnil => ?_)
      rw [Ssd1306.awaits, hnil] at hawaits
      exact absurd hawaits (by decide)
    have hcount : d.awaits = Ssd1306.paramCount op - v.length := by rw [Ssd1306.awaits, hp]
    have hle := Ssd1306.paramCount_le op
    generalize hn : d.awaits = n at hawaits hcount
    have hop : op ≠ 0x20 := by
      rintro rfl
      rw [show Ssd1306.paramCount 0x20 = 1 from rfl] at hcount
      omega
    have hlen : (initBytes.take n).length = n := by
      rw [List.length_take]
      exact Nat.min_eq_left (show n ≤ 7 by omega)
    obtain ⟨hboundary, hmode⟩ := Ssd1306.foldl_swallowed hp hop
      (List.ne_nil_of_length_pos (by rw [hlen]; omega)) (by rw [hlen]; omega)
    rw [receiveAll_initBytes, ← List.take_append_drop n initBytes, List.foldl_append,
      foldl_initRest hboundary hawaits (by omega), if_pos hawaits]
    exact ⟨hboundary, hmode⟩
  · have hboundary : (d.command 0xAE).AtBoundary := Ssd1306.boundary_command (by omega) rfl
    have htail := receiveAll_initTail hboundary
    have hall : d.receiveAll initCommands = { d.command 0xAE with mode := .horizontal } := by
      rw [← htail]
      simp only [initCommands, Ssd1306.receiveAll_append, receiveAll_sendCommand]
    rw [hall, if_neg hawaits]
    exact ⟨hboundary, rfl⟩

/-- A run of plots from between two commands, in any mode. -/
theorem plotted_of_boundary {d : Ssd1306} (h : d.AtBoundary) (qs : List Plot) :
    (d.receiveAll (plotted qs)).AtBoundary
      ∧ (d.receiveAll (plotted qs)).gddram
        = Stores.storeAll d.gddram (qs.map fun q => (cellOf q.1, q.2)) := by
  induction qs generalizing d with
  | nil => exact ⟨h, rfl⟩
  | cons q qs ih =>
    obtain ⟨hboundary, hgddram⟩ := plot_of_boundary h q.2 q.1
    rw [plotted_cons, Ssd1306.receiveAll_append, (ih hboundary).2, hgddram]
    exact ⟨(ih hboundary).1, rfl⟩

/-- **A probe recovers the display.** Whatever state the display was left in, in the
midst of whatever command, a probe whose transfers all arrive leaves it between
two commands; in horizontal mode exactly if at most one byte was awaited or that
was its mode before; and, where the mode is then one with a window, with its box
drawn byte for byte. -/
theorem probe_recovers (d : Ssd1306) :
    (d.receiveAll OledI2cdrv.oledInitSequence).AtBoundary
      ∧ ((d.receiveAll OledI2cdrv.oledInitSequence).mode = .horizontal
        ↔ (2 ≤ d.awaits → d.mode = .horizontal))
      ∧ ((d.receiveAll OledI2cdrv.oledInitSequence).mode ≠ .page →
        ∀ q ∈ (boxStores 27 14 100 50).map Prod.fst,
          (d.receiveAll OledI2cdrv.oledInitSequence).gddram q
            = Stores.storeAll (fun _ => 0) (boxStores 27 14 100 50) q) := by
  obtain ⟨hinit, hmode⟩ := initCommands_recover d
  obtain ⟨hboundary, hkeeps⟩ := OledI2cdrv.Bus.boundary_mode_data (d.receiveAll initCommands)
    (List.replicate (1024 : BitVec 32).toNat 0x00)
  have hbox : drawBox 27 14 100 50 = plotted (boxPlots 27 14 100 50) :=
    drawBox_eq 27 14 50 (by decide)
  have hstores : (boxPlots 27 14 100 50).map (fun q => (cellOf q.1, q.2))
      = boxStores 27 14 100 50 := by
    rw [boxStores_eq]
    refine List.map_congr_left fun q hq => ?_
    obtain ⟨hpage, hcol⟩ := (boxPlots_visible_iff 27 14 100 50).mpr (by decide) q hq
    rw [cellOf_eq hpage hcol]
  have hall : d.receiveAll OledI2cdrv.oledInitSequence
      = ((List.replicate (1024 : BitVec 32).toNat 0x00).foldl Ssd1306.data
          (d.receiveAll initCommands)).receiveAll (plotted (boxPlots 27 14 100 50)) := by
    rw [← hbox, receiveAll_oledInitSequence, Ssd1306.receiveAll_append,
      receiveAll_stream (1024 : BitVec 32) (by simp)]
  rw [hall]
  generalize (List.replicate (1024 : BitVec 32).toNat 0x00).foldl Ssd1306.data
    (d.receiveAll initCommands) = e at *
  obtain ⟨hlast, hgddram⟩ := plotted_of_boundary (hboundary.mpr hinit) (boxPlots 27 14 100 50)
  refine ⟨hlast, ?_, fun _ q hq => ?_⟩
  · have hplots : (e.receiveAll (plotted (boxPlots 27 14 100 50))).mode = e.mode :=
      OledI2cdrv.Bus.mode_plots (hboundary.mpr hinit) _
    rw [hplots, hkeeps, hmode]
    by_cases hawaits : 2 ≤ d.awaits
    · rw [if_pos hawaits]
      exact ⟨fun h _ => h, fun h => h hawaits⟩
    · rw [if_neg hawaits]
      exact iff_of_true rfl (fun h => absurd h hawaits)
  · rw [hgddram, hstores]
    exact Stores.storeAll_of_mem _ _ hq

end Oled
