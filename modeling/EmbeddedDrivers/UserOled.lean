import EmbeddedDrivers.UserPrograms

/-!
# The animation and its program

`i2c_user_oled.c` as a whole, from its call of `open` to what it leaves on the
display. Two things come together. The program drops what its writes return, so
it says the same to every bus and returns 0 when all of them have failed
(`leaves_i2cUserOled`). And its clears do not clear: on the pages between the
upper and the lower edge of the boxes what was drawn stays.

What is left there is a comb. The edges of the boxes come every five columns;
those of the last boxes lie off the screen and come back at its left two columns
beside the others; and the box of the initialisation has its edges on two of
these columns already.
-/

namespace User

open Dialogue

/-! ## The transfers of the loop -/

/-- **The loop of `main`** sends its frames, and 31 turns are enough. -/
theorem trace_mainBody :
    Loop.trace I2cUserOled.mainBody 31 0
      = (Oled.mainBoxes.flatMap fun x =>
          [I2cUserOled.oledClear, I2cUserOled.oledDrawBox x.1 20 x.2 40]).flatten := by
  have hedge : ∀ k < 30, I2cUserOled.leftEdge k < 150
      ∧ I2cUserOled.leftEdge k + 5 = I2cUserOled.leftEdge (k + 1) := by
    decide
  have hturn : ∀ k < 30, I2cUserOled.mainBody (I2cUserOled.leftEdge k)
      = (I2cUserOled.oledClear ++ I2cUserOled.oledDrawBox (I2cUserOled.leftEdge k) 20
          (I2cUserOled.leftEdge k + 20) 40, some (I2cUserOled.leftEdge (k + 1))) := by
    intro k hk
    obtain ⟨hlt, hnext⟩ := hedge k hk
    rw [← hnext]
    exact if_pos hlt
  have hhalts := Loop.halts_of_turns I2cUserOled.leftEdge _ hturn (if_neg (by decide))
  refine (Loop.trace_of_halts hhalts le_rfl).trans ?_
  rw [Oled.mainBoxes, List.flatMap_map]
  induction List.range 30 with
  | nil => rfl
  | cons k ks ih =>
    rw [List.flatMap_cons, List.flatMap_cons, ih, List.flatten_append]
    simp

/-! ## The comb -/

/-- **The columns of the comb**: every fifth, and those that have come back at the
left. -/
def Tooth (col : ℕ) : Prop := col % 5 = 0 ∨ col % 5 = 2 ∧ col < 40

instance : DecidablePred Tooth := fun col =>
  inferInstanceAs (Decidable (col % 5 = 0 ∨ col % 5 = 2 ∧ col < 40))

/-- They are the columns of the edges of the boxes. -/
theorem mem_mainBoxes_edge {col : ℕ} (hcol : col < 128) :
    (∃ x ∈ Oled.mainBoxes, col = x.1.toNat % 128 ∨ col = x.2.toNat % 128) ↔ Tooth col := by
  have hedge : ∀ k < 30, (I2cUserOled.leftEdge k).toNat = 5 * k
      ∧ (I2cUserOled.leftEdge k + 20).toNat = 5 * k + 20 := by
    decide
  constructor
  · rintro ⟨x, hx, hx'⟩
    obtain ⟨k, hk, rfl⟩ := List.mem_map.mp hx
    obtain ⟨hleft, hright⟩ := hedge k (List.mem_range.mp hk)
    have hlt := List.mem_range.mp hk
    rw [hleft, hright] at hx'
    have hwrap (n : ℕ) (hn : n < 256) : n % 128 = n ∨ 128 ≤ n ∧ n % 128 = n - 128 := by omega
    have hleft' := hwrap (5 * k) (by omega)
    have hright' := hwrap (5 * k + 20) (by omega)
    unfold Tooth
    omega
  · intro htooth
    -- the box that has the column for an edge
    have hbox : ∃ k < 30, col = (5 * k) % 128 ∨ col = (5 * k + 20) % 128 := by
      rcases htooth with h | ⟨h, hlt⟩
      · exact ⟨col / 5, by omega, Or.inl (by omega)⟩
      · exact ⟨(col + 108) / 5, by omega, Or.inr (by omega)⟩
    obtain ⟨k, hk, hcolumn⟩ := hbox
    refine ⟨_, List.mem_map_of_mem (List.mem_range.mpr hk), ?_⟩
    obtain ⟨hleft, hright⟩ := hedge k hk
    rw [hleft, hright]
    exact hcolumn

/-- **What the transfers leave** on the two pages, on a display with any contents. -/
theorem gddram_main {d : Ssd1306} (h : d.Placed) {page col : ℕ} (hlo : 2 < page) (hhi : page < 5)
    (hcol : col < 128) :
    (d.receiveAll (I2cUserOled.oledInit ++ Loop.trace I2cUserOled.mainBody 31 0)).gddram (page, col)
      = if Tooth col then 0xFF
        else if d.window.Contains (page, col) then 0x00 else d.gddram (page, col) := by
  have hinit := Oled.addressed_boxInit (1024 : BitVec 16) rfl h
  obtain ⟨haddr, hwindow, -⟩ := Oled.box_leaves hinit
  have hrow : (40 / 8 : Oled.U8).toNat
      ≤ ((d.receiveAll (Oled.initCommands ++ Oled.stream (1024 : BitVec 16) 0x00)).receiveAll
          (Oled.drawBox 27 14 100 50)).window.rowStart := by
    rw [hwindow]
    decide
  obtain ⟨-, -, hcleared⟩ :=
    Oled.receiveAll_stream_fills (1024 : BitVec 16) rfl (Oled.addressed_initCommands h) 0x00
  have htrail := Oled.frames_trail haddr (show (40 : Oled.U8).toNat < 64 by decide)
    (show (20 / 8 : Oled.U8).toNat ≤ (40 / 8 : Oled.U8).toNat by decide) hrow
    (Oled.frames_sends 20 40 Oled.mainBoxes_lt)
  have hbox := Oled.gddram_drawBox_between hinit 27 14
    (show (100 : Oled.U8).toNat < 255 by decide) (show (50 : Oled.U8).toNat < 64 by decide)
    (show (14 / 8 : Oled.U8).toNat < page from (show 1 < page by omega))
    (show page < (50 / 8 : Oled.U8).toNat from (show page < 6 by omega)) col
  rw [Ssd1306.receiveAll_append, Oled.receiveAll_oledInit, trace_mainBody,
    htrail.2.2 page col hlo hhi, if_congr (mem_mainBoxes_edge hcol) rfl rfl]
  by_cases htooth : Tooth col
  · rw [if_pos htooth, if_pos htooth]
  · have hedge : ¬ (col = (27 : Oled.U8).toNat % 128 ∨ col = (100 : Oled.U8).toNat % 128) := by
      rintro (rfl | rfl) <;> exact htooth (by decide)
    rw [if_neg htooth, if_neg htooth, hbox, if_neg hedge, Ssd1306.receiveAll_append, hcleared,
      Oled.receiveAll_initCommands h.boundary]

/-! ## From the program to the display -/

/-- What reaches the display: the transfers of which both bytes were written. -/
def arrived (ws : List (List Oled.U8 × ℤ)) : List Oled.Transfer :=
  ws.filterMap fun w =>
    match w with
    | ([c, b], 2) => some (c, b)
    | _ => none

/-- Where none has failed, all of them. -/
theorem arrived_eq {ws : List (List Oled.U8 × ℤ)} {ts : List Oled.Transfer}
    (hws : ws.map Prod.fst = ts.map fun t => [t.1, t.2]) (hall : ∀ w ∈ ws, w.2 = 2) :
    arrived ws = ts := by
  induction ws generalizing ts with
  | nil => exact (List.map_eq_nil_iff.mp hws.symm).symm
  | cons w ws ih =>
    cases ts with
    | nil => exact absurd hws (List.cons_ne_nil _ _)
    | cons t ts =>
      obtain ⟨bs, r⟩ := w
      obtain ⟨hfirst, hrest⟩ := List.cons.inj hws
      obtain ⟨rfl, hall'⟩ := List.forall_mem_cons.mp hall
      obtain rfl : bs = [t.1, t.2] := hfirst
      exact congrArg (t :: ·) (ih hrest hall')

/-- Its answers. -/
def ready : (c : Sys) → Answer c
  | .openFile _ => (3 : ℤ)
  | .ioctl _ _ => (0 : ℤ)
  | .spiMessage _ tx _ _ => ((tx.length : ℤ), tx.get)
  | .write _ buf => ⟨buf.length, le_rfl⟩
  | .read _ _ => some ⟨[], Nat.zero_le _⟩
  | .close _ | .printf _ | .perror _ | .sleep _ => ()

/-- It writes what it is given. -/
theorem written_ready {s s' : Session} {e : Exchange Answer} (he : e.2 = ready e.1)
    (hstep : Session.step s e = some s') (h : ∀ w ∈ s.written, w.2 = w.1.length) :
    ∀ w ∈ s'.written, w.2 = w.1.length := by
  obtain ⟨c, x⟩ := e
  obtain rfl : x = ready c := he
  cases c with
  | printf | perror | sleep => exact Option.some.inj hstep ▸ h
  | openFile | ioctl | spiMessage | read | close =>
    obtain ⟨-, hs'⟩ := Option.ite_none_right_eq_some.mp hstep
    exact Option.some.inj hs' ▸ h
  | write fd buf =>
    obtain ⟨-, hs'⟩ := Option.ite_none_right_eq_some.mp hstep
    obtain rfl := Option.some.inj hs'
    exact List.forall_mem_append.mpr ⟨h, List.forall_mem_singleton.mpr rfl⟩

end User
