import Mathlib.Data.List.Basic
import Mathlib.Logic.Function.Basic
import Mathlib.Tactic.Common

/-!
# The HD44780 display controller

The controller a 16×2 character display is built around, as far as a host
that only writes can tell: an interface that is eight or four bits wide, a
display memory with an address counter, and the settings the instructions
change.

What makes the controller hard to talk to is its interface. In eight-bit mode
every strobe is an instruction; over four wires the low half of it is then
read as zero. In four-bit mode two strobes make a byte, so the controller has
a *phase* as well – it may be holding a high nibble whose low nibble has not
come. And the mode is itself changed by an instruction, so which strobes pair
up depends on what the earlier ones were read as. `Phase` holds the mode and
the held nibble together, and `phase_latch` says that it evolves on its own,
whatever the settings and the memory are: a finite automaton, of which
questions about synchronisation are questions.

On a byte boundary the controller is a memory device, and `writeAll_eq`
gives what a run of data bytes leaves in it.
-/

/-- **The interface**: eight bits wide, or four bits wide with the high
nibble it may be holding. -/
inductive Hd44780.Phase
  | eight
  | four (held : Option (BitVec 4))
  deriving DecidableEq

/-- **The controller.** -/
structure Hd44780 where
  /-- The interface mode and phase. -/
  phase : Hd44780.Phase
  /-- Two display lines rather than one (`N`). -/
  twoLine : Bool
  /-- The display, its cursor and the cursor's blinking (`D`, `C`, `B`). -/
  displayOn : Bool
  cursorOn : Bool
  blinkOn : Bool
  /-- The entry mode: the counter goes up (`I/D`), the display shifts (`S`). -/
  increment : Bool
  shift : Bool
  /-- The address counter, and whether it points into character-generator
  memory. -/
  addr : ℕ
  inCgram : Bool
  /-- The display memory, by address. -/
  ddram : ℕ → BitVec 8

namespace Hd44780

/-! ## Instructions and data -/

/-- The address after an address: the two lines are 40 cells each, and the
counter goes from the end of one to the beginning of the other; a single line
has 80. Character-generator memory has 64. -/
def nextAddr (c : Hd44780) : ℕ :=
  if c.inCgram then (c.addr + 1) % 0x40
  else if c.twoLine then
    if c.addr = 0x27 then 0x40 else if c.addr = 0x67 then 0 else (c.addr + 1) % 0x80
  else if c.addr = 0x4F then 0 else (c.addr + 1) % 0x80

/-- The address before an address. -/
def prevAddr (c : Hd44780) : ℕ :=
  if c.inCgram then (c.addr + 0x3F) % 0x40
  else if c.twoLine then
    if c.addr = 0x40 then 0x27 else if c.addr = 0 then 0x67 else (c.addr + 0x7F) % 0x80
  else if c.addr = 0 then 0x4F else (c.addr + 0x7F) % 0x80

/-- **An instruction**, decoded by its leading one. -/
def exec (c : Hd44780) (v : BitVec 8) : Hd44780 :=
  if v.getLsbD 7 then { c with addr := v.toNat - 0x80, inCgram := false }
  else if v.getLsbD 6 then { c with addr := v.toNat - 0x40, inCgram := true }
  else if v.getLsbD 5 then
    { c with phase := if v.getLsbD 4 then .eight else .four none, twoLine := v.getLsbD 3 }
  else if v.getLsbD 4 then
    -- a cursor move steps the counter, a display shift leaves memory alone
    if v.getLsbD 3 then c
    else { c with addr := if v.getLsbD 2 then c.nextAddr else c.prevAddr }
  else if v.getLsbD 3 then
    { c with displayOn := v.getLsbD 2, cursorOn := v.getLsbD 1, blinkOn := v.getLsbD 0 }
  else if v.getLsbD 2 then { c with increment := v.getLsbD 1, shift := v.getLsbD 0 }
  else if v.getLsbD 1 then { c with addr := 0, inCgram := false }
  else if v.getLsbD 0 then
    { c with ddram := fun _ => 0x20, addr := 0, inCgram := false, increment := true }
  else c

/-- **A data byte**: stored at the counter, which then moves. -/
def write (c : Hd44780) (v : BitVec 8) : Hd44780 :=
  { c with
    ddram := if c.inCgram then c.ddram else Function.update c.ddram c.addr v
    addr := if c.increment then c.nextAddr else c.prevAddr }

/-- A whole byte, with the register-select level it came with. -/
def accept (c : Hd44780) (rs : Bool) (v : BitVec 8) : Hd44780 :=
  if rs then c.write v else c.exec v

/-- **One strobe.** In eight-bit mode it is a byte, the four unwired data
lines reading zero. In four-bit mode it is held, or completes what is held;
register select is read with the completing strobe. -/
def latch (c : Hd44780) (rs : Bool) (n : BitVec 4) : Hd44780 :=
  match c.phase with
  | .eight => c.accept rs (n ++ 0#4)
  | .four none => { c with phase := .four (some n) }
  | .four (some h) => { c with phase := .four none }.accept rs (h ++ n)

/-! ## The interface on its own -/

/-- What an instruction makes of the interface. -/
def Phase.accept (p : Phase) (rs : Bool) (v : BitVec 8) : Phase :=
  if !rs && !v.getLsbD 7 && !v.getLsbD 6 && v.getLsbD 5 then
    if v.getLsbD 4 then .eight else .four none
  else p

/-- What a strobe makes of the interface. -/
def Phase.latch (p : Phase) (rs : Bool) (n : BitVec 4) : Phase :=
  match p with
  | .eight => Phase.accept .eight rs (n ++ 0#4)
  | .four none => .four (some n)
  | .four (some h) => Phase.accept (.four none) rs (h ++ n)

theorem phase_accept (c : Hd44780) (rs : Bool) (v : BitVec 8) :
    (c.accept rs v).phase = c.phase.accept rs v := by
  cases rs with
  | true => rfl
  | false =>
    -- the leading one decides, and only at bit 5 does it touch the interface
    unfold accept exec Phase.accept
    rw [if_neg Bool.false_ne_true]
    cases h7 : v.getLsbD 7 with
    | true => simp
    | false =>
      cases h6 : v.getLsbD 6 with
      | true => simp
      | false =>
        cases h5 : v.getLsbD 5 with
        | true => simp
        | false =>
          rw [if_neg Bool.false_ne_true, if_neg Bool.false_ne_true,
            if_neg Bool.false_ne_true, Bool.and_false, if_neg Bool.false_ne_true]
          split_ifs <;> rfl

/-- **The interface evolves on its own.** -/
theorem phase_latch (c : Hd44780) (rs : Bool) (n : BitVec 4) :
    (c.latch rs n).phase = c.phase.latch rs n := by
  unfold latch Phase.latch
  cases h : c.phase with
  | eight =>
    show (c.accept rs (n ++ 0#4)).phase = _
    rw [phase_accept, h]
  | four held =>
    cases held with
    | none => rfl
    | some hi =>
      show ({ c with phase := .four none }.accept rs (hi ++ n)).phase = _
      rw [phase_accept]

/-- A run of strobes, each with its register-select level. -/
def strobes (c : Hd44780) (ss : List (Bool × BitVec 4)) : Hd44780 :=
  ss.foldl (fun c s => c.latch s.1 s.2) c

/-- The same run on the interface alone. -/
def Phase.strobes (p : Phase) (ss : List (Bool × BitVec 4)) : Phase :=
  ss.foldl (fun p s => p.latch s.1 s.2) p

theorem strobes_append (c : Hd44780) (ss ts : List (Bool × BitVec 4)) :
    c.strobes (ss ++ ts) = (c.strobes ss).strobes ts := List.foldl_append

theorem phase_strobes (c : Hd44780) (ss : List (Bool × BitVec 4)) :
    (c.strobes ss).phase = c.phase.strobes ss := by
  induction ss generalizing c with
  | nil => rfl
  | cons s ss ih =>
    show ((c.latch s.1 s.2).strobes ss).phase = (c.phase.latch s.1 s.2).strobes ss
    rw [ih, phase_latch]

/-! ## On a byte boundary -/

/-- The controller is in four-bit mode and holds no nibble. -/
def Synced (c : Hd44780) : Prop := c.phase = .four none

instance (c : Hd44780) : Decidable c.Synced := inferInstanceAs (Decidable (_ = _))

/-- **On a byte boundary two strobes are a byte.** -/
theorem latch_latch {c : Hd44780} (h : c.Synced) (rs rs' : Bool) (hi lo : BitVec 4) :
    (c.latch rs hi).latch rs' lo = c.accept rs' (hi ++ lo) := by
  have hfst : c.latch rs hi = { c with phase := .four (some hi) } := by
    unfold latch
    rw [h]
  rw [hfst]
  show ({ c with phase := .four none } : Hd44780).accept rs' (hi ++ lo) = _
  rw [← h]

/-- A run of data bytes. -/
def writeAll (c : Hd44780) (vs : List (BitVec 8)) : Hd44780 := vs.foldl Hd44780.write c

/-- **A data byte** in display memory, with the counter going up and not at the
end of a line. -/
theorem write_eq {c : Hd44780} (hinc : c.increment = true) (hcg : c.inCgram = false)
    (htwo : c.twoLine = true) (hend : c.addr + 1 ≤ 0x27 ∨ 0x40 ≤ c.addr ∧ c.addr + 1 ≤ 0x67)
    (v : BitVec 8) :
    c.write v = { c with addr := c.addr + 1, ddram := Function.update c.ddram c.addr v } := by
  have hnext : c.nextAddr = c.addr + 1 := by
    rw [nextAddr, hcg, htwo, if_neg Bool.false_ne_true, if_pos rfl, if_neg (by omega),
      if_neg (by omega), Nat.mod_eq_of_lt (by omega)]
  rw [write, hinc, hcg, if_neg Bool.false_ne_true, if_pos rfl, hnext]

/-- A byte and the run of bytes behind it, as one run. -/
theorem update_run (m : ℕ → BitVec 8) (start : ℕ) (v : BitVec 8) (vs : List (BitVec 8)) :
    (fun a => if start + 1 ≤ a ∧ a < start + 1 + vs.length then vs.getD (a - (start + 1)) 0
        else Function.update m start v a)
      = fun a => if start ≤ a ∧ a < start + (v :: vs).length then (v :: vs).getD (a - start) 0
        else m a := by
  funext a
  rw [List.length_cons]
  rcases Nat.lt_trichotomy a start with hlt | rfl | hgt
  · rw [if_neg (by omega), if_neg (by omega), Function.update_of_ne (by omega)]
  · rw [if_neg (by omega), if_pos (by omega), Function.update_self, Nat.sub_self,
      List.getD_cons_zero]
  · obtain ⟨k, rfl⟩ := Nat.exists_eq_add_of_lt hgt
    rw [show start + k + 1 - start = k + 1 from by omega, List.getD_cons_succ,
      show start + k + 1 - (start + 1) = k from by omega, Function.update_of_ne (by omega)]
    exact if_congr (by omega) rfl rfl

/-- **What a run of data bytes leaves.** Counting up in display memory, with
the end of a line not among the addresses before the last, the bytes stand at
consecutive addresses from the counter on, no other cell changes and neither
does a setting. -/
theorem writeAll_eq {c : Hd44780} (hinc : c.increment = true) (hcg : c.inCgram = false)
    (htwo : c.twoLine = true) (vs : List (BitVec 8))
    (hend : c.addr + vs.length ≤ 0x27 ∨ 0x40 ≤ c.addr ∧ c.addr + vs.length ≤ 0x67) :
    c.writeAll vs
      = { c with
          addr := c.addr + vs.length
          ddram := fun a =>
            if c.addr ≤ a ∧ a < c.addr + vs.length then vs.getD (a - c.addr) 0
            else c.ddram a } := by
  induction vs generalizing c with
  | nil =>
    have hmem : (fun a => if c.addr ≤ a ∧ a < c.addr then ([] : List (BitVec 8)).getD
        (a - c.addr) 0 else c.ddram a) = c.ddram := by
      funext a
      exact if_neg (by omega)
    rw [List.length_nil, Nat.add_zero, hmem]
    rfl
  | cons v vs ih =>
    rw [List.length_cons] at hend
    have hwrite := write_eq hinc hcg htwo (by omega) v
    have hrest := ih (c := c.write v) hinc hcg htwo (by rw [hwrite]; dsimp only; omega)
    rw [writeAll, List.foldl_cons]
    refine hrest.trans ?_
    rw [hwrite]
    show ({ c with addr := c.addr + 1 + vs.length, ddram := _ } : Hd44780) = _
    rw [update_run, List.length_cons, Nat.add_right_comm, Nat.add_assoc]

end Hd44780
