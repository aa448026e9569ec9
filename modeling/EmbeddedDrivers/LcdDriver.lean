import EmbeddedDrivers.Loop
import EmbeddedDrivers.Strobe
import Mathlib.Algebra.GroupWithZero.Nat
import Mathlib.Data.Fin.VecNotation

/-!
# The character display driver: pins, bytes and strings

The lower half of `lcd_chrdrv.c`: how a byte reaches a 16×2 character display
over six GPIO lines, and how a string is made into bytes. Delays and log
lines have no part in what the display sees and are left out.

The functions fall into two layers, and the model keeps them apart.
`lcdCommand` and `lcdWrite8bit` drive lines: they are lists of line events.
Everything above them – the cursor, the clear, the string loop, the
initialisation – only calls those two, so it is a list of *calls*
(`LcdCall`), and its line events are those of the calls in order (`pins`).

The string loop is the one place where a length is decided, by a terminator
test made before a bound test on an 8-bit index. It is kept as the loop it
is, `sendBody`, and `calls_lcdSendString` says what comes of it: the bytes
before the first NUL, at most 32 of them, with one cursor jump before the
seventeenth. `string_output` says the same of an argument that is a string.
-/

/-- `uint8_t`, `u8` and the bytes of a `char` buffer. -/
abbrev Byte := BitVec 8

namespace Lcd

/-- The GPIO descriptors of the `lcd16x2` structure. -/
inductive Pin
  | rs | en | d4 | d5 | d6 | d7
  deriving DecidableEq

/-- One `gpiod_set_value` on one of the descriptors. -/
abbrev PinEvent := Strobe.Event Pin

/-- The levels of the six lines. -/
abbrev Levels := Strobe.Levels Pin

/-! ## Driving the lines -/

/-- A line is driven high by any value but zero; all of them are declared
active high in the device tree. -/
def gpiodSetValue (pin : Pin) (value : Byte) : List PinEvent := [⟨pin, value != 0⟩]

def RS (x : Byte) : List PinEvent := gpiodSetValue .rs x
def EN (x : Byte) : List PinEvent := gpiodSetValue .en x
def D4 (x : Byte) : List PinEvent := gpiodSetValue .d4 x
def D5 (x : Byte) : List PinEvent := gpiodSetValue .d5 x
def D6 (x : Byte) : List PinEvent := gpiodSetValue .d6 x
def D7 (x : Byte) : List PinEvent := gpiodSetValue .d7 x

/-- `lcd_enable_pulse`. -/
def lcdEnablePulse : List PinEvent := EN 1 ++ EN 0

/-- `lcd_write_char`: the high nibble and a pulse, the low nibble and a
pulse. -/
def lcdWriteChar (value : Byte) : List PinEvent :=
  D4 ((value >>> 4) &&& 0x01) ++ D5 ((value >>> 5) &&& 0x01)
    ++ D6 ((value >>> 6) &&& 0x01) ++ D7 ((value >>> 7) &&& 0x01)
    ++ lcdEnablePulse
    ++ (D4 ((value >>> 0) &&& 0x01) ++ D5 ((value >>> 1) &&& 0x01)
      ++ D6 ((value >>> 2) &&& 0x01) ++ D7 ((value >>> 3) &&& 0x01)
      ++ lcdEnablePulse)

/-- `lcd_command`. -/
def lcdCommand (value : Byte) : List PinEvent := RS 0 ++ lcdWriteChar value

/-- `lcd_write_8bit`. -/
def lcdWrite8bit (value : Byte) : List PinEvent := RS 1 ++ lcdWriteChar value

/-- **A call of one of the two functions that send a byte.** -/
inductive LcdCall
  | command (value : Byte)
  | data (value : Byte)
  deriving DecidableEq

/-- The line events of a call. -/
def LcdCall.pins : LcdCall → List PinEvent
  | .command value => lcdCommand value
  | .data value => lcdWrite8bit value

/-- The line events of a list of calls, in order. -/
def pins (calls : List LcdCall) : List PinEvent := calls.flatMap LcdCall.pins

@[simp] theorem pins_cons (c : LcdCall) (cs : List LcdCall) :
    pins (c :: cs) = c.pins ++ pins cs := rfl

/-! ## Cursor, clear, initialisation -/

/-- There is a first row. -/
instance neZero_rows : NeZero 2 := ⟨by decide⟩

/-- The DDRAM offsets of the two rows. -/
def rowOffsets : Fin 2 → Byte := ![0x00, 0x40]

/-- `lcd_set_cursor`. -/
def lcdSetCursor (col : Byte) (row : Fin 2) : List LcdCall :=
  [.command (0x80 ||| (col + rowOffsets row))]

/-- `lcd_clear`. -/
def lcdClear : List LcdCall := [.command 0x01]

/-- `lcd_init`. -/
def lcdInit : List LcdCall :=
  [.command 0x02, .command 0x28, .command 0x0C, .command 0x01, .command 0x06,
    .command 0x80]

/-! ## Sending a string -/

/-- What `lcd_send_string` does that can be seen from outside: it reads a
byte of its argument, or calls one of the functions that send a byte. -/
inductive SendStep
  | read (index : ℕ)
  | call (c : LcdCall)
  deriving DecidableEq

/-- The body of the `while` in `lcd_send_string`, at index `i`. The index is a
`uint8_t`; the operand of the log line in the last branch is read as well. -/
def sendBody (msg : ℕ → Byte) : Loop.Body (BitVec 8) SendStep := fun i =>
  if msg i.toNat = 0 then ([.read i.toNat], none)
  else if 32 ≤ i then ([.read i.toNat], none)
  else if i = 16 then
    -- the first row is full: the byte goes to the beginning of the second
    (.read i.toNat :: (lcdSetCursor 0 1).map .call
      ++ [.read i.toNat, .call (.data (msg i.toNat))], some (i + 1))
  else
    ([.read i.toNat, .read i.toNat, .read i.toNat, .call (.data (msg i.toNat))],
      some (i + 1))

/-- `lcd_send_string`, run for the 33 turns after which it has been left. -/
def lcdSendString (msg : ℕ → Byte) : List SendStep := Loop.trace (sendBody msg) 33 0

/-- The calls among the steps. -/
def sentCalls (steps : List SendStep) : List LcdCall :=
  steps.filterMap fun
    | .read _ => none
    | .call c => some c

/-- The indices read among the steps. -/
def readIndices (steps : List SendStep) : List ℕ :=
  steps.filterMap fun
    | .read i => some i
    | .call _ => none

theorem sentCalls_append (s t : List SendStep) :
    sentCalls (s ++ t) = sentCalls s ++ sentCalls t := List.filterMap_append

theorem readIndices_append (s t : List SendStep) :
    readIndices (s ++ t) = readIndices s ++ readIndices t := List.filterMap_append

/-- **A turn that leaves** is one at a NUL or at index 32, and sends nothing. -/
theorem sendBody_leave {msg : ℕ → Byte} {i : BitVec 8} (h : msg i.toNat = 0 ∨ 32 ≤ i) :
    (sendBody msg i).2 = none ∧ sentCalls (sendBody msg i).1 = [] := by
  unfold sendBody
  by_cases hz : msg i.toNat = 0
  · rw [if_pos hz]
    exact ⟨rfl, rfl⟩
  · rw [if_neg hz, if_pos (h.resolve_left hz)]
    exact ⟨rfl, rfl⟩

/-- **A turn that goes on** is any other one, and sends its byte. -/
theorem sendBody_turn {msg : ℕ → Byte} {i : BitVec 8} (hz : msg i.toNat ≠ 0) (hlt : ¬ 32 ≤ i) :
    (sendBody msg i).2 = some (i + 1)
      ∧ sentCalls (sendBody msg i).1
        = (if i.toNat = 16 then lcdSetCursor 0 1 else []) ++ [.data (msg i.toNat)] := by
  have h16 : i = 16 ↔ i.toNat = 16 := BitVec.toNat_inj.symm
  unfold sendBody
  rw [if_neg hz, if_neg hlt]
  by_cases h : i = 16
  · rw [if_pos h, if_pos (h16.mp h)]
    exact ⟨rfl, rfl⟩
  · rw [if_neg h, if_neg (fun hc => h (h16.mpr hc))]
    exact ⟨rfl, rfl⟩

/-- Either reads at its index and nowhere else. -/
theorem readIndices_sendBody (msg : ℕ → Byte) (i : BitVec 8) :
    ∀ j ∈ readIndices (sendBody msg i).1, j = i.toNat := by
  unfold sendBody
  split
  · simp [readIndices]
  · split
    · simp [readIndices]
    · split <;> simp [readIndices, lcdSetCursor]

/-- A turn that goes on is at no NUL, and at an index below 32, which it moves on
by one without wrapping. -/
theorem sendBody_next {msg : ℕ → Byte} {i j : BitVec 8} (h : (sendBody msg i).2 = some j) :
    msg i.toNat ≠ 0 ∧ i.toNat < 32 ∧ j.toNat = i.toNat + 1 := by
  have hgoes : ¬ (msg i.toNat = 0 ∨ 32 ≤ i) := fun hleave =>
    absurd (h.symm.trans (sendBody_leave hleave).1) (Option.some_ne_none j)
  obtain ⟨hz, hlt⟩ := not_or.mp hgoes
  have hnext : i.toNat < 32 ∧ (i + 1).toNat = i.toNat + 1 := by bv_omega
  obtain rfl : i + 1 = j := Option.some.inj ((sendBody_turn hz hlt).1.symm.trans h)
  exact ⟨hz, hnext⟩

/-- **The string loop is left**, whatever it is given, within its 33 turns. -/
theorem lcdSendString_halts (msg : ℕ → Byte) :
    ∃ n ≤ 33, Loop.Halts (sendBody msg) n 0 (lcdSendString msg) :=
  Loop.halts_of_measure (fun i : BitVec 8 => 32 - i.toNat)
    (fun i j h => by
      obtain ⟨-, hlt, hnext⟩ := sendBody_next h
      show 32 - j.toNat < 32 - i.toNat
      omega) 0

/-- **The text of a string argument**: the bytes before its first NUL, as far
as the loop looks. -/
def text (msg : ℕ → Byte) : List Byte := ((List.range 32).map msg).takeWhile (· ≠ 0)

theorem length_text_le (msg : ℕ → Byte) : (text msg).length ≤ 32 := by
  have h := (List.takeWhile_sublist (· ≠ 0) (l := (List.range 32).map msg)).length_le
  rw [List.length_map, List.length_range] at h
  exact h

/-- **The calls a text is shown by**: sixteen bytes on the first row, and the
others on the second, which is only turned to when there are others. -/
def textCalls (t : List Byte) : List LcdCall :=
  (t.take 16).map .data
    ++ if 16 < t.length then lcdSetCursor 0 1 ++ (t.drop 16).map .data else []

/-- The calls of a text from one index on, one byte at a time. -/
def layout : ℕ → List Byte → List LcdCall
  | _, [] => []
  | i, b :: bs => (if i = 16 then lcdSetCursor 0 1 else []) ++ .data b :: layout (i + 1) bs

/-- Past the jump the bytes are only sent. -/
theorem layout_of_gt {i : ℕ} (hi : 16 < i) (t : List Byte) : layout i t = t.map .data := by
  induction t generalizing i with
  | nil => rfl
  | cons b bs ih =>
    rw [layout, if_neg (by omega), ih (by omega)]
    rfl

/-- Up to the jump they are sent in two pieces. -/
theorem layout_of_le {i : ℕ} (hi : i ≤ 16) (t : List Byte) :
    layout i t = (t.take (16 - i)).map .data
      ++ if 16 - i < t.length then lcdSetCursor 0 1 ++ (t.drop (16 - i)).map .data else [] := by
  induction t generalizing i with
  | nil => simp [layout]
  | cons b bs ih =>
    rw [layout]
    by_cases h16 : i = 16
    · subst h16
      rw [layout_of_gt (by omega)]
      simp
    · rw [if_neg h16, ih (by omega), show 16 - i = (16 - (i + 1)) + 1 from by omega,
        List.take_succ_cons, List.drop_succ_cons, List.length_cons]
      simp

theorem layout_zero (t : List Byte) : layout 0 t = textCalls t := layout_of_le (by omega) t

/-- The loop from an index on sends the text from there on: one step of the
`takeWhile` for each turn of the loop. -/
theorem sentCalls_trace (msg : ℕ → Byte) (k : ℕ) (i : BitVec 8) (hi : i.toNat + k = 32) :
    sentCalls (Loop.trace (sendBody msg) (k + 1) i)
      = layout i.toNat (((List.range' i.toNat k).map msg).takeWhile (· ≠ 0)) := by
  induction k generalizing i with
  | zero =>
    -- at index 32 the loop is left, whether or not the string has ended
    have h32 : 32 ≤ i := by rw [BitVec.le_def]; exact hi.ge
    obtain ⟨hleave, hnone⟩ : (sendBody msg i).2 = none ∧ sentCalls (sendBody msg i).1 = [] :=
      sendBody_leave (.inr h32)
    rw [Loop.trace_leave hleave, hnone]
    rfl
  | succ k ih =>
    rw [List.range'_succ, List.map_cons]
    by_cases hz : msg i.toNat = 0
    · obtain ⟨hleave, hnone⟩ := sendBody_leave (.inl hz)
      rw [Loop.trace_leave hleave, hnone, List.takeWhile_cons_of_neg (by simpa using hz)]
      rfl
    · have hlt : ¬ 32 ≤ i := by
        rw [BitVec.le_def]
        show ¬ 32 ≤ i.toNat
        omega
      obtain ⟨hnext, hout⟩ := sendBody_turn hz hlt
      have hi' : (i + 1).toNat = i.toNat + 1 := (sendBody_next hnext).2.2
      rw [Loop.trace_turn hnext, sentCalls_append, ih (i + 1) (by omega), hout, hi',
        List.takeWhile_cons_of_pos (by simpa using hz), layout, List.append_assoc]
      rfl

/-- **What `lcd_send_string` sends** is its text: the bytes before the first
NUL, at most 32, with a jump to the second row before the seventeenth. -/
theorem calls_lcdSendString (msg : ℕ → Byte) :
    sentCalls (lcdSendString msg) = textCalls (text msg) := by
  have h := sentCalls_trace msg 32 0 rfl
  rw [show (0 : BitVec 8).toNat = 0 from rfl, layout_zero, ← List.range_eq_range'] at h
  exact h

/-- Every index the loop reads is at most that of a NUL, or 32. -/
theorem readIndices_trace_le {msg : ℕ → Byte} {last : ℕ} (hlast : msg last = 0 ∨ 32 ≤ last)
    (fuel : ℕ) (i : BitVec 8) (hi : i.toNat ≤ last) :
    ∀ j ∈ readIndices (Loop.trace (sendBody msg) fuel i), j ≤ last := by
  induction fuel generalizing i with
  | zero => exact fun j hj => absurd hj List.not_mem_nil
  | succ fuel ih =>
    have hout : ∀ j ∈ readIndices (sendBody msg i).1, j ≤ last :=
      fun j hj => readIndices_sendBody msg i j hj ▸ hi
    cases h : (sendBody msg i).2 with
    | none =>
      rw [Loop.trace_leave h]
      exact hout
    | some i' =>
      obtain ⟨hz, hlt, hnext⟩ := sendBody_next h
      -- the turn goes on, so the loop has come neither to the NUL nor to 32
      have hne : i.toNat ≠ last := by
        rintro rfl
        exact hlast.elim hz (by omega)
      rw [Loop.trace_turn h, readIndices_append]
      intro j hj
      rcases List.mem_append.mp hj with hj | hj
      · exact hout j hj
      · exact ih i' (by omega) j hj

/-- **`lcd_send_string` reads within 33 bytes**, NUL or no NUL. -/
theorem readIndices_lcdSendString_le (msg : ℕ → Byte) :
    ∀ j ∈ readIndices (lcdSendString msg), j ≤ 32 :=
  readIndices_trace_le (.inr le_rfl) 33 0 (by decide)

/-! ## The argument as a string -/

/-- **A string argument**: the memory it points to begins with these bytes,
none of them NUL, and then there is a NUL, unless there are 33 of them. -/
structure StringArgument (msg : ℕ → Byte) (s : List Byte) : Prop where
  bytes : ∀ i (h : i < s.length), msg i = s[i]
  ne_zero : ∀ b ∈ s, b ≠ 0
  ended : msg s.length = 0 ∨ 33 ≤ s.length

/-- The bytes before the first NUL, from an index within the string on, are
those of the string. -/
theorem takeWhile_map_range' {msg : ℕ → Byte} {s : List Byte} (h : StringArgument msg s)
    {i k : ℕ} (hi : i ≤ s.length) (hk : msg s.length = 0 ∨ i + k ≤ s.length) :
    ((List.range' i k).map msg).takeWhile (· ≠ 0) = (s.drop i).take k := by
  induction k generalizing i with
  | zero => rw [List.take_zero, List.range'_zero, List.map_nil, List.takeWhile_nil]
  | succ k ih =>
    rw [List.range'_succ, List.map_cons]
    by_cases hlt : i < s.length
    · have hne : msg i ≠ 0 := h.bytes i hlt ▸ h.ne_zero _ (List.getElem_mem hlt)
      rw [List.takeWhile_cons_of_pos (by simpa using hne), List.drop_eq_getElem_cons hlt,
        List.take_succ_cons, h.bytes i hlt, ih hlt (hk.imp_right (by omega))]
    · -- the index is that of the NUL
      obtain rfl : i = s.length := by omega
      have hz : msg s.length = 0 := hk.resolve_right (by omega)
      rw [List.takeWhile_cons_of_neg (by simpa using hz), List.drop_length, List.take_nil]

/-- The text of a string is what of it fits the display. -/
theorem text_eq_take {msg : ℕ → Byte} {s : List Byte} (h : StringArgument msg s) :
    text msg = s.take 32 := by
  rw [text, List.range_eq_range',
    takeWhile_map_range' h (Nat.zero_le _) (h.ended.imp_right (by omega)), List.drop_zero]

/-- **The string loop.** On a NUL-terminated string of any length, and on 33
bytes without a NUL, `lcd_send_string` terminates, reads up to the NUL or index
32, whichever comes first, and sends the first sixteen bytes and then, if there
are more, the cursor command for the second row and the next sixteen. -/
theorem string_output {msg : ℕ → Byte} {s : List Byte} (h : StringArgument msg s) :
    Loop.Ends (sendBody msg) 0 (lcdSendString msg)
      ∧ (∀ j ∈ readIndices (lcdSendString msg), j ≤ min s.length 32)
      ∧ sentCalls (lcdSendString msg)
          = (s.take 16).map .data
            ++ if 16 < s.length then .command 0xC0 :: ((s.take 32).drop 16).map .data else [] := by
  obtain ⟨n, -, hhalts⟩ := lcdSendString_halts msg
  refine ⟨⟨n, hhalts⟩, fun j hj => le_min ?_ (readIndices_lcdSendString_le msg j hj), ?_⟩
  · have hlast : msg s.length = 0 ∨ 32 ≤ s.length := h.ended.imp_right (by omega)
    exact readIndices_trace_le hlast 33 0 (Nat.zero_le _) j hj
  · have hlength : 16 < (s.take 32).length ↔ 16 < s.length := by
      rw [List.length_take]
      omega
    rw [calls_lcdSendString, text_eq_take h, textCalls, List.take_take, if_congr hlength rfl rfl]
    rfl

/-- Seventeen bytes and a NUL, whatever follows them in memory. -/
theorem string_output_seventeen :
    (∀ j ∈ readIndices (lcdSendString fun i => if i = 17 then 0 else 0x41), j ≤ 17)
      ∧ sentCalls (lcdSendString fun i => if i = 17 then 0 else 0x41)
          = List.replicate 16 (.data 0x41) ++ [.command 0xC0, .data 0x41] :=
  (string_output (s := List.replicate 17 0x41)
    ⟨by decide, fun b hb => List.eq_of_mem_replicate hb ▸ by decide, .inl rfl⟩).2

end Lcd
