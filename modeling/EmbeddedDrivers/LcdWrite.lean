import EmbeddedDrivers.LcdDriver
import EmbeddedDrivers.LineBuffer
import EmbeddedDrivers.Memory
import Mathlib.Algebra.Group.Int.Defs

/-!
# Writing to the character device

`lcd_write`, the only way into the driver from user space, and what it is
for. The function keeps two static variables, a 33-byte buffer and the number
of bytes in it; a write appends what still fits, and when the buffer then ends
with a newline its text is displayed and the count goes back to zero.

The function is modelled as it is written, on unbounded memory around the
buffer (`EmbeddedDrivers.Memory`) and with the conversions C makes between
`size_t` and `int`, and it is cut in two where it may sleep: what it reads and
fixes before `copy_from_user` (`lcdWriteEnter`), and what it does when the
copy is over (`lcdWriteFinish`). A call that nothing interrupts is the one
after the other.

What it is for is a line buffer, and that is the abstract model: the pending
bytes are a `LineBuffer` of 33 bytes, a call is a `put`, a fault empties it.
`lcdWrite_meets` is the refinement: as long as the call has a byte to look at,
the function does to its static variables what the line buffer does, shows
what the line buffer hands over, and touches no byte outside the buffer. All
later results about sequences of calls are drawn from it.
-/

namespace Lcd

open Memory

/-! ## The call and its arithmetic -/

/-- `sizeof(kbuf)`. -/
abbrev kbufSize : ℕ := 33

/-- The newline character. -/
abbrev newline : Byte := 0x0A

def ENODEV : ℤ := 19
def EFAULT : ℤ := 14

/-- Conversion to `size_t`, 32 bits wide on this board. -/
def toSize (z : ℤ) : ℕ := (z % 2 ^ 32).toNat

/-- Conversion to `int`, and to `ssize_t`, which is as wide. -/
def toInt (z : ℤ) : ℤ := z.bmod (2 ^ 32)

/-- **The result of `copy_from_user`**: everything was copied, or something
was not, and then anything may stand in the destination range – it is given
here from its start, and stays as it was where nothing is given. -/
inductive Copied
  | all
  | fault (left : List Byte)
  deriving DecidableEq

/-- **A call of `lcd_write`**: the caller's buffer, whose length is the `len`
argument, and what becomes of the copy. -/
structure WriteCall where
  buf : List Byte
  copied : Copied
  /-- The length is a `size_t`. -/
  isSize : buf.length < 2 ^ 32

/-- `len`. -/
def WriteCall.len (call : WriteCall) : ℕ := call.buf.length

/-- **The static variables of `lcd_write`**: the fill count, and the buffer
with the memory around it. -/
structure Statics where
  pos : ℤ
  kbuf : ℤ → Byte

/-- The bytes before the fill count. -/
def Statics.pending (s : Statics) : List Byte := view s.kbuf s.pos.toNat

/-- The static variables of a module just loaded. -/
def Statics.initial (kbuf : ℤ → Byte) : Statics := ⟨0, kbuf⟩

/-- **A copy under way**: where it goes, how many bytes it has been granted,
and the call it belongs to. -/
structure InFlight where
  dst : ℤ
  clen : ℕ
  call : WriteCall

/-- **What can be seen of a call** when it is over: the value it returns, the
static variables, the display calls it made, the strings it passed to
`lcd_send_string`, the bytes it took off the buffer to do so, newline
included, and the offsets from `kbuf` it read or wrote. -/
structure Outcome where
  ret : ℤ
  statics : Statics
  calls : List LcdCall
  shown : List (List Byte)
  line : List Byte
  touched : List ℤ

/-! ## The function -/

/-- `lcd_write` up to `copy_from_user`:
`clen = min(len, (sizeof(kbuf) - pos))`, copied to `kbuf + pos`. -/
def lcdWriteEnter (s : Statics) (call : WriteCall) : InFlight :=
  ⟨s.pos, min call.len (toSize (kbufSize - s.pos)), call⟩

/-- `lcd_write` from `copy_from_user` on. The last reads are those of the log
line, which prints `kbuf` as a string. -/
def lcdWriteFinish (s : Statics) (f : InFlight) : Outcome :=
  match f.call.copied with
  | .fault left =>
    -- what got through before the fault stays in the buffer
    { ret := -EFAULT
      statics := ⟨0, store s.kbuf f.dst (left.take f.clen)⟩
      calls := []
      shown := []
      line := []
      touched := span f.dst f.clen }
  | .all =>
    let kbuf := store s.kbuf f.dst (f.call.buf.take f.clen)
    let pos := toInt (s.pos + f.clen)
    -- the byte before the count is looked at also when nothing was copied
    if kbuf (pos - 1) = newline then
      let kbuf' := store kbuf (pos - 1) [0]
      let msg : ℕ → Byte := fun i => kbuf' i
      { ret := toInt f.call.len
        statics := ⟨0, kbuf'⟩
        calls := lcdClear ++ lcdSetCursor 0 0 ++ sentCalls (lcdSendString msg)
        shown := [text msg]
        line := view kbuf pos.toNat
        touched := span f.dst f.clen ++ [pos - 1, pos - 1]
          ++ (readIndices (lcdSendString msg)).map (fun i : ℕ => (i : ℤ))
          ++ span 0 ((text msg).length + 1) }
    else
      { ret := toInt f.call.len
        statics := ⟨pos, kbuf⟩
        calls := []
        shown := []
        line := []
        touched := span f.dst f.clen ++ [pos - 1] }

/-- **The byte tested for a newline**, which a call whose copy succeeds always
looks at. -/
theorem looked_at_mem_touched (s : Statics) {f : InFlight} (h : f.call.copied = .all) :
    toInt (s.pos + f.clen) - 1 ∈ (lcdWriteFinish s f).touched := by
  unfold lcdWriteFinish
  rw [h]
  dsimp only
  split
  · refine List.mem_append_left _ (List.mem_append_left _ (List.mem_append_right _ ?_))
    exact List.mem_cons_self
  · exact List.mem_append_right _ List.mem_cons_self

/-- **`lcd_write`**, called by one caller at a time. -/
def lcdWrite {P : Type} (gpLcd : Option P) (s : Statics) (call : WriteCall) : Outcome :=
  match gpLcd with
  | none => { ret := -ENODEV, statics := s, calls := [], shown := [], line := [], touched := [] }
  | some _ => lcdWriteFinish s (lcdWriteEnter s call)

/-! ## What it is for -/

/-- **The pending bytes as a line buffer** of the size of `kbuf`. -/
abbrev Pending := LineBuffer Byte kbufSize newline

/-- A call, to the line buffer: what it hands over and what it keeps. -/
def Pending.answer (b : Pending) (call : WriteCall) : List Byte × Pending :=
  match call.copied with
  | .all => b.put call.buf
  | .fault _ => ([], LineBuffer.empty)

/-- A call whose copy succeeds is a chunk. -/
theorem Pending.answer_of_all (b : Pending) {call : WriteCall} (hall : call.copied = .all) :
    b.answer call = b.put call.buf := by
  unfold Pending.answer
  rw [hall]

/-- The value a call returns. -/
def returned (call : WriteCall) : ℤ :=
  match call.copied with
  | .all => toInt call.len
  | .fault _ => -EFAULT

/-- The text of a line handed over: its bytes before the newline and before
the first NUL. -/
def lineText (line : List Byte) : List Byte := line.dropLast.takeWhile (· ≠ 0)

/-- The calls a text is displayed by. -/
def displayCalls (t : List Byte) : List LcdCall := lcdClear ++ lcdSetCursor 0 0 ++ textCalls t

/-- The strings passed to `lcd_send_string` for what is handed over. -/
def shownOf (line : List Byte) : List (List Byte) :=
  if line = [] then [] else [lineText line]

/-- **The static variables hold a line buffer**: the count is its length and
the bytes before the count are its bytes. -/
structure Holds (s : Statics) (b : Pending) : Prop where
  pos : s.pos = b.bytes.length
  pending : s.pending = b.bytes

/-- **An outcome is that of a line buffer** that hands a line over, possibly
none, and goes on as another. -/
structure Meets (o : Outcome) (handed : List Byte) (b : Pending) (r : ℤ) : Prop where
  holds : Holds o.statics b
  line : o.line = handed
  shown : o.shown = shownOf handed
  calls : o.calls = (shownOf handed).flatMap displayCalls
  ret : o.ret = r
  touched : ∀ j ∈ o.touched, 0 ≤ j ∧ j < kbufSize

/-- A fresh module holds nothing. -/
theorem holds_initial (kbuf : ℤ → Byte) :
    Holds (Statics.initial kbuf) (LineBuffer.empty : Pending) := ⟨rfl, rfl⟩

/-! ## The refinement -/

/-- Below the size of the buffer `size_t` is the integers. -/
theorem toSize_of_nonneg {z : ℤ} (h : 0 ≤ z) (h' : z < 2 ^ 32) : toSize z = z.toNat := by
  rw [toSize, Int.emod_eq_of_lt h h']

/-- Small integers are unchanged by the conversion to `int`. -/
theorem toInt_of_small {z : ℤ} (h : 0 ≤ z) (h' : z < 2 ^ 31) : toInt z = z := by
  rw [toInt, Int.bmod_def, Int.emod_eq_of_lt h (by omega), if_pos (by omega)]

theorem holds_bounds {s : Statics} {b : Pending} (h : Holds s b) :
    0 ≤ s.pos ∧ s.pos ≤ kbufSize := by
  have hpos := h.pos
  have hlen := b.length_le
  omega

/-- A call is granted what it asks for or what is left. -/
theorem clen_enter {s : Statics} {b : Pending} (h : Holds s b) (call : WriteCall) :
    (lcdWriteEnter s call).clen = min call.buf.length b.room := by
  have hb := holds_bounds h
  have hpos := h.pos
  have hlen := b.length_le
  have hsize : kbufSize = 33 := rfl
  show min call.len (toSize (kbufSize - s.pos)) = _
  rw [toSize_of_nonneg (by omega) (by omega), LineBuffer.room, WriteCall.len]
  congr 1
  omega

/-- The bytes before a terminator are those of the string. -/
theorem takeWhile_append_zero (l r : List Byte) :
    (l ++ 0 :: r).takeWhile (· ≠ 0) = l.takeWhile (· ≠ 0) := by
  induction l with
  | nil => exact List.takeWhile_cons_of_neg (by simp)
  | cons b l ih =>
    by_cases hb : b = 0
    · rw [List.cons_append, List.takeWhile_cons_of_neg (by simp [hb]),
        List.takeWhile_cons_of_neg (by simp [hb])]
    · rw [List.cons_append, List.takeWhile_cons_of_pos (by simpa using hb),
        List.takeWhile_cons_of_pos (by simpa using hb), ih]

/-- A buffer terminated at an index is a string of the bytes before it. -/
theorem text_of_terminated {mem : ℤ → Byte} {m : ℕ} (hm : m ≤ 32) (hz : mem m = 0) :
    text (fun i : ℕ => mem i) = (view mem m).takeWhile (· ≠ 0) := by
  have htext : text (fun i : ℕ => mem i) = (view mem 32).takeWhile (· ≠ 0) := rfl
  rw [htext]
  obtain ⟨k, hk⟩ := Nat.exists_eq_add_of_le hm
  cases k with
  | zero => rw [hk, Nat.add_zero]
  | succ k =>
    have hview : view mem 32
        = view mem m ++ 0 :: (List.range k).map (fun i : ℕ => mem ((m + 1 + i : ℕ) : ℤ)) := by
      rw [hk, show m + (k + 1) = (m + 1) + k from by omega, view, List.range_add,
        List.map_append, List.map_map]
      show view mem (m + 1) ++ _ = _
      rw [view_succ, hz, List.append_assoc]
      rfl
    rw [hview, takeWhile_append_zero]

/-- What the copy makes of the pending bytes. -/
theorem joined_enter {s : Statics} {b : Pending} (h : Holds s b) (call : WriteCall) :
    b.joined call.buf = b.bytes ++ call.buf.take (lcdWriteEnter s call).clen := by
  rw [LineBuffer.joined, clen_enter h]
  congr 1
  rcases Nat.le_total call.buf.length b.room with hle | hle
  · rw [Nat.min_eq_left hle, List.take_of_length_le hle, List.take_of_length_le le_rfl]
  · rw [Nat.min_eq_right hle]

/-- The fill count after the copy. -/
theorem count_enter {s : Statics} {b : Pending} (h : Holds s b) (call : WriteCall) :
    toInt (s.pos + (lcdWriteEnter s call).clen) = ((b.joined call.buf).length : ℤ) := by
  have hpos := h.pos
  have hclen := clen_enter h call
  have hlen := b.length_joined call.buf
  have hle : (b.joined call.buf).length ≤ 33 := b.length_joined_le call.buf
  rw [toInt_of_small (by omega) (by omega)]
  omega

/-- The buffer after the copy. -/
def copiedTo (s : Statics) (call : WriteCall) : ℤ → Byte :=
  store s.kbuf s.pos (call.buf.take (lcdWriteEnter s call).clen)

theorem store_enter (s : Statics) (call : WriteCall) :
    store s.kbuf (lcdWriteEnter s call).dst (call.buf.take (lcdWriteEnter s call).clen)
      = copiedTo s call := rfl

theorem view_copiedTo {s : Statics} {b : Pending} (h : Holds s b) (call : WriteCall) :
    view (copiedTo s call) (b.joined call.buf).length = b.joined call.buf := by
  have hpos := h.pos
  have hpending : view s.kbuf b.bytes.length = b.bytes := by
    rw [← h.pending, Statics.pending, hpos, Int.toNat_natCast, length_view]
  have hview := view_store s.kbuf b.bytes.length (call.buf.take (lcdWriteEnter s call).clen)
  rw [hpending, ← joined_enter h, ← List.length_append, ← joined_enter h, ← hpos] at hview
  exact hview

/-- The copy lies in the buffer. -/
theorem span_enter {s : Statics} {b : Pending} (h : Holds s b) (call : WriteCall) :
    ∀ j ∈ span (lcdWriteEnter s call).dst (lcdWriteEnter s call).clen,
      0 ≤ j ∧ j < (kbufSize : ℤ) := by
  have hb := holds_bounds h
  have hpos := h.pos
  have hclen := clen_enter h call
  have hroom : b.room = kbufSize - b.bytes.length := rfl
  intro j hj
  have hj' := mem_span hj
  rw [show (lcdWriteEnter s call).dst = s.pos from rfl] at hj'
  omega

/-- The byte before the count is the last one held. -/
theorem exists_last {s : Statics} {b : Pending} (h : Holds s b) (call : WriteCall)
    (hne : b.joined call.buf ≠ []) :
    ∃ m : ℕ, ((b.joined call.buf).length : ℤ) - 1 = m
      ∧ b.joined call.buf = view (copiedTo s call) m ++ [copiedTo s call m] := by
  obtain ⟨m, hm⟩ := Nat.exists_eq_add_of_le' (List.length_pos_iff.mpr hne)
  refine ⟨m, by omega, ?_⟩
  have hview := view_copiedTo h call
  rw [hm] at hview
  rw [← view_succ, hview]

/-- **The refinement, for a copy that completes a line**: the line is
terminated in place and displayed. -/
theorem finish_closed_meets {s : Statics} {b : Pending} (h : Holds s b) {call : WriteCall}
    (hall : call.copied = .all) (hclosed : (b.joined call.buf).getLast? = some newline) :
    Meets (lcdWriteFinish s (lcdWriteEnter s call)) (b.joined call.buf) LineBuffer.empty
      (toInt call.len) := by
  have hle : (b.joined call.buf).length ≤ 33 := b.length_joined_le call.buf
  have hview := view_copiedTo h call
  have hsize : kbufSize = 33 := rfl
  have hne : b.joined call.buf ≠ [] := by
    intro hnil
    rw [hnil] at hclosed
    exact absurd hclosed (by simp)
  obtain ⟨m, hend, hjoined⟩ := exists_last h call hne
  -- the last byte held is the one tested, and what is before it is the text
  have hlast : copiedTo s call m = newline := by
    rw [hjoined, List.getLast?_concat] at hclosed
    exact Option.some.inj hclosed
  have hdrop : view (copiedTo s call) m = (b.joined call.buf).dropLast := by
    rw [hjoined, List.dropLast_concat]
  have hmsg : text (fun i : ℕ => store (copiedTo s call) m [0] i)
      = lineText (b.joined call.buf) := by
    rw [text_of_terminated (by omega) (store_singleton_self _ _ _),
      view_store_of_le _ le_rfl, hdrop]
    rfl
  unfold lcdWriteFinish
  rw [show (lcdWriteEnter s call).call = call from rfl, hall]
  dsimp only
  rw [store_enter, count_enter h, hend, if_pos hlast]
  refine ⟨⟨rfl, rfl⟩, hview, ?_, ?_, by dsimp only, ?_⟩
  · show [text (fun i : ℕ => store (copiedTo s call) m [0] i)] = shownOf _
    rw [hmsg, shownOf, if_neg hne]
  · show lcdClear ++ lcdSetCursor 0 0
      ++ sentCalls (lcdSendString (fun i : ℕ => store (copiedTo s call) m [0] i)) = _
    rw [calls_lcdSendString, hmsg, shownOf, if_neg hne, List.flatMap_singleton]
    rfl
  · intro j hj
    have htext := length_text_le (fun i : ℕ => store (copiedTo s call) m [0] i)
    rcases List.mem_append.mp hj with hj | hj
    · rcases List.mem_append.mp hj with hj | hj
      · rcases List.mem_append.mp hj with hj | hj
        · exact span_enter h call j hj
        · obtain rfl : j = m := by simpa using hj
          omega
      · obtain ⟨i, hi, rfl⟩ := List.mem_map.mp hj
        have := readIndices_lcdSendString_le _ i hi
        omega
    · have := mem_span hj
      omega

/-- **The refinement, for a copy that leaves a line unfinished**, with a byte
to look at. -/
theorem finish_open_meets {s : Statics} {b : Pending} (h : Holds s b) {call : WriteCall}
    (hall : call.copied = .all) (hne : b.joined call.buf ≠ [])
    (hopen : (b.joined call.buf).getLast? ≠ some newline) :
    Meets (lcdWriteFinish s (lcdWriteEnter s call)) []
      ⟨b.joined call.buf, b.length_joined_le call.buf, hopen⟩ (toInt call.len) := by
  have hle : (b.joined call.buf).length ≤ 33 := b.length_joined_le call.buf
  have hview := view_copiedTo h call
  have hsize : kbufSize = 33 := rfl
  obtain ⟨m, hend, hjoined⟩ := exists_last h call hne
  have hlast : copiedTo s call m ≠ newline := by
    intro hc
    rw [hjoined, List.getLast?_concat] at hopen
    exact hopen (congrArg some hc)
  unfold lcdWriteFinish
  rw [show (lcdWriteEnter s call).call = call from rfl, hall]
  dsimp only
  rw [store_enter, count_enter h, hend, if_neg hlast]
  refine ⟨⟨rfl, hview⟩, rfl, rfl, rfl, by dsimp only, fun j hj => ?_⟩
  rcases List.mem_append.mp hj with hj | hj
  · exact span_enter h call j hj
  · obtain rfl : j = m := by simpa using hj
    omega

/-- **The refinement, for a copy that succeeds.** With a byte to look at –
one just written, or one pending – the function does what the line buffer
does. -/
theorem finish_all_meets {s : Statics} {b : Pending} (h : Holds s b) {call : WriteCall}
    (hall : call.copied = .all) (hbyte : call.buf ≠ [] ∨ 0 < s.pos) :
    Meets (lcdWriteFinish s (lcdWriteEnter s call)) (b.put call.buf).1 (b.put call.buf).2
      (toInt call.len) := by
  by_cases hclosed : (b.joined call.buf).getLast? = some newline
  · rw [LineBuffer.put_of_closed hclosed]
    exact finish_closed_meets h hall hclosed
  · have hne : b.joined call.buf ≠ [] := by
      have hlen := b.length_joined call.buf
      have hpos := h.pos
      have hroom : b.room = kbufSize - b.bytes.length := rfl
      have hsize : kbufSize = 33 := rfl
      refine List.length_pos_iff.mp ?_
      rcases hbyte with hbuf | hp
      · have := List.length_pos_iff.mpr hbuf
        omega
      · omega
    rw [LineBuffer.put_of_open hclosed]
    exact finish_open_meets h hall hne hclosed

/-- **The refinement, for a copy that faults**: the buffer is empty
afterwards, whatever stands in it. -/
theorem finish_fault_meets {s : Statics} {b : Pending} (h : Holds s b) {call : WriteCall}
    {left : List Byte} (hfault : call.copied = .fault left) :
    Meets (lcdWriteFinish s (lcdWriteEnter s call)) [] LineBuffer.empty (-EFAULT) := by
  unfold lcdWriteFinish
  rw [show (lcdWriteEnter s call).call = call from rfl, hfault]
  exact ⟨⟨rfl, rfl⟩, rfl, rfl, rfl, rfl, span_enter h call⟩

/-- **`lcd_write` is a line buffer.** On static variables that hold one, a
call that has a byte to look at does what the line buffer does with it. -/
theorem lcdWrite_meets {P : Type} (p : P) {s : Statics} {b : Pending} (h : Holds s b)
    {call : WriteCall} (hbyte : call.copied = .all → call.buf ≠ [] ∨ 0 < s.pos) :
    Meets (lcdWrite (some p) s call) (b.answer call).1 (b.answer call).2 (returned call) := by
  show Meets (lcdWriteFinish s (lcdWriteEnter s call)) _ _ _
  unfold Pending.answer returned
  cases hc : call.copied with
  | all => exact finish_all_meets h hc (hbyte hc)
  | fault left => exact finish_fault_meets h hc

/-- A call that is not empty always has a byte to look at. -/
theorem lcdWrite_meets_of_ne_nil {P : Type} (p : P) {s : Statics} {b : Pending} (h : Holds s b)
    {call : WriteCall} (hne : call.buf ≠ []) :
    Meets (lcdWrite (some p) s call) (b.answer call).1 (b.answer call).2 (returned call) :=
  lcdWrite_meets p h (fun _ => Or.inl hne)

end Lcd
