import EmbeddedDrivers.LcdWrite
import EmbeddedDrivers.Transition

/-!
# Serial writes to the character device

Sequences of `lcd_write` calls in which no call begins before the last one has
ended. Each call refines a step of the line buffer, so a sequence of them
refines a run of it (`lcdWrites_meets`), and what there is to say about
sequences is said of the line buffer first.

Four questions are settled here, and the answers are not what one would wish.

* *Does the driver stay inside its buffer?* Yes, but for an empty write at a
  fill count of zero, which makes the newline test look at the byte before the
  buffer (`touched_in_kbuf_iff`).
* *Can a line always be finished?* Only while the buffer is not full. A full
  buffer that does not end with a newline takes no further byte, so the
  newline that would empty it is dropped, and so is every later one
  (`newline_displays_iff`).
* *Does the returned count say what was taken?* The function returns `len`
  where it has taken `clen` bytes, so the count is right exactly when the
  write fits (`honest_iff`).
* *Does it matter how a stream is cut into writes?* The newline is looked for
  at the end of a write only. Cuttings in which every newline ends a write
  give the same lines (`chunking_independent`); others need not.
-/

namespace Lcd

open Memory

variable {P : Type} (p : P)

/-! ## Sequences of calls -/

/-- **A sequence of calls**, each begun when the one before has ended: their
outcomes, and the static variables afterwards. -/
def lcdWrites (s : Statics) : List WriteCall → List Outcome × Statics
  | [] => ([], s)
  | c :: cs =>
    let o := lcdWrite (some p) s c
    (o :: (lcdWrites o.statics cs).1, (lcdWrites o.statics cs).2)

/-- One call, as a step of the static variables. -/
def serialStep (s : Statics) (call : WriteCall) : Option Statics :=
  some (lcdWrite (some p) s call).statics

/-- The condition on a call under which the newline test has a byte to look
at: the call is not an empty write – its copy of nothing succeeding – that
finds the fill count at zero. -/
def HasByte (s : Statics) (call : WriteCall) : Prop :=
  ¬ (call.buf = [] ∧ call.copied = .all ∧ s.pos = 0)

/-- The same sequence, to the line buffer. -/
def Pending.answers (b : Pending) : List WriteCall → List (List Byte) × Pending
  | [] => ([], b)
  | c :: cs =>
    ((b.answer c).1 :: (Pending.answers (b.answer c).2 cs).1,
      (Pending.answers (b.answer c).2 cs).2)

/-- **The outcomes of a sequence are those of a line buffer's run.** -/
structure RunMeets (os : List Outcome) (s : Statics) (handed : List (List Byte))
    (b : Pending) (rs : List ℤ) : Prop where
  holds : Holds s b
  lines : os.map (·.line) = handed
  shown : os.flatMap (·.shown) = handed.flatMap shownOf
  calls : os.flatMap (·.calls) = (handed.flatMap shownOf).flatMap displayCalls
  rets : os.map (·.ret) = rs
  touched : ∀ o ∈ os, ∀ j ∈ o.touched, 0 ≤ j ∧ j < kbufSize

/-- A call that meets the condition refines a step of the line buffer. -/
theorem lcdWrite_meets_of_hasByte {s : Statics} {b : Pending} (h : Holds s b)
    {call : WriteCall} (hok : HasByte s call) :
    Meets (lcdWrite (some p) s call) (b.answer call).1 (b.answer call).2 (returned call) := by
  refine lcdWrite_meets p h (fun hall => ?_)
  by_cases hbuf : call.buf = []
  · have hpos := (holds_bounds h).1
    exact Or.inr (lt_of_le_of_ne hpos (fun h0 => hok ⟨hbuf, hall, h0.symm⟩))
  · exact Or.inl hbuf

/-- **The refinement over a sequence**, all of whose calls have a byte to look
at. -/
theorem lcdWrites_meets {s : Statics} {b : Pending} (h : Holds s b) {cs : List WriteCall}
    (hok : Transition.AllOk (serialStep p) HasByte s cs) :
    RunMeets (lcdWrites p s cs).1 (lcdWrites p s cs).2 (b.answers cs).1 (b.answers cs).2
      (cs.map returned) := by
  induction cs generalizing s b with
  | nil => exact ⟨h, rfl, rfl, rfl, rfl, fun o ho => absurd ho List.not_mem_nil⟩
  | cons c cs ih =>
    have hc := lcdWrite_meets_of_hasByte p h hok.1
    have hcs := ih hc.holds (hok.2 _ rfl)
    refine ⟨hcs.holds, ?_, ?_, ?_, ?_, ?_⟩
    · rw [lcdWrites, List.map_cons, hc.line, hcs.lines]
      rfl
    · rw [lcdWrites, List.flatMap_cons, hc.shown, hcs.shown]
      rfl
    · rw [lcdWrites, List.flatMap_cons, hc.calls, hcs.calls, ← List.flatMap_append]
      rfl
    · rw [lcdWrites, List.map_cons, hc.ret, hcs.rets]
      rfl
    · intro o ho
      rcases List.mem_cons.mp ho with rfl | ho
      · exact hc.touched
      · exact hcs.touched o ho

/-- Calls none of which is empty always have a byte to look at. -/
theorem allOk_hasByte_of_nonempty {s : Statics} {cs : List WriteCall}
    (hne : ∀ c ∈ cs, c.buf ≠ []) : Transition.AllOk (serialStep p) HasByte s cs := by
  induction cs generalizing s with
  | nil => trivial
  | cons c cs ih =>
    exact ⟨fun h => hne c List.mem_cons_self h.1,
      fun s' _ => ih (fun d hd => hne d (List.mem_cons_of_mem c hd))⟩

/-- Where every copy succeeds, the line buffer is fed the callers' buffers. -/
theorem answers_of_all {b : Pending} {cs : List WriteCall}
    (hall : ∀ c ∈ cs, c.copied = .all) : b.answers cs = b.feed (cs.map (·.buf)) := by
  induction cs generalizing b with
  | nil => rfl
  | cons c cs ih =>
    rw [Pending.answers, b.answer_of_all (hall c List.mem_cons_self),
      ih (fun d hd => hall d (List.mem_cons_of_mem c hd))]
    rfl

/-- The strings passed on for a run of lines, some of them possibly none. -/
theorem flatMap_shownOf (ls : List (List Byte)) :
    ls.flatMap shownOf = (ls.filter (· ≠ [])).map lineText := by
  induction ls with
  | nil => rfl
  | cons l ls ih =>
    rw [List.flatMap_cons, ih]
    by_cases h : l = []
    · rw [shownOf, if_pos h, List.filter_cons_of_neg (by simpa using h), List.nil_append]
    · rw [shownOf, if_neg h, List.filter_cons_of_pos (by simpa using h)]
      rfl

/-! ## Staying inside the buffer -/

/-- **An empty write at a fill count of zero looks before the buffer.** -/
theorem touched_of_not_hasByte {s : Statics} {call : WriteCall} (h : ¬ HasByte s call) :
    (-1 : ℤ) ∈ (lcdWrite (some p) s call).touched := by
  obtain ⟨hbuf, hall, hpos⟩ := not_not.mp h
  have hclen : (lcdWriteEnter s call).clen = 0 := by
    show min call.buf.length _ = 0
    rw [hbuf, List.length_nil, Nat.zero_min]
  have hcount : toInt (s.pos + ((lcdWriteEnter s call).clen : ℤ)) - 1 = -1 := by
    rw [hclen, hpos]
    decide
  have hmem := looked_at_mem_touched s (f := lcdWriteEnter s call) hall
  rwa [hcount] at hmem

/-- **When serial calls stay inside the buffer.** Over any sequence of calls
on a module just loaded, of any lengths, bytes and copy results, every offset
`lcd_write` and `lcd_send_string` read or write lies in the 33 bytes of `kbuf`
exactly when no empty write finds the fill count at zero. -/
theorem touched_in_kbuf_iff (kbuf : ℤ → Byte) (cs : List WriteCall) :
    (∀ o ∈ (lcdWrites p (Statics.initial kbuf) cs).1, ∀ j ∈ o.touched, 0 ≤ j ∧ j < 33)
      ↔ Transition.AllOk (serialStep p) HasByte (Statics.initial kbuf) cs := by
  refine ⟨fun h => ?_, fun hok => (lcdWrites_meets p (holds_initial kbuf) hok).touched⟩
  -- the calls before the first bad one keep a line buffer, and that one
  -- looks at an offset the buffer does not have
  have hgen : ∀ (s : Statics) (b : Pending), Holds s b →
      (∀ o ∈ (lcdWrites p s cs).1, ∀ j ∈ o.touched, 0 ≤ j ∧ j < (33 : ℤ)) →
      Transition.AllOk (serialStep p) HasByte s cs := by
    clear h
    induction cs with
    | nil => exact fun _ _ _ _ => trivial
    | cons c cs ih =>
      intro s b hs h
      have hfst : HasByte s c := by
        by_contra hno
        have := h _ List.mem_cons_self (-1) (touched_of_not_hasByte p hno)
        omega
      have hc := lcdWrite_meets_of_hasByte p hs hfst
      refine ⟨hfst, fun s' hs' => ?_⟩
      obtain rfl : (lcdWrite (some p) s c).statics = s' := Option.some.inj hs'
      exact ih _ _ hc.holds (fun o ho => h o (List.mem_cons_of_mem _ ho))
  exact hgen _ _ (holds_initial kbuf) h

/-- The write of nothing. -/
def emptyCall : WriteCall := ⟨[], .all, by decide⟩

/-- **Not for every sequence**: the first write to a fresh module being
empty. -/
theorem not_forall_touched_in_kbuf :
    ¬ ∀ (kbuf : ℤ → Byte) (cs : List WriteCall),
        ∀ o ∈ (lcdWrites () (Statics.initial kbuf) cs).1, ∀ j ∈ o.touched, 0 ≤ j ∧ j < 33 := by
  intro h
  have hmem : (-1 : ℤ) ∈ (lcdWrite (some ()) (Statics.initial fun _ => 0) emptyCall).touched :=
    touched_of_not_hasByte () (fun hb => hb ⟨rfl, rfl, rfl⟩)
  have := h (fun _ => 0) [emptyCall] _ List.mem_cons_self (-1) hmem
  omega

/-! ## Finishing a line -/

/-- The write of a newline. -/
def newlineCall : WriteCall := ⟨[newline], .all, by decide⟩

theorem newlineCalls_ne_nil : ∀ c ∈ [newlineCall], c.buf ≠ [] := by simp [newlineCall]

theorem newlineCalls_copied : ∀ c ∈ [newlineCall], c.copied = .all := by simp [newlineCall]

/-- **An outcome displays a text**: the display is cleared, the cursor put at
its beginning, and the text, up to its first NUL, sent; and the fill count is
zero again. -/
structure Displays (o : Outcome) (t : List Byte) : Prop where
  calls : o.calls = displayCalls (t.takeWhile (· ≠ 0))
  shown : o.shown = [t.takeWhile (· ≠ 0)]
  pos : o.statics.pos = 0

/-- A full buffer is one that has no room. -/
theorem room_eq_zero_iff {s : Statics} {b : Pending} (h : Holds s b) :
    b.room = 0 ↔ ¬ s.pos < 33 := by
  have hpos := h.pos
  have hroom : b.room = 33 - b.bytes.length := rfl
  omega

/-- With room for it, a newline displays what is pending. -/
theorem newline_displays {s : Statics} {b : Pending} (h : Holds s b) (hpos : s.pos < 33) :
    Displays (lcdWrite (some p) s newlineCall) s.pending := by
  have hroom : 0 < b.room := Nat.pos_of_ne_zero (fun h0 => (room_eq_zero_iff h).mp h0 hpos)
  have hput : b.answer newlineCall = (b.bytes ++ [newline], LineBuffer.empty) :=
    LineBuffer.put_terminator hroom
  have hm := lcdWrite_meets_of_ne_nil p h (newlineCalls_ne_nil _ (List.mem_singleton_self _))
  rw [hput] at hm
  have hshown : shownOf (b.bytes ++ [newline]) = [s.pending.takeWhile (· ≠ 0)] := by
    rw [shownOf, if_neg (by simp), lineText, List.dropLast_concat, h.pending]
  refine ⟨?_, ?_, hm.holds.pos⟩
  · rw [hm.calls, hshown, List.flatMap_singleton]
  · rw [hm.shown, hshown]

/-- **A full buffer is stuck**: over any sequence of non-empty calls whose
copies succeed, nothing is ever shown. -/
theorem shown_of_full {s : Statics} {b : Pending} (h : Holds s b) (hroom : b.room = 0)
    {cs : List WriteCall} (hne : ∀ c ∈ cs, c.buf ≠ []) (hall : ∀ c ∈ cs, c.copied = .all) :
    ∀ o ∈ (lcdWrites p s cs).1, o.shown = [] := by
  have hrun := lcdWrites_meets p h (allOk_hasByte_of_nonempty p hne)
  have hlines : (b.feed (cs.map (·.buf))).1.filter (· ≠ []) = [] :=
    (LineBuffer.feed_full hroom _).1
  refine List.flatMap_eq_nil_iff.mp ?_
  rw [hrun.shown, answers_of_all hall, flatMap_shownOf, hlines, List.map_nil]

/-- **When a line can still be finished.** After any sequence of non-empty
calls on a module just loaded, of any lengths, bytes and copy results: a
newline whose copy succeeds clears the display, shows the pending text and
resets the fill count exactly when the buffer is not full; and exactly then
some later sequence of non-empty calls, their copies succeeding, shows
anything at all. -/
theorem newline_displays_iff (kbuf : ℤ → Byte) (cs : List WriteCall)
    (hne : ∀ c ∈ cs, c.buf ≠ []) :
    (Displays (lcdWrite (some p) (lcdWrites p (Statics.initial kbuf) cs).2 newlineCall)
        (lcdWrites p (Statics.initial kbuf) cs).2.pending
      ↔ (lcdWrites p (Statics.initial kbuf) cs).2.pos < 33)
    ∧ ((∃ later : List WriteCall, (∀ c ∈ later, c.buf ≠ []) ∧ (∀ c ∈ later, c.copied = .all)
          ∧ ∃ o ∈ (lcdWrites p (lcdWrites p (Statics.initial kbuf) cs).2 later).1, o.shown ≠ [])
      ↔ (lcdWrites p (Statics.initial kbuf) cs).2.pos < 33) := by
  have hrun := lcdWrites_meets p (holds_initial kbuf) (allOk_hasByte_of_nonempty p hne)
  have hs := hrun.holds
  generalize (lcdWrites p (Statics.initial kbuf) cs).2 = s at *
  refine ⟨⟨fun hd => ?_, fun hpos => newline_displays p hs hpos⟩, ⟨?_, fun hpos => ?_⟩⟩
  · by_contra hfull
    have hnone : (lcdWrite (some p) s newlineCall).shown = [] :=
      shown_of_full p hs ((room_eq_zero_iff hs).mpr hfull) newlineCalls_ne_nil
        newlineCalls_copied _ (List.mem_singleton_self _)
    rw [hd.shown] at hnone
    exact absurd hnone (List.cons_ne_nil _ _)
  · rintro ⟨later, hne', hall, o, ho, hshown⟩
    by_contra hfull
    exact hshown (shown_of_full p hs ((room_eq_zero_iff hs).mpr hfull) hne' hall o ho)
  · refine ⟨[newlineCall], newlineCalls_ne_nil, newlineCalls_copied,
      lcdWrite (some p) s newlineCall, List.mem_cons_self, ?_⟩
    rw [(newline_displays p hs hpos).shown]
    exact List.cons_ne_nil _ _

/-- The write of two letters. -/
def shortCall : WriteCall := ⟨[0x48, 0x69], .all, by decide⟩

theorem newline_displays_iff_short :
    Displays (lcdWrite (some ()) (lcdWrites () (Statics.initial fun _ => 0) [shortCall]).2
        newlineCall)
      (lcdWrites () (Statics.initial fun _ => 0) [shortCall]).2.pending :=
  (newline_displays_iff () (fun _ => 0) [shortCall] (by simp [shortCall])).1.mpr (by decide)

/-- The write of 33 letters, and no newline. -/
def longCall : WriteCall := ⟨List.replicate 33 0x41, .all, by decide⟩

/-- **Not after every history**: the 33 letters fill the buffer, and the
newline after them finds no room. -/
theorem not_forall_newline_displays :
    ¬ ∀ (kbuf : ℤ → Byte) (cs : List WriteCall), (∀ c ∈ cs, c.buf ≠ []) →
        Displays (lcdWrite (some ()) (lcdWrites () (Statics.initial kbuf) cs).2 newlineCall)
          (lcdWrites () (Statics.initial kbuf) cs).2.pending := by
  intro h
  have hd := h (fun _ => 0) [longCall] (by simp [longCall])
  exact absurd hd.pos (by decide)

/-! ## The returned count -/

/-- **An honest outcome.** A count that is returned is that of the bytes taken:
the first so many of the caller's bytes have been appended to the pending
ones, and either they are pending or the line they complete has been
displayed. -/
def Honest (s : Statics) (call : WriteCall) (o : Outcome) : Prop :=
  0 ≤ o.ret → o.ret ≤ call.len
    ∧ (o.line = [] ∧ o.statics.pending = s.pending ++ call.buf.take o.ret.toNat
      ∨ o.line = s.pending ++ call.buf.take o.ret.toNat ∧ o.shown = [lineText o.line]
        ∧ o.statics.pending = [])

/-- The call finds room for all of its bytes. -/
def Fits (s : Statics) (call : WriteCall) : Prop := (call.len : ℤ) ≤ kbufSize - s.pos

/-- The bytes a caller must think were taken. -/
def accepted (call : WriteCall) (o : Outcome) : List Byte := call.buf.take o.ret.toNat

/-- **The account of a sequence balances**: what the callers think was taken is
what the lines were made of, newlines included, followed by what is
pending. -/
def Conserved (cs : List WriteCall) (os : List Outcome) (s : Statics) : Prop :=
  (List.zipWith accepted cs os).flatten = os.flatMap (·.line) ++ s.pending

theorem fits_iff {s : Statics} {b : Pending} (h : Holds s b) (call : WriteCall) :
    Fits s call ↔ call.buf.length ≤ b.room := by
  have hpos := h.pos
  have hlen := b.length_le
  have hroom : b.room = kbufSize - b.bytes.length := rfl
  unfold Fits WriteCall.len
  omega

/-- From 2³¹ bytes on the returned length is negative. -/
theorem toInt_neg {z : ℤ} (h : 2 ^ 31 ≤ z) (h' : z < 2 ^ 32) : toInt z < 0 := by
  have hmod : z % 2 ^ 32 = z := Int.emod_eq_of_lt (by omega) h'
  rw [toInt, Int.bmod_def, if_neg (by omega)]
  omega

/-- The line buffer hands over nothing, or all it holds. -/
theorem put_cases (b : Pending) (chunk : List Byte) :
    (b.put chunk).1 = [] ∧ (b.put chunk).2.bytes = b.joined chunk
      ∨ (b.put chunk).1 = b.joined chunk ∧ (b.put chunk).1 ≠ []
        ∧ (b.put chunk).2.bytes = [] := by
  by_cases h : (b.joined chunk).getLast? = some newline
  · rw [LineBuffer.put_of_closed h]
    refine Or.inr ⟨rfl, fun hnil => ?_, rfl⟩
    rw [show b.joined chunk = [] from hnil] at h
    exact absurd h (by simp)
  · rw [LineBuffer.put_of_open h]
    exact Or.inl ⟨rfl, rfl⟩

/-- A call that returns the number of its bytes is honest exactly when they
fit. -/
theorem honest_iff_fits {s : Statics} {b : Pending} (h : Holds s b) {call : WriteCall}
    (hne : call.buf ≠ []) (hall : call.copied = .all) (hlen : call.len < 2 ^ 31) :
    Honest s call (lcdWrite (some p) s call) ↔ Fits s call := by
  have hm := lcdWrite_meets_of_ne_nil p h hne
  generalize lcdWrite (some p) s call = o at *
  have hret : o.ret = call.len := by
    rw [hm.ret, returned, hall]
    exact toInt_of_small (by omega) (by omega)
  have htake : call.buf.take o.ret.toNat = call.buf := by
    rw [hret, Int.toNat_natCast]
    exact List.take_of_length_le le_rfl
  have hline := hm.line
  have hpending := hm.holds.pending
  have hshown := hm.shown
  rw [b.answer_of_all hall] at hline hpending hshown
  rw [fits_iff h]
  unfold Honest
  rw [htake, hline, hpending, hshown, h.pending]
  constructor
  · intro hhon
    -- either way the bytes taken are all of them, and they were cut to the room
    have hjoined : b.joined call.buf = b.bytes ++ call.buf := by
      rw [← b.put_conserve call.buf]
      rcases (hhon (by omega)).2 with ⟨h₁, h₂⟩ | ⟨h₁, -, h₂⟩
      · rw [h₁, h₂, List.nil_append]
      · rw [h₁, h₂, List.append_nil]
    have hl := congrArg List.length hjoined
    rw [LineBuffer.length_joined, List.length_append] at hl
    omega
  · intro hfit _
    refine ⟨by omega, ?_⟩
    rw [← b.joined_of_fits hfit]
    rcases put_cases b call.buf with ⟨h₁, h₂⟩ | ⟨h₁, h₂, h₃⟩
    · exact Or.inl ⟨h₁, h₂⟩
    · exact Or.inr ⟨h₁, by rw [shownOf, if_neg h₂], h₃⟩

/-- A call that returns no count promises nothing. -/
theorem honest_of_ret_neg {s : Statics} {call : WriteCall} {o : Outcome} (h : o.ret < 0) :
    Honest s call o := fun h0 => absurd h0 (by omega)

/-- To the line buffer, calls that all find room are chunks that all fit. -/
theorem allOk_fits_iff {s : Statics} {b : Pending} (h : Holds s b) {cs : List WriteCall}
    (hne : ∀ c ∈ cs, c.buf ≠ []) (hall : ∀ c ∈ cs, c.copied = .all) :
    Transition.AllOk (serialStep p) Fits s cs ↔ b.AllFit (cs.map (·.buf)) := by
  induction cs generalizing s b with
  | nil => exact Iff.rfl
  | cons c cs ih =>
    have hholds := (lcdWrite_meets_of_ne_nil p h (hne c List.mem_cons_self)).holds
    rw [b.answer_of_all (hall c List.mem_cons_self)] at hholds
    have hcs := ih hholds (fun d hd => hne d (List.mem_cons_of_mem c hd))
      (fun d hd => hall d (List.mem_cons_of_mem c hd))
    rw [List.map_cons, LineBuffer.AllFit, ← fits_iff h, ← hcs]
    exact ⟨fun hok => ⟨hok.1, hok.2 _ rfl⟩,
      fun hok => ⟨hok.1, fun s' hs' => Option.some.inj hs' ▸ hok.2⟩⟩

/-- Where all lengths can be returned, the callers think all their bytes were
taken. -/
theorem zipWith_accepted {cs : List WriteCall} {os : List Outcome}
    (hrets : os.map (·.ret) = cs.map returned) (hall : ∀ c ∈ cs, c.copied = .all)
    (hlen : ∀ c ∈ cs, c.len < 2 ^ 31) :
    List.zipWith accepted cs os = cs.map (·.buf) := by
  have hzip : List.zipWith accepted cs os
      = List.zipWith (fun (c : WriteCall) (r : ℤ) => c.buf.take r.toNat) cs
          (os.map (·.ret)) := by
    rw [List.zipWith_map_right]
    rfl
  rw [hzip, hrets, List.zipWith_map_right, List.zipWith_self]
  refine List.map_congr_left (fun c hc => ?_)
  have hret : returned c = c.len := by
    rw [returned, hall c hc]
    exact toInt_of_small (by omega) (by have := hlen c hc; omega)
  rw [hret, Int.toNat_natCast]
  exact List.take_of_length_le le_rfl

/-- A call that fits is short. -/
theorem length_lt_of_fits {s : Statics} {b : Pending} (h : Holds s b) {cs : List WriteCall}
    (hne : ∀ c ∈ cs, c.buf ≠ []) (hok : Transition.AllOk (serialStep p) Fits s cs) :
    ∀ c ∈ cs, c.len < 2 ^ 31 := by
  induction cs generalizing s b with
  | nil => exact fun c hc => absurd hc List.not_mem_nil
  | cons d cs ih =>
    have hm := lcdWrite_meets_of_ne_nil p h (hne d List.mem_cons_self)
    intro c hc
    rcases List.mem_cons.mp hc with rfl | hc
    · have hfit : c.buf.length ≤ b.room := (fits_iff h c).mp hok.1
      have hroom : b.room ≤ 33 := Nat.sub_le _ _
      unfold WriteCall.len
      omega
    · exact ih hm.holds (fun d' hd => hne d' (List.mem_cons_of_mem d hd)) (hok.2 _ rfl) c hc

/-- **When the count is right.** After any sequence of non-empty calls on a
module just loaded, a further one is honest exactly when it finds room for its
bytes, or returns no count: its copy faults, or its length is no `int`. And
the account of a sequence of non-empty calls whose copies succeed balances
when they all find room, and – their lengths being counts – only then. -/
theorem honest_iff (kbuf : ℤ → Byte) (cs : List WriteCall) (hne : ∀ c ∈ cs, c.buf ≠ []) :
    (∀ call : WriteCall, call.buf ≠ [] →
      (Honest (lcdWrites p (Statics.initial kbuf) cs).2 call
          (lcdWrite (some p) (lcdWrites p (Statics.initial kbuf) cs).2 call)
        ↔ (call.copied = .all → call.len < 2 ^ 31 →
            Fits (lcdWrites p (Statics.initial kbuf) cs).2 call)))
    ∧ ((∀ c ∈ cs, c.copied = .all) →
      (Transition.AllOk (serialStep p) Fits (Statics.initial kbuf) cs →
        Conserved cs (lcdWrites p (Statics.initial kbuf) cs).1
          (lcdWrites p (Statics.initial kbuf) cs).2)
      ∧ ((∀ c ∈ cs, c.len < 2 ^ 31) →
        Conserved cs (lcdWrites p (Statics.initial kbuf) cs).1
          (lcdWrites p (Statics.initial kbuf) cs).2 →
        Transition.AllOk (serialStep p) Fits (Statics.initial kbuf) cs)) := by
  have hrun := lcdWrites_meets p (holds_initial kbuf) (allOk_hasByte_of_nonempty p hne)
  refine ⟨fun call hcall => ?_, fun hall => ?_⟩
  · have hs := hrun.holds
    generalize (lcdWrites p (Statics.initial kbuf) cs).2 = s at *
    have hm := lcdWrite_meets_of_ne_nil p hs hcall
    cases hcopied : call.copied with
    | fault left =>
      refine iff_of_true (honest_of_ret_neg ?_) (fun h => absurd h (by simp))
      rw [hm.ret, returned, hcopied]
      show -EFAULT < 0
      decide
    | all =>
      rcases lt_or_ge call.len (2 ^ 31) with hlen | hlen
      · rw [honest_iff_fits p hs hcall hcopied hlen]
        exact ⟨fun h _ _ => h, fun h => h rfl hlen⟩
      · refine iff_of_true (honest_of_ret_neg ?_) (fun _ h => absurd h (by omega))
        rw [hm.ret, returned, hcopied]
        have := call.isSize
        exact toInt_neg (by exact_mod_cast hlen) (by exact_mod_cast this)
  · have hconserved : (∀ c ∈ cs, c.len < 2 ^ 31) →
        (Conserved cs (lcdWrites p (Statics.initial kbuf) cs).1
            (lcdWrites p (Statics.initial kbuf) cs).2
          ↔ Transition.AllOk (serialStep p) Fits (Statics.initial kbuf) cs) := by
      intro hlen
      unfold Conserved
      rw [zipWith_accepted hrun.rets hall hlen, hrun.holds.pending, List.flatMap_def,
        hrun.lines, answers_of_all hall, allOk_fits_iff p (holds_initial kbuf) hne hall,
        ← LineBuffer.feed_conserve_iff, eq_comm]
      rfl
    exact ⟨fun hok => (hconserved (length_lt_of_fits p (holds_initial kbuf) hne hok)).mpr hok,
      fun hlen => (hconserved hlen).mp⟩

theorem honest_iff_short :
    Honest (lcdWrites () (Statics.initial fun _ => 0) [shortCall]).2 shortCall
        (lcdWrite (some ()) (lcdWrites () (Statics.initial fun _ => 0) [shortCall]).2 shortCall)
      ∧ Conserved [shortCall] (lcdWrites () (Statics.initial fun _ => 0) [shortCall]).1
        (lcdWrites () (Statics.initial fun _ => 0) [shortCall]).2 :=
  have h := honest_iff () (fun _ => 0) [shortCall] (by simp [shortCall])
  ⟨(h.1 shortCall (by simp [shortCall])).mpr (fun _ _ => by unfold Fits; decide),
    (h.2 (by simp [shortCall])).1 ⟨by unfold Fits; decide, fun _ _ => trivial⟩⟩

/-- **Not for every call**: two letters more, after the 33 that fill the
buffer, are counted and lost. -/
theorem not_forall_honest :
    ¬ ∀ (kbuf : ℤ → Byte) (cs : List WriteCall), (∀ c ∈ cs, c.buf ≠ []) →
        ∀ call : WriteCall, call.buf ≠ [] →
          Honest (lcdWrites () (Statics.initial kbuf) cs).2 call
            (lcdWrite (some ()) (lcdWrites () (Statics.initial kbuf) cs).2 call) := by
  intro h
  have hhon := h (fun _ => 0) [longCall] (by simp [longCall]) shortCall (by simp [shortCall])
  unfold Honest at hhon
  exact absurd hhon (by decide)

/-! ## Cutting a stream into writes -/

/-- **What a stream displays.** Cut into non-empty writes so that each newline
ends a write, and with no line longer than 32 bytes, a stream shows its lines,
each up to its first NUL, and leaves its unfinished end pending. -/
theorem shown_splitOn (kbuf : ℤ → Byte) {cs : List WriteCall} (hne : ∀ c ∈ cs, c.buf ≠ [])
    (hall : ∀ c ∈ cs, c.copied = .all) (hnl : ∀ c ∈ cs, newline ∉ c.buf.dropLast)
    (hlen : ∀ l ∈ (cs.flatMap (·.buf)).splitOn newline, l.length ≤ 32) :
    ∃ ls, (cs.flatMap (·.buf)).splitOn newline
        = ls ++ [(lcdWrites p (Statics.initial kbuf) cs).2.pending]
      ∧ (lcdWrites p (Statics.initial kbuf) cs).1.flatMap (·.shown)
        = ls.map (List.takeWhile (· ≠ 0)) := by
  have hrun := lcdWrites_meets p (holds_initial kbuf) (allOk_hasByte_of_nonempty p hne)
  rw [answers_of_all hall] at hrun
  have hinner : ∀ c ∈ cs.map (·.buf), newline ∉ c.dropLast := by
    intro c hc
    obtain ⟨d, hd, rfl⟩ := List.mem_map.mp hc
    exact hnl d hd
  obtain ⟨ls, hsplit, hlines⟩ := LineBuffer.feed_splitOn (LineBuffer.empty : Pending)
    List.not_mem_nil _ hinner (fun l hl => Nat.lt_succ_of_le (hlen l hl))
  refine ⟨ls, ?_, ?_⟩
  · rw [hrun.holds.pending]
    exact hsplit
  · have hfilter : ((LineBuffer.empty : Pending).feed (cs.map (·.buf))).1.filter (· ≠ [])
        = ls.map (· ++ [newline]) := hlines
    rw [hrun.shown, flatMap_shownOf, hfilter, List.map_map]
    refine List.map_congr_left (fun l _ => ?_)
    show lineText (l ++ [newline]) = _
    rw [lineText, List.dropLast_concat]

/-- **The cutting does not matter** among those in which each newline ends a
write: two of them, of one stream with no line longer than 32 bytes, pass on
the same strings and leave the same bytes pending, whatever stood in the
buffer. -/
theorem chunking_independent (kbuf kbuf' : ℤ → Byte) (cs cs' : List WriteCall)
    (hne : ∀ c ∈ cs ++ cs', c.buf ≠ []) (hall : ∀ c ∈ cs ++ cs', c.copied = .all)
    (hnl : ∀ c ∈ cs ++ cs', newline ∉ c.buf.dropLast)
    (hsame : cs.flatMap (·.buf) = cs'.flatMap (·.buf))
    (hlen : ∀ l ∈ (cs.flatMap (·.buf)).splitOn newline, l.length ≤ 32) :
    (lcdWrites p (Statics.initial kbuf) cs).1.flatMap (·.shown)
        = (lcdWrites p (Statics.initial kbuf') cs').1.flatMap (·.shown)
      ∧ (lcdWrites p (Statics.initial kbuf) cs).2.pending
        = (lcdWrites p (Statics.initial kbuf') cs').2.pending := by
  rw [List.forall_mem_append] at hne hall hnl
  obtain ⟨ls, hsplit, hshown⟩ := shown_splitOn p kbuf hne.1 hall.1 hnl.1 hlen
  obtain ⟨ls', hsplit', hshown'⟩ :=
    shown_splitOn p kbuf' hne.2 hall.2 hnl.2 (by rw [← hsame]; exact hlen)
  rw [hsame, hsplit'] at hsplit
  obtain ⟨hls, hend⟩ := List.append_inj' hsplit rfl
  exact ⟨by rw [hshown, hshown', hls], (List.singleton_inj.mp hend).symm⟩

/-- Two letters, each a line of its own: in one write, and in two. -/
def bothLines : WriteCall := ⟨[0x61, newline, 0x62, newline], .all, by decide⟩
def firstLine : WriteCall := ⟨[0x61, newline], .all, by decide⟩
def secondLine : WriteCall := ⟨[0x62, newline], .all, by decide⟩

theorem chunking_independent_lines :
    (lcdWrites () (Statics.initial fun _ => 0) [firstLine, secondLine]).1.flatMap (·.shown)
        = (lcdWrites () (Statics.initial fun _ => 1)
            [⟨[0x61], .all, by decide⟩, newlineCall, secondLine]).1.flatMap (·.shown)
      ∧ (lcdWrites () (Statics.initial fun _ => 0) [firstLine, secondLine]).2.pending
        = (lcdWrites () (Statics.initial fun _ => 1)
            [⟨[0x61], .all, by decide⟩, newlineCall, secondLine]).2.pending :=
  chunking_independent () (fun _ => 0) (fun _ => 1) _ _
    (by simp [firstLine, secondLine, newlineCall]) (by simp [firstLine, secondLine, newlineCall])
    (by simp [firstLine, secondLine, newlineCall]) rfl (by decide)

/-- **Among all cuttings it does**: in one write, the first newline is taken
for a part of the text. -/
theorem not_forall_chunking_independent :
    ¬ ∀ (kbuf kbuf' : ℤ → Byte) (cs cs' : List WriteCall),
        (∀ c ∈ cs ++ cs', c.buf ≠ []) → (∀ c ∈ cs ++ cs', c.copied = .all) →
        cs.flatMap (·.buf) = cs'.flatMap (·.buf) →
        (∀ l ∈ (cs.flatMap (·.buf)).splitOn newline, l.length ≤ 32) →
        (lcdWrites () (Statics.initial kbuf) cs).1.flatMap (·.shown)
            = (lcdWrites () (Statics.initial kbuf') cs').1.flatMap (·.shown)
          ∧ (lcdWrites () (Statics.initial kbuf) cs).2.pending
            = (lcdWrites () (Statics.initial kbuf') cs').2.pending := by
  intro h
  have hshown := (h (fun _ => 0) (fun _ => 0) [bothLines] [firstLine, secondLine]
    (by simp [bothLines, firstLine, secondLine]) (by simp [bothLines, firstLine, secondLine])
    rfl (by decide)).1
  exact absurd hshown (by decide)

end Lcd
