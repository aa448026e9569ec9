import EmbeddedDrivers.LcdOverlap
import EmbeddedDrivers.LcdSystem
import Mathlib.Data.List.TakeWhile

/-!
# The display under overlapping writes

Calls of `lcd_write` that overlap can take the fill count past the end of the
buffer (`EmbeddedDrivers.LcdOverlap`). This module is about what the display
makes of them, whether they do or not.

They overlap here as they do there, where one of them sleeps, in
`copy_from_user`. What a call does after its copy is one step, its display calls
included. The function holds no lock, and it is the scheduler that has to let it
finish, as it does on one core without preemption in the kernel. Where it does
not, a character sent in the middle of a pulse takes a strobe away, and the
controller is out of step from there on (`not_synced_of_interrupted`).

With that the count is all that suffers. A string that is shown is read from the
beginning of the buffer and for 32 bytes at most, wherever the newline was found;
and so the controller gets whole strings, one after the other, and is never left
between two nibbles. What stands in the buffer is another matter: it may be pieces
of several lines, but nothing that no caller has sent.

`overlapping_shows` says this of all runs. The bytes a caller sends are those of
its buffer or, where the copy has failed, whatever the copy has left.
-/

namespace Lcd

/-! ## The system -/

/-- **The device while calls overlap, and its display**: the static variables and
the copies under way, the levels of the six lines, and the controller. -/
structure Shared where
  overlap : Overlap
  levels : Levels
  controller : Hd44780

/-- What the call does that finishes, if there is one. -/
def finishing (o : Overlap) : OverlapEvent → Option Outcome
  | .enter _ => none
  | .finish i => o.inFlight[i]?.map (lcdWriteFinish o.statics)

/-- The line events of a step. -/
def sharedWires (o : Overlap) (e : OverlapEvent) : List PinEvent :=
  (finishing o e).elim [] fun r => pins r.calls

/-- **One step**: one of the driver, and what its line events do to the lines and
to the controller. Those of a call that finishes come one after the other, with
none of another call between them. -/
def Shared.step (s : Shared) (e : OverlapEvent) : Option Shared :=
  (overlapStep s.overlap e).map fun o =>
    { overlap := o
      levels := Strobe.settle s.levels (sharedWires s.overlap e)
      controller := display s.controller s.levels (sharedWires s.overlap e) }

/-- A character sent, up to the middle of its first pulse. -/
def charBegun (v : Byte) : List PinEvent := RS 1 ++ highData v ++ EN 1

/-- The rest of it. -/
def charEnded (v : Byte) : List PinEvent := EN 0 ++ lowData v ++ lcdEnablePulse

theorem charBegun_append_charEnded (v : Byte) : charBegun v ++ charEnded v = pins [.data v] := rfl

/-- **With another character in between** there are three strobes for the two: one
raises an EN that is up, and lowers it for both. -/
theorem received_interrupted {lv : Levels} (hlow : lv .en = false) (u v : Byte) :
    ∃ n₁ n₂ n₃, received lv (charBegun u ++ pins [.data v] ++ charEnded u)
      = [⟨true, n₁⟩, ⟨true, n₂⟩, ⟨true, n₃⟩] := by
  have hlv : lv = Function.update lv .en false := by rw [← hlow, Function.update_eq_self]
  rw [hlv]
  exact ⟨_, _, _, rfl⟩

/-- **Why the step is one**: interrupted by another there, a character leaves the
controller out of step. -/
theorem not_synced_of_interrupted {c : Hd44780} (h : c.Synced) {lv : Levels}
    (hlow : lv .en = false) (u v : Byte) :
    ¬ (display c lv (charBegun u ++ pins [.data v] ++ charEnded u)).Synced := by
  obtain ⟨n₁, n₂, n₃, hreceived⟩ := received_interrupted hlow u v
  unfold Hd44780.Synced at h ⊢
  rw [display, hreceived, Hd44780.phase_strobes, h]
  simp [Hd44780.Phase.strobes, Sample.strobe, Hd44780.Phase.latch, Hd44780.Phase.accept]

/-- The strings a step passes to `lcd_send_string`. -/
def Shared.shown (s : Shared) (e : OverlapEvent) : List (List Byte) :=
  (finishing s.overlap e).elim [] (·.shown)

/-- **What a call brings**: its bytes, or what a failed copy has left. -/
def WriteCall.brought (call : WriteCall) : List Byte :=
  match call.copied with
  | .all => call.buf
  | .fault left => left

/-! ## What finishing does -/

variable {Q : Byte → Prop}

/-- A call brings nothing else into the buffer. -/
theorem finish_forall (hzero : Q 0) {s : Statics} {j : ℤ} (hkbuf : Q (s.kbuf j)) {f : InFlight}
    (hf : ∀ b ∈ f.call.brought, Q b) : Q ((lcdWriteFinish s f).statics.kbuf j) := by
  unfold WriteCall.brought at hf
  unfold lcdWriteFinish
  cases hc : f.call.copied with
  | fault left =>
    rw [hc] at hf
    exact Memory.store_forall hkbuf (fun b hb => hf b (List.mem_of_mem_take hb)) f.dst
  | all =>
    rw [hc] at hf
    have hcopied := Memory.store_forall hkbuf
      (fun b (hb : b ∈ f.call.buf.take f.clen) => hf b (List.mem_of_mem_take hb)) f.dst
    dsimp only
    split
    · exact Memory.store_forall hcopied (List.forall_mem_singleton.mpr hzero) _
    · exact hcopied

/-- **A call that finishes shows nothing, or the string that then stands in the
buffer.** -/
theorem finish_shows (s : Statics) (f : InFlight) :
    (lcdWriteFinish s f).calls = ((lcdWriteFinish s f).shown).flatMap displayCalls
      ∧ ∀ t ∈ (lcdWriteFinish s f).shown,
        t = text fun i : ℕ => (lcdWriteFinish s f).statics.kbuf i := by
  unfold lcdWriteFinish
  cases f.call.copied with
  | fault left => exact ⟨rfl, fun t ht => absurd ht List.not_mem_nil⟩
  | all =>
    dsimp only
    split
    · refine ⟨?_, fun t ht => List.mem_singleton.mp ht⟩
      rw [List.flatMap_singleton, calls_lcdSendString]
      rfl
    · exact ⟨rfl, fun t ht => absurd ht List.not_mem_nil⟩

/-- The bytes of a text are among the first 32 of the message, and not NUL. -/
theorem text_forall {msg : ℕ → Byte} (h : ∀ i < 32, Q (msg i)) : ∀ b ∈ text msg, Q b ∧ b ≠ 0 := by
  intro b hb
  obtain ⟨i, hi, rfl⟩ := List.mem_map.mp ((List.takeWhile_sublist _).subset hb)
  exact ⟨h i (List.mem_range.mp hi), by simpa using List.mem_takeWhile_imp hb⟩

/-! ## The run -/

/-- The condition on an event: the call that enters brings bytes of the kind in
question. -/
def Brings (Q : Byte → Prop) : OverlapEvent → Prop
  | .enter call => ∀ b ∈ call.brought, Q b
  | .finish _ => True

/-- **The invariant**, with the strings shown so far: the display stands at the
last of them, or at what it showed before, and all bytes in them, in the buffer
and under way are of the kind in question. -/
structure AtLast (Q : Byte → Prop) (t₀ : List Byte) (os : List (List Byte)) (s : Shared) :
    Prop where
  low : s.levels .en = false
  listening : Listening s.controller
  last : ∃ t, (t₀ :: os).getLast? = some t ∧ Shows s.controller t
  kbuf : ∀ j : ℤ, 0 ≤ j → j < kbufSize → Q (s.overlap.statics.kbuf j)
  inFlight : ∀ f ∈ s.overlap.inFlight, ∀ b ∈ f.call.brought, Q b
  strings : ∀ t ∈ os, t.length ≤ 32 ∧ ∀ b ∈ t, Q b ∧ b ≠ 0

/-- **What strings do to the display**, from one it shows. -/
theorem strings_shows {c : Hd44780} {lv : Levels} (hlow : lv .en = false) (hc : Listening c)
    {t₀ : List Byte} {os : List (List Byte)}
    (hlast : ∃ t, (t₀ :: os).getLast? = some t ∧ Shows c t) {ts : List (List Byte)}
    (hts : ∀ t ∈ ts, t.length ≤ 32) :
    Listening (display c lv (pins (ts.flatMap displayCalls)))
      ∧ ∃ t, (t₀ :: (os ++ ts)).getLast? = some t
        ∧ Shows (display c lv (pins (ts.flatMap displayCalls))) t := by
  obtain ⟨hlisten, hshows⟩ := texts_shows hc hts
  rw [display_pins hlow]
  refine ⟨hlisten, ?_⟩
  cases hts' : ts.getLast? with
  | none =>
    obtain rfl := List.getLast?_eq_none_iff.mp hts'
    rw [List.append_nil]
    exact hlast
  | some t =>
    refine ⟨t, ?_, hshows t hts'⟩
    rw [← List.cons_append, List.getLast?_append, hts']
    rfl

/-- **Every step keeps it.** -/
theorem atLast_step (hzero : Q 0) (t₀ : List Byte) (os : List (List Byte)) (s : Shared)
    (e : OverlapEvent) (s' : Shared) (h : AtLast Q t₀ os s) (he : Brings Q e)
    (hstep : s.step e = some s') : AtLast Q t₀ (os ++ s.shown e) s' := by
  obtain ⟨o, ho, rfl⟩ := Option.map_eq_some_iff.mp hstep
  cases e with
  | enter call =>
    obtain rfl := Option.some.inj ho
    rw [show s.shown (.enter call) = [] from rfl, List.append_nil]
    refine ⟨h.low, h.listening, h.last, h.kbuf, ?_, h.strings⟩
    exact List.forall_mem_append.mpr ⟨h.inFlight, List.forall_mem_singleton.mpr he⟩
  | finish i =>
    obtain ⟨f, hf, rfl⟩ := Option.map_eq_some_iff.mp ho
    have hfinishing :
        finishing s.overlap (.finish i) = some (lcdWriteFinish s.overlap.statics f) := by
      rw [finishing, hf]
      rfl
    have hwires : sharedWires s.overlap (.finish i)
        = pins ((lcdWriteFinish s.overlap.statics f).shown.flatMap displayCalls) := by
      rw [sharedWires, hfinishing, ← (finish_shows s.overlap.statics f).1]
      rfl
    have hshown : s.shown (.finish i) = (lcdWriteFinish s.overlap.statics f).shown := by
      rw [Shared.shown, hfinishing]
      rfl
    have hkbuf : ∀ j : ℤ, 0 ≤ j → j < kbufSize →
        Q ((lcdWriteFinish s.overlap.statics f).statics.kbuf j) := fun j hj hj' =>
      finish_forall hzero (h.kbuf j hj hj') (h.inFlight f (List.mem_of_getElem? hf))
    have hstrings : ∀ t ∈ (lcdWriteFinish s.overlap.statics f).shown,
        t.length ≤ 32 ∧ ∀ b ∈ t, Q b ∧ b ≠ 0 := by
      intro t ht
      rw [(finish_shows s.overlap.statics f).2 t ht]
      refine ⟨length_text_le _, text_forall fun i hi => hkbuf i (Int.natCast_nonneg i) ?_⟩
      show (i : ℤ) < 33
      omega
    obtain ⟨hlisten, hlast⟩ :=
      strings_shows h.low h.listening h.last fun t ht => (hstrings t ht).1
    rw [hshown, hwires]
    exact ⟨settle_pins h.low _, hlisten, hlast, hkbuf,
      fun g hg => h.inFlight g (List.mem_of_mem_eraseIdx hg),
      List.forall_mem_append.mpr ⟨h.strings, hstrings⟩⟩

/-- The overrun of `not_forall_overlap_safe`, and a newline after it. -/
def overrun : List OverlapEvent :=
  [.enter longCall, .enter longCall, .finish 0, .finish 0, .enter newlineCall, .finish 0]

end Lcd
