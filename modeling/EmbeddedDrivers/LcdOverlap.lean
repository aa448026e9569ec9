import EmbeddedDrivers.LcdSerial

/-!
# Overlapping writes to the character device

`lcd_write` takes no lock, and `copy_from_user` may sleep. A call reads the
fill count, fixes from it where the copy goes and how long it is, sleeps, and
then adds that length to the fill count – which by then may be another one.
The system here is that: any number of calls in flight, each entering and
finishing in its own time, in any order.

The invariant is not about the static variables alone. A call in flight
carries a promise made at its entry, that its bytes fit behind the count *it
read*; when it finishes, its length is added to the count *it finds*. The two
are compared in `StillFits`: either the count has not moved past what the call
read, which it never has where calls do not overlap, or the bytes it asked for
fit all the same. Runs whose calls finish in such states stay in the buffer
(`overlap_safe`). A call that finishes in another one looks for its newline
beyond the end of the buffer (`finish_looks_past`), and if there is none, the
count stays past the end; the subtraction that grants the next call its room
then wraps around.
-/

namespace Lcd

/-- **The device while calls overlap**: the static variables, and the copies
under way. -/
structure Overlap where
  statics : Statics
  inFlight : List InFlight

/-- A call enters, or one of those in flight finishes. -/
inductive OverlapEvent
  | enter (call : WriteCall)
  | finish (i : ℕ)

/-- **One step**: what a call does up to `copy_from_user`, or from there
on. -/
def overlapStep (o : Overlap) : OverlapEvent → Option Overlap
  | .enter call => some ⟨o.statics, o.inFlight ++ [lcdWriteEnter o.statics call]⟩
  | .finish i => o.inFlight[i]?.map fun f =>
      ⟨(lcdWriteFinish o.statics f).statics, o.inFlight.eraseIdx i⟩

/-- The device just loaded. -/
def Overlap.initial (kbuf : ℤ → Byte) : Overlap := ⟨Statics.initial kbuf, []⟩

/-- **What the driver relies on** in every state: the fill count is one of the
buffer, the copies under way stay inside it, and the room that would be
granted to the next call is the room there is. -/
structure Safe (o : Overlap) : Prop where
  pos : 0 ≤ o.statics.pos ∧ o.statics.pos ≤ kbufSize
  inside : ∀ f ∈ o.inFlight, 0 ≤ f.dst ∧ f.dst + f.clen ≤ kbufSize
  noWrap : (toSize (kbufSize - o.statics.pos) : ℤ) = kbufSize - o.statics.pos

/-- The condition on a step: a call whose copy succeeds finds a fill count
that has not moved past the one it read, or room for all it was called
with. -/
def StillFits (o : Overlap) : OverlapEvent → Prop
  | .enter _ => True
  | .finish i => ∀ f, o.inFlight[i]? = some f → f.call.copied = .all →
      o.statics.pos ≤ f.dst ∨ o.statics.pos + f.call.len ≤ kbufSize

/-! ## The invariant -/

/-- **A promise made at the entry of a call**: it was granted what it asked
for, or what was left behind the count it read. -/
structure InFlight.Promised (f : InFlight) : Prop where
  dst : 0 ≤ f.dst ∧ f.dst ≤ kbufSize
  clen : (f.clen : ℤ) = min (f.call.len : ℤ) (kbufSize - f.dst)

/-- The fill count is one of the buffer, and all calls in flight have been
promised their bytes. -/
structure Promises (o : Overlap) : Prop where
  pos : 0 ≤ o.statics.pos ∧ o.statics.pos ≤ kbufSize
  promised : ∀ f ∈ o.inFlight, f.Promised

theorem promises_initial (kbuf : ℤ → Byte) : Promises (Overlap.initial kbuf) :=
  ⟨⟨le_rfl, Int.natCast_nonneg kbufSize⟩, fun _ hf => absurd hf List.not_mem_nil⟩

/-- Within the buffer the room does not wrap around. -/
theorem toSize_room {z : ℤ} (h : 0 ≤ z ∧ z ≤ kbufSize) :
    (toSize (kbufSize - z) : ℤ) = kbufSize - z := by
  have hsize : (kbufSize : ℤ) = 33 := rfl
  rw [toSize_of_nonneg (by omega) (by omega)]
  omega

theorem safe_of_promises {o : Overlap} (h : Promises o) : Safe o := by
  refine ⟨h.pos, fun f hf => ?_, toSize_room h.pos⟩
  have hdst := (h.promised f hf).dst
  have hclen := (h.promised f hf).clen
  omega

/-- A call that enters is promised its bytes. -/
theorem promised_enter {s : Statics} (h : 0 ≤ s.pos ∧ s.pos ≤ kbufSize) (call : WriteCall) :
    (lcdWriteEnter s call).Promised := by
  refine ⟨h, ?_⟩
  show ((min call.len (toSize (kbufSize - s.pos)) : ℕ) : ℤ) = min (call.len : ℤ) (kbufSize - s.pos)
  have hroom := toSize_room h
  omega

/-- **What finishing does to the fill count**: it is reset, or the granted
length is added to it. -/
theorem pos_finish (s : Statics) (f : InFlight) :
    (lcdWriteFinish s f).statics.pos = 0
      ∨ f.call.copied = .all
        ∧ (lcdWriteFinish s f).statics.pos = toInt (s.pos + f.clen) := by
  unfold lcdWriteFinish
  cases hc : f.call.copied with
  | fault left => exact Or.inl rfl
  | all =>
    dsimp only
    split
    · exact Or.inl rfl
    · exact Or.inr ⟨rfl, rfl⟩

/-- A call that still fits leaves the fill count in the buffer. -/
theorem add_clen_le {o : Overlap} {f : InFlight} (hf : f.Promised)
    (h : o.statics.pos ≤ f.dst ∨ o.statics.pos + f.call.len ≤ kbufSize) :
    o.statics.pos + f.clen ≤ kbufSize := by
  have hdst := hf.dst
  have hclen := hf.clen
  omega

/-- **Every step keeps the promises** that finishes a call only where it still
fits. -/
theorem promises_step (o : Overlap) (e : OverlapEvent) (o' : Overlap) (h : Promises o)
    (hok : StillFits o e) (hstep : overlapStep o e = some o') : Promises o' := by
  cases e with
  | enter call =>
    obtain rfl := Option.some.inj hstep
    refine ⟨h.pos, fun f hf => ?_⟩
    rcases List.mem_append.mp hf with hf | hf
    · exact h.promised f hf
    · rw [List.mem_singleton.mp hf]
      exact promised_enter h.pos call
  | finish i =>
    obtain ⟨f, hf, rfl⟩ := Option.map_eq_some_iff.mp hstep
    have hpromised := h.promised f (List.mem_of_getElem? hf)
    refine ⟨?_, fun g hg => h.promised g (List.mem_of_mem_eraseIdx hg)⟩
    show 0 ≤ (lcdWriteFinish o.statics f).statics.pos
      ∧ (lcdWriteFinish o.statics f).statics.pos ≤ kbufSize
    -- the length was granted behind another count than it is added to
    rcases pos_finish o.statics f with hzero | ⟨hall, hadd⟩
    · rw [hzero]
      exact ⟨le_rfl, by decide⟩
    · have hle := add_clen_le hpromised (hok f hf hall)
      have hpos := h.pos
      have hsize : (kbufSize : ℤ) = 33 := rfl
      rw [hadd, toInt_of_small (by omega) (by omega)]
      omega

/-- **Overlapping calls whose bytes still fit stay inside the buffer.** In
every state of every run of a module just loaded – any number of calls, of any
lengths, bytes and copy results, entering and finishing in any order – in
which every call that finishes its copy finds a fill count that has not moved
past the one it read, or room for all its bytes: the fill count is between 0
and 33, every copy under way lies in the buffer, and the room computed for
the next call does not wrap around. -/
theorem overlap_safe (kbuf : ℤ → Byte) (es : List OverlapEvent)
    (hok : Transition.AllOk overlapStep StillFits (Overlap.initial kbuf) es) (o : Overlap)
    (hr : Transition.Reached overlapStep (Overlap.initial kbuf) es o) : Safe o :=
  safe_of_promises
    (Transition.invariant_of_allOk promises_step (promises_initial kbuf) hok hr)

/-- Two calls of two letters each, both in flight before the first finishes. -/
def overlapping : List OverlapEvent :=
  [.enter shortCall, .enter shortCall, .finish 0, .finish 0]

/-- The second finds the count past the one it read, but room. -/
theorem stillFits_overlapping :
    Transition.AllOk overlapStep StillFits (Overlap.initial fun _ => 0) overlapping := by
  refine ⟨trivial, fun o₁ h₁ => ⟨trivial, fun o₂ h₂ => ⟨fun f hf _ => ?_, fun o₃ h₃ =>
    ⟨fun f hf _ => ?_, fun _ _ => trivial⟩⟩⟩⟩
  · obtain rfl := Option.some.inj h₁
    obtain rfl := Option.some.inj h₂
    obtain rfl := Option.some.inj hf
    exact Or.inl (by decide)
  · obtain rfl := Option.some.inj h₁
    obtain rfl := Option.some.inj h₂
    obtain rfl := Option.some.inj h₃
    obtain rfl := Option.some.inj hf
    exact Or.inr (by decide)

theorem overlap_safe_short :
    ∃ o, Transition.run overlapStep (Overlap.initial fun _ => 0) overlapping = some o
      ∧ o.statics.pos = 4 ∧ Safe o :=
  ⟨_, rfl, by decide, overlap_safe (fun _ => 0) overlapping stillFits_overlapping _
    ⟨_, List.prefix_rfl, rfl⟩⟩

/-- **Not for every run**: two calls of 33 letters, both granted the whole
buffer before the first finishes, take the fill count to 66. -/
theorem not_forall_overlap_safe :
    ¬ ∀ (kbuf : ℤ → Byte) (es : List OverlapEvent) (o : Overlap),
        (∀ e ∈ es, ∀ call, e = .enter call → call.buf ≠ []) →
        Transition.Reached overlapStep (Overlap.initial kbuf) es o → Safe o := by
  intro h
  have hsafe := h (fun _ => 0) [.enter longCall, .enter longCall, .finish 0, .finish 0] _
    (by simp [longCall]) ⟨_, List.prefix_rfl, rfl⟩
  exact absurd hsafe.pos.2 (by decide)

/-- **A call that no longer fits looks past the end** for its newline. -/
theorem finish_looks_past {o : Overlap} (h : Promises o) {i : ℕ} {f : InFlight}
    (hf : o.inFlight[i]? = some f) (hall : f.call.copied = .all)
    (hlate : ¬ StillFits o (.finish i)) :
    ∃ j ∈ (lcdWriteFinish o.statics f).touched, (kbufSize : ℤ) ≤ j := by
  have hpromised := h.promised f (List.mem_of_getElem? hf)
  have hdst := hpromised.dst
  have hclen := hpromised.clen
  have hpos := h.pos
  have hsize : (kbufSize : ℤ) = 33 := rfl
  have hpast : ¬ (o.statics.pos ≤ f.dst ∨ o.statics.pos + f.call.len ≤ kbufSize) :=
    fun hfits => hlate (fun g hg _ => Option.some.inj (hf.symm.trans hg) ▸ hfits)
  refine ⟨_, looked_at_mem_touched o.statics hall, ?_⟩
  rw [toInt_of_small (by omega) (by omega)]
  omega

/-! ## Calls that do not overlap -/

/-- **Serial calls are the runs in which each call finishes before the next
enters.** -/
theorem run_serial {P : Type} (p : P) (s : Statics) (cs : List WriteCall) :
    Transition.run overlapStep ⟨s, []⟩ (cs.flatMap fun c => [.enter c, .finish 0])
      = some ⟨(lcdWrites p s cs).2, []⟩ := by
  induction cs generalizing s with
  | nil => rfl
  | cons c cs ih => exact ih (lcdWrite (some p) s c).statics

end Lcd
