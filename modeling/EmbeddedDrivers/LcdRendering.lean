import EmbeddedDrivers.LcdInit
import EmbeddedDrivers.LcdLifecycle
import EmbeddedDrivers.LcdSerial

/-!
# From a write to the display

What a user writes to the device and what then stands in the memory of the
controller, with everything in between: the writes cut as one likes, the line
buffer, the string loop and its jump to the second row, the nibbles and the
strobes on the lines, and the controller's own address counter.

Each of these has been dealt with on its own. `shown_splitOn` turns writes
into texts, `RunMeets` texts into calls, `display_pins` calls into strobes,
`strobes_callStrobes` strobes into bytes, and `writeAll_eq` bytes into memory.
What is added here is the content of one display, `foldl_displayCalls`, and
that a controller found in step after the registration has been brought there
by the initialisation (`listening_of_synced`): one that was out of step before
is out of step after, whatever the greeting that follows is misread as.

A binding begins with the display cleared and the greeting on it, but not with
an empty buffer. The static variables of `lcd_write` belong to the module, and
neither a probe nor a remove resets them; bytes that were pending when the
device was unbound are the beginning of the first line after the next binding.
`rendering_iff` is that this is the only thing that can go wrong.
-/

namespace Lcd

/-! ## One display -/

/-- **The controller shows a text**: sixteen bytes on the first row, the
others on the second, and spaces in every other cell of its memory. -/
structure Shows (c : Hd44780) (t : List Byte) : Prop where
  row0 : ∀ a < 16, c.ddram a = t.getD a 0x20
  row1 : ∀ a < 16, c.ddram (0x40 + a) = t.getD (16 + a) 0x20
  blank : ∀ a, ¬ a < 16 → ¬ (0x40 ≤ a ∧ a < 0x50) → c.ddram a = 0x20

/-- The controller is in step and has two lines. -/
structure Listening (c : Hd44780) : Prop where
  synced : c.Synced
  twoLine : c.twoLine = true

/-- Data calls are a run of data bytes. -/
theorem foldl_receive_data (c : Hd44780) (vs : List Byte) :
    (vs.map LcdCall.data).foldl receive c = c.writeAll vs := List.foldl_map

theorem narrow_displayCalls (t : List Byte) : ∀ call ∈ displayCalls t, call.Narrow := by
  intro call hcall
  have hdata : ∀ vs : List Byte, call ∈ vs.map LcdCall.data → call.Narrow := by
    intro vs hvs
    obtain ⟨v, -, rfl⟩ := List.mem_map.mp hvs
    exact narrow_data v
  rcases List.mem_append.mp hcall with hhome | htext
  · have hall : ∀ call ∈ lcdClear ++ lcdSetCursor 0 0, call.Narrow := by decide
    exact hall call hhome
  · rcases List.mem_append.mp htext with hrow | hrow
    · exact hdata _ hrow
    · split at hrow
      · rcases List.mem_append.mp hrow with hjump | hrow
        · have hall : ∀ call ∈ lcdSetCursor 0 1, call.Narrow := by decide
          exact hall call hjump
        · exact hdata _ hrow
      · exact absurd hrow List.not_mem_nil

/-- The controller just cleared. -/
def cleared (c : Hd44780) : Hd44780 :=
  { c with ddram := fun _ => 0x20, addr := 0, inCgram := false, increment := true }

/-- The controller with bytes written from the beginning of a row on. -/
def withRow (c : Hd44780) (row : Fin 2) (vs : List Byte) : Hd44780 :=
  { c with
    addr := (rowOffsets row).toNat + vs.length
    inCgram := false
    ddram := fun a =>
      if (rowOffsets row).toNat ≤ a ∧ a < (rowOffsets row).toNat + vs.length then
        vs.getD (a - (rowOffsets row).toNat) 0
      else c.ddram a }

/-- The cursor put to a row and bytes sent. -/
theorem foldl_row {c : Hd44780} (hinc : c.increment = true) (htwo : c.twoLine = true)
    (row : Fin 2) {vs : List Byte} (hlen : vs.length ≤ 16) :
    (lcdSetCursor 0 row ++ vs.map LcdCall.data).foldl receive c = withRow c row vs := by
  have hjump : (lcdSetCursor 0 row).foldl receive c
      = { c with addr := (rowOffsets row).toNat, inCgram := false } := by
    match row with
    | 0 => rfl
    | 1 => rfl
  have hoffset : (rowOffsets row).toNat = 0 ∨ (rowOffsets row).toNat = 0x40 := by
    match row with
    | 0 => exact Or.inl rfl
    | 1 => exact Or.inr rfl
  rw [List.foldl_append, foldl_receive_data, hjump]
  refine Hd44780.writeAll_eq
    (c := { c with addr := (rowOffsets row).toNat, inCgram := false }) hinc rfl htwo vs ?_
  show (rowOffsets row).toNat + vs.length ≤ 0x27
    ∨ 0x40 ≤ (rowOffsets row).toNat ∧ (rowOffsets row).toNat + vs.length ≤ 0x67
  omega

/-- On a row of spaces, what has been written is followed by spaces. -/
theorem ddram_withRow (c : Hd44780) (row : Fin 2) (vs : List Byte) (i : ℕ)
    (hblank : c.ddram ((rowOffsets row).toNat + i) = 0x20) :
    (withRow c row vs).ddram ((rowOffsets row).toNat + i) = vs.getD i 0x20 := by
  by_cases hi : i < vs.length
  · show (if _ then vs.getD _ 0 else _) = _
    rw [if_pos (by omega), Nat.add_sub_cancel_left, List.getD_eq_getElem vs 0 hi,
      List.getD_eq_getElem vs 0x20 hi]
  · show (if _ then _ else c.ddram _) = _
    rw [if_neg (by omega), hblank, List.getD_eq_default vs 0x20 (by omega)]

/-- Elsewhere nothing changes. -/
theorem ddram_withRow_of_outside (c : Hd44780) (row : Fin 2) (vs : List Byte) {a : ℕ}
    (h : ¬ ((rowOffsets row).toNat ≤ a ∧ a < (rowOffsets row).toNat + vs.length)) :
    (withRow c row vs).ddram a = c.ddram a := if_neg h

/-- **What displaying a text does to the controller**: it is cleared and the
first row written; the second only where there is something for it. -/
theorem foldl_displayCalls {c : Hd44780} (htwo : c.twoLine = true) {t : List Byte}
    (ht : t.length ≤ 32) :
    (displayCalls t).foldl receive c
      = if 16 < t.length then withRow (withRow (cleared c) 0 (t.take 16)) 1 (t.drop 16)
        else withRow (cleared c) 0 (t.take 16) := by
  have hclear : lcdClear.foldl receive c = cleared c := rfl
  have hfirst : (lcdClear ++ lcdSetCursor 0 0 ++ (t.take 16).map LcdCall.data).foldl receive c
      = withRow (cleared c) 0 (t.take 16) := by
    rw [List.append_assoc, List.foldl_append, hclear]
    exact foldl_row (c := cleared c) rfl htwo 0 (List.length_take_le 16 t)
  rw [displayCalls, textCalls, ← List.append_assoc, List.foldl_append, hfirst]
  by_cases hlen : 16 < t.length
  · rw [if_pos hlen, if_pos hlen]
    exact foldl_row (c := withRow (cleared c) 0 (t.take 16)) rfl htwo 1
      (by rw [List.length_drop]; omega)
  · rw [if_neg hlen, if_neg hlen]
    rfl

/-- The first row of a text, on a display just cleared. -/
theorem shows_firstRow (c : Hd44780) (t : List Byte) :
    (∀ a < 16, (withRow (cleared c) 0 (t.take 16)).ddram a = t.getD a 0x20)
      ∧ ∀ a, ¬ a < 16 → (withRow (cleared c) 0 (t.take 16)).ddram a = 0x20 := by
  have hrow : (rowOffsets 0).toNat = 0 := rfl
  refine ⟨fun a ha => ?_, fun a ha => ddram_withRow_of_outside _ _ _ ?_⟩
  · have hcell := ddram_withRow (cleared c) 0 (t.take 16) a rfl
    rw [hrow, Nat.zero_add] at hcell
    rw [hcell, List.getD_eq_getElem?_getD, List.getElem?_take_of_lt ha,
      ← List.getD_eq_getElem?_getD]
  · rw [List.length_take]
    omega

/-- **A controller in step shows what it is sent**, and stays in step. -/
theorem displayCalls_shows {c : Hd44780} (h : Listening c) {t : List Byte} (ht : t.length ≤ 32) :
    Listening ((displayCalls t).foldl receive c) ∧ Shows ((displayCalls t).foldl receive c) t := by
  have hsync := (strobes_callStrobes h.synced (narrow_displayCalls t)).2
  obtain ⟨hfirst, hrest⟩ := shows_firstRow c t
  rw [foldl_displayCalls h.twoLine ht] at hsync ⊢
  by_cases hlen : 16 < t.length
  · rw [if_pos hlen] at hsync ⊢
    have hrow : (rowOffsets 1).toNat = 0x40 := rfl
    have hdrop : (t.drop 16).length ≤ 16 := by rw [List.length_drop]; omega
    refine ⟨⟨hsync, h.twoLine⟩, ⟨fun a ha => ?_, fun a ha => ?_, fun a h0 h1 => ?_⟩⟩
    · rw [ddram_withRow_of_outside _ _ _ (by omega)]
      exact hfirst a ha
    · have hcell := ddram_withRow (withRow (cleared c) 0 (t.take 16)) 1 (t.drop 16) a
        (hrest _ (by omega))
      rw [hrow] at hcell
      rw [hcell, List.getD_eq_getElem?_getD, List.getElem?_drop, ← List.getD_eq_getElem?_getD]
    · rw [ddram_withRow_of_outside _ _ _ (by omega)]
      exact hrest a h0
  · rw [if_neg hlen] at hsync ⊢
    refine ⟨⟨hsync, h.twoLine⟩, ⟨hfirst, fun a ha => ?_, fun a h0 _ => hrest a h0⟩⟩
    rw [List.getD_eq_default t 0x20 (by omega)]
    exact hrest _ (by omega)

/-- **A run of texts**, shown one after the other, keeps the controller in
step, and the last one is what it shows. -/
theorem texts_shows {c : Hd44780} (h : Listening c) {ts : List (List Byte)}
    (hts : ∀ t ∈ ts, t.length ≤ 32) :
    Listening (c.strobes (callStrobes (ts.flatMap displayCalls)))
      ∧ ∀ t, ts.getLast? = some t →
          Shows (c.strobes (callStrobes (ts.flatMap displayCalls))) t := by
  induction ts generalizing c with
  | nil => exact ⟨h, fun t ht => absurd ht (by simp)⟩
  | cons t ts ih =>
    obtain ⟨hfold, -⟩ := strobes_callStrobes h.synced (narrow_displayCalls t)
    obtain ⟨hlisten, hshows⟩ := displayCalls_shows h (hts t List.mem_cons_self)
    rw [← hfold] at hlisten hshows
    obtain ⟨hrest, hlast⟩ := ih hlisten (fun u hu => hts u (List.mem_cons_of_mem t hu))
    rw [List.flatMap_cons, callStrobes_append, Hd44780.strobes_append]
    refine ⟨hrest, fun u hu => ?_⟩
    cases ts with
    | nil =>
      obtain rfl : t = u := Option.some.inj hu
      exact hshows
    | cons t' ts => exact hlast u (by rwa [List.getLast?_cons_cons] at hu)

/-! ## After the registration -/

/-- The text shown at registration. -/
def greetingText : List Byte := text (cString greeting)

/-- A successful registration initialises the display and shows the
greeting. -/
theorem calls_register {P : Type} (p : P) (registered : Bool) :
    (lcdChrdevRegister (some p) registered 0).calls = lcdInit ++ displayCalls greetingText := by
  show lcdInit ++ lcdClear ++ lcdSetCursor 0 0 ++ sentCalls (lcdSendString (cString greeting)) = _
  rw [calls_lcdSendString, displayCalls, greetingText]
  simp only [List.append_assoc]

/-- **The controller can be brought into step** by the first command sent: it
holds no nibble, or a `3`. -/
def Recoverable (c : Hd44780) : Prop := ∀ n, c.phase = .four (some n) → n = 3

theorem Listening.recoverable {c : Hd44780} (h : Listening c) : Recoverable c :=
  fun _ hn => absurd (h.synced.symm.trans hn) (by simp)

/-- **The calls of a registration** bring such a controller into step and show the
greeting. -/
theorem registration_shows {c : Hd44780} (h : Recoverable c) :
    Listening (c.strobes (callStrobes (lcdInit ++ displayCalls greetingText)))
      ∧ Shows (c.strobes (callStrobes (lcdInit ++ displayCalls greetingText))) greetingText := by
  have hready : Ready (c.strobes (callStrobes lcdInit)) := by
    have hsplit : callStrobes lcdInit
        = callStrobes [.command 0x02] ++ callStrobes lcdInit.tail := rfl
    rw [hsplit, Hd44780.strobes_append]
    exact ready_of_synced (synced_first_command h)
  rw [callStrobes_append, Hd44780.strobes_append,
    (strobes_callStrobes hready.synced (narrow_displayCalls _)).1]
  exact displayCalls_shows ⟨hready.synced, hready.twoLine⟩ (length_text_le _)

/-- **A controller that holds another nibble is out of step** after the
registration, whatever the greeting is misread as. -/
theorem not_synced_registration {c : Hd44780} (h : ¬ Recoverable c) :
    ¬ (c.strobes (callStrobes (lcdInit ++ displayCalls greetingText))).Synced := by
  obtain ⟨n, hp, hn⟩ : ∃ n, c.phase = .four (some n) ∧ n ≠ 3 := by simpa [Recoverable] using h
  have hstuck : (Hd44780.Phase.four (some 0)).strobes (callStrobes (displayCalls greetingText))
      ≠ .four none := by decide
  rw [callStrobes_append, Hd44780.strobes_append]
  unfold Hd44780.Synced
  rw [Hd44780.phase_strobes, held_lcdInit hp hn]
  exact hstuck

/-- **A controller in step after the registration was brought there by the
initialisation**, and has two lines. -/
theorem listening_of_synced {c : Hd44780}
    (h : (c.strobes (callStrobes (lcdInit ++ displayCalls greetingText))).Synced) :
    Listening (c.strobes (callStrobes (lcdInit ++ displayCalls greetingText))) := by
  by_cases hc : Recoverable c
  · exact (registration_shows hc).1
  · exact absurd h (not_synced_registration hc)

/-! ## Lines submitted -/

/-- **A line submitted**: a text of at most 32 bytes without a newline, and the
calls it and the newline after it are cut into. -/
structure Submission where
  line : List Byte
  calls : List WriteCall
  length_le : line.length ≤ 32
  newline_not_mem : newline ∉ line
  nonempty : ∀ c ∈ calls, c.buf ≠ []
  copied : ∀ c ∈ calls, c.copied = .all
  cut : calls.flatMap (·.buf) = line ++ [newline]

/-- What is shown of the line: its bytes before the first NUL. -/
def Submission.shown (j : Submission) : List Byte := j.line.takeWhile (· ≠ 0)

theorem Submission.length_shown_le (j : Submission) : j.shown.length ≤ 32 :=
  (List.takeWhile_sublist _).length_le.trans j.length_le

/-- **The newline is the last byte of the last call**: what comes before the
last byte of a call is of the line. -/
theorem Submission.newline_not_mem_dropLast (j : Submission) :
    ∀ c ∈ j.calls, newline ∉ c.buf.dropLast := by
  intro c hc hmem
  obtain ⟨pre, post, hcalls⟩ := List.append_of_mem hc
  have hcut : (pre.flatMap (·.buf) ++ c.buf.dropLast)
      ++ (c.buf.getLast (j.nonempty c hc) :: post.flatMap (·.buf)) = j.line ++ [newline] := by
    rw [← j.cut, hcalls, List.flatMap_append, List.flatMap_cons, List.append_assoc]
    congr 1
    rw [← List.singleton_append, ← List.append_assoc, List.dropLast_append_getLast]
  have hlen := congrArg List.length hcut
  simp only [List.length_append, List.length_cons, List.length_nil] at hlen
  have hpre : pre.flatMap (·.buf) ++ c.buf.dropLast <+: j.line :=
    List.prefix_of_prefix_length_le ⟨_, hcut⟩ (List.prefix_append _ _)
      (by rw [List.length_append]; omega)
  exact j.newline_not_mem (hpre.subset (List.mem_append_right _ hmem))

/-- A call is no longer than what it is cut from. -/
theorem Submission.len_le (j : Submission) : ∀ c ∈ j.calls, c.len ≤ 33 := by
  intro c hc
  have hsub : c.buf.Sublist (j.line ++ [newline]) := by
    rw [← j.cut]
    exact List.sublist_flatten_of_mem (List.mem_map_of_mem hc)
  have hlen := hsub.length_le
  have hline := j.length_le
  rw [List.length_append, List.length_singleton] at hlen
  unfold WriteCall.len
  omega

/-- The lines of a run of submissions. -/
theorem splitOn_submissions (js : List Submission) :
    ((js.flatMap (·.calls)).flatMap (·.buf)).splitOn newline
      = js.map (·.line) ++ [[]] := by
  induction js with
  | nil => rfl
  | cons j js ih =>
    have hstream : ((j :: js).flatMap (·.calls)).flatMap (·.buf)
        = j.line ++ newline :: (js.flatMap (·.calls)).flatMap (·.buf) := by
      rw [List.flatMap_cons, List.flatMap_append, j.cut, List.append_assoc]
      rfl
    rw [hstream, List.splitOn_append_cons_self_of_not_mem j.newline_not_mem, ih]
    rfl

/-- **What a run of submissions shows**: their texts in order, with nothing left
pending. -/
theorem submissions_shown {P : Type} (p : P) (kbuf : ℤ → Byte) (js : List Submission) :
    RunMeets (lcdWrites p (Statics.initial kbuf) (js.flatMap (·.calls))).1
        (lcdWrites p (Statics.initial kbuf) (js.flatMap (·.calls))).2
        (Pending.answers LineBuffer.empty (js.flatMap (·.calls))).1
        (Pending.answers LineBuffer.empty (js.flatMap (·.calls))).2
        ((js.flatMap (·.calls)).map returned)
      ∧ (lcdWrites p (Statics.initial kbuf) (js.flatMap (·.calls))).2.pending = []
      ∧ (lcdWrites p (Statics.initial kbuf) (js.flatMap (·.calls))).1.flatMap (·.shown)
        = js.map (·.shown) := by
  have hall : ∀ {Q : WriteCall → Prop}, (∀ j : Submission, ∀ c ∈ j.calls, Q c) →
      ∀ c ∈ js.flatMap (·.calls), Q c := by
    intro Q hQ c hc
    obtain ⟨j, -, hj⟩ := List.mem_flatMap.mp hc
    exact hQ j c hj
  have hne : ∀ c ∈ js.flatMap (·.calls), c.buf ≠ [] := hall (fun j => j.nonempty)
  have hsplit := splitOn_submissions js
  have hlen : ∀ l ∈ ((js.flatMap (·.calls)).flatMap (·.buf)).splitOn newline, l.length ≤ 32 := by
    intro l hl
    rw [hsplit] at hl
    rcases List.mem_append.mp hl with hl | hl
    · obtain ⟨j, -, rfl⟩ := List.mem_map.mp hl
      exact j.length_le
    · rw [List.mem_singleton.mp hl]
      exact Nat.zero_le 32
  obtain ⟨ls, hls, hshown⟩ := shown_splitOn p kbuf hne (hall (fun j => j.copied))
    (hall (fun j => j.newline_not_mem_dropLast)) hlen
  rw [hsplit] at hls
  obtain ⟨hlines, hpending⟩ := List.append_inj' hls rfl
  refine ⟨lcdWrites_meets p (holds_initial kbuf) (allOk_hasByte_of_nonempty p hne),
    (List.singleton_inj.mp hpending).symm, ?_⟩
  rw [hshown, ← hlines, List.map_map]
  rfl

/-- **The lines are rendered** that are submitted one after the other, with the
static variables as they are found, after a registration on a controller with
these levels on its lines: every call returns its length, and after the last
line nothing is pending and the display shows that line. -/
structure Renders {P : Type} (p : P) (registered : Bool) (s : Statics) (c : Hd44780) (lv : Levels)
    (js : List Submission) (j : Submission) : Prop where
  rets : (lcdWrites p s ((js ++ [j]).flatMap (·.calls))).1.map (·.ret)
    = ((js ++ [j]).flatMap (·.calls)).map fun call => (call.len : ℤ)
  pos : (lcdWrites p s ((js ++ [j]).flatMap (·.calls))).2.pos = 0
  shows : Shows (display c lv (pins ((lcdChrdevRegister (some p) registered 0).calls
    ++ (lcdWrites p s ((js ++ [j]).flatMap (·.calls))).1.flatMap (·.calls)))) j.shown

/-- **From the write to the display**, with nothing pending at the beginning. -/
theorem renders_of_pos_eq_zero {P : Type} (p : P) (registered : Bool) {s : Statics}
    (hpos : s.pos = 0) {c : Hd44780} {lv : Levels} (hlow : lv .en = false)
    (hsync : (display c lv (pins (lcdChrdevRegister (some p) registered 0).calls)).Synced)
    (js : List Submission) (j : Submission) : Renders p registered s c lv js j := by
  have hinitial : Statics.initial s.kbuf = s := by rw [Statics.initial, ← hpos]
  obtain ⟨hrun, hpending, hshown⟩ := submissions_shown p s.kbuf (js ++ [j])
  rw [hinitial] at hrun hpending hshown
  refine ⟨?_, ?_, ?_⟩
  · rw [hrun.rets]
    refine List.map_congr_left (fun call hcall => ?_)
    obtain ⟨i, -, hi⟩ := List.mem_flatMap.mp hcall
    have hlen := i.len_le call hi
    rw [returned, i.copied call hi]
    exact toInt_of_small (by omega) (by omega)
  · have hcount := hrun.holds.pos
    rw [← hrun.holds.pending, hpending] at hcount
    exact hcount
  · rw [calls_register, display_pins hlow] at hsync
    rw [calls_register, display_pins hlow, callStrobes_append, Hd44780.strobes_append, hrun.calls,
      ← hrun.shown, hshown]
    refine (texts_shows (listening_of_synced hsync) ?_).2 j.shown (by simp)
    intro t ht
    obtain ⟨i, -, rfl⟩ := List.mem_map.mp ht
    exact i.length_shown_le

/-! ## What may be pending -/

/-- Whatever the bytes are, none of them is pending at a fill count of zero. -/
theorem holds_of_pos_eq_zero {s : Statics} (h : s.pos = 0) :
    Holds s (LineBuffer.empty : Pending) := by
  refine ⟨h, ?_⟩
  rw [Statics.pending, h]
  rfl

/-- **Every call leaves a line buffer**, one without a byte to look at too. -/
theorem exists_holds_lcdWrite {P : Type} (gpLcd : Option P) {s : Statics} {b : Pending}
    (h : Holds s b) (call : WriteCall) :
    ∃ b' : Pending, Holds (lcdWrite gpLcd s call).statics b' := by
  cases gpLcd with
  | none => exact ⟨b, h⟩
  | some p =>
    by_cases hbyte : HasByte s call
    · exact ⟨_, (lcdWrite_meets_of_hasByte p h hbyte).holds⟩
    · obtain ⟨hbuf, hall, hpos⟩ := not_not.mp hbyte
      refine ⟨LineBuffer.empty, holds_of_pos_eq_zero ?_⟩
      have hcount : toInt (s.pos + ((lcdWriteEnter s call).clen : ℤ)) = 0 := by
        rw [hpos, clen_enter h, hbuf, List.length_nil, Nat.zero_min]
        decide
      show (lcdWriteFinish s (lcdWriteEnter s call)).statics.pos = 0
      unfold lcdWriteFinish
      rw [show (lcdWriteEnter s call).call = call from rfl, hall]
      dsimp only
      split
      · rfl
      · exact hcount

/-- **So does every step of the driver.** Neither a probe nor a remove touches the
static variables. -/
theorem exists_holds_step (d : Driver) (e : Event) (d' : Driver)
    (h : ∃ b : Pending, Holds d.statics b) (hstep : step d e = some d') :
    ∃ b : Pending, Holds d'.statics b := by
  cases e with
  | write call =>
    obtain ⟨b, hb⟩ := h
    rw [step] at hstep
    split at hstep
    · exact absurd hstep (Option.some_ne_none d').symm
    · obtain rfl := Option.some.inj hstep
      exact exists_holds_lcdWrite d.gpLcd hb call
  | unload kbuf =>
    rw [step] at hstep
    split at hstep
    · obtain rfl := Option.some.inj hstep
      exact ⟨_, holds_initial kbuf⟩
    · exact absurd hstep (Option.some_ne_none d').symm
  | probe | unbind | openFile | closeFile =>
    rw [step] at hstep
    split at hstep
    all_goals first
      | exact absurd hstep (Option.some_ne_none d').symm
      | exact Option.some.inj hstep ▸ h

/-- The write of a letter and a newline. -/
def letterCall (x : Byte) : WriteCall := ⟨[x, newline], .all, show 2 < 2 ^ 32 by decide⟩

/-- A line of one letter. -/
def oneLetter (x : Byte) (hx : x ≠ newline) : Submission where
  line := [x]
  calls := [letterCall x]
  length_le := show 1 ≤ 32 by decide
  newline_not_mem := by simpa using hx.symm
  nonempty := by simp [letterCall]
  copied := by simp [letterCall]
  cut := rfl

/-- What the call does to what is pending. -/
theorem meets_letterCall {P : Type} (p : P) {s : Statics} {b : Pending} (h : Holds s b) (x : Byte) :
    Meets (lcdWrite (some p) s (letterCall x)) (b.put [x, newline]).1 (b.put [x, newline]).2
      (returned (letterCall x)) := by
  have hm : Meets (lcdWrite (some p) s (letterCall x)) (b.answer (letterCall x)).1
      (b.answer (letterCall x)).2 (returned (letterCall x)) :=
    lcdWrite_meets_of_ne_nil p h (List.cons_ne_nil _ _)
  rwa [b.answer_of_all rfl] at hm

/-- Where there is room for it, the letter is shown after what was pending, and a NUL
in that hides it. -/
theorem shows_letter {P : Type} (p : P) (registered : Bool) {s : Statics} {b : Pending}
    (h : Holds s b) (x : Byte) (hfit : 2 ≤ b.room) {c : Hd44780} {lv : Levels}
    (hlow : lv .en = false)
    (hsync : (display c lv (pins (lcdChrdevRegister (some p) registered 0).calls)).Synced) :
    Shows (display c lv (pins ((lcdChrdevRegister (some p) registered 0).calls
      ++ (lcdWrites p s [letterCall x]).1.flatMap (·.calls))))
        ((b.bytes ++ [x]).takeWhile (· ≠ 0)) := by
  have hm := meets_letterCall p h x
  have hput : b.put [x, newline] = (b.bytes ++ [x] ++ [newline], LineBuffer.empty) :=
    LineBuffer.put_concat (t := [x]) hfit
  have htext : shownOf (b.bytes ++ [x] ++ [newline]) = [(b.bytes ++ [x]).takeWhile (· ≠ 0)] := by
    rw [shownOf, if_neg (by simp), lineText, List.dropLast_concat]
  have hlen : ((b.bytes ++ [x]).takeWhile (· ≠ 0)).length ≤ 32 := by
    have hsub := (List.takeWhile_sublist (p := (· ≠ 0)) (l := b.bytes ++ [x])).length_le
    have hroom : b.room = 33 - b.bytes.length := rfl
    rw [List.length_append, List.length_singleton] at hsub
    omega
  show Shows (display c lv (pins ((lcdChrdevRegister (some p) registered 0).calls
    ++ ((lcdWrite (some p) s (letterCall x)).calls ++ [])))) _
  rw [hput] at hm
  rw [calls_register, display_pins hlow] at hsync
  rw [List.append_nil, hm.calls, htext, calls_register, display_pins hlow, callStrobes_append,
    Hd44780.strobes_append]
  exact (texts_shows (listening_of_synced hsync) (List.forall_mem_singleton.mpr hlen)).2 _ rfl

/-- Where there is none, the newline is cut off, and the bytes stay pending. -/
theorem pos_letterCall_ne_zero {P : Type} (p : P) {s : Statics} {b : Pending} (h : Holds s b)
    {x : Byte} (hnl : x ≠ newline) (hpending : b.bytes ≠ []) (hfull : b.room < 2) :
    (lcdWrite (some p) s (letterCall x)).statics.pos ≠ 0 := by
  have hm := meets_letterCall p h x
  have hopen : (b.joined [x, newline]).getLast? ≠ some newline := by
    have hroom : b.room = 0 ∨ b.room = 1 := by omega
    rcases hroom with hroom | hroom
    · rw [LineBuffer.joined, hroom, List.take_zero, List.append_nil]
      exact b.getLast?_ne
    · rw [LineBuffer.joined, hroom, List.take_succ_cons, List.take_zero, List.getLast?_concat]
      exact fun hlast => hnl (Option.some.inj hlast)
  rw [LineBuffer.put_of_open hopen] at hm
  have hcount := hm.holds.pos
  have hlen := b.length_joined [x, newline]
  have hpos : 0 < b.bytes.length := List.length_pos_iff.mpr hpending
  intro hempty
  rw [hempty] at hcount
  dsimp only at hcount
  omega

/-- **With something pending a letter is not rendered** that is not its first one:
the first cell shows what was pending, or there is no room for the newline. -/
theorem not_renders_oneLetter {P : Type} (p : P) (registered : Bool) {s : Statics} {b : Pending}
    (h : Holds s b) {first x : Byte} {rest : List Byte} (hbytes : b.bytes = first :: rest)
    (hnl : x ≠ newline) (hzero : x ≠ 0) (hspace : x ≠ 0x20) (hfirst : first ≠ x) {c : Hd44780}
    {lv : Levels} (hlow : lv .en = false)
    (hsync : (display c lv (pins (lcdChrdevRegister (some p) registered 0).calls)).Synced) :
    ¬ Renders p registered s c lv [] (oneLetter x hnl) := by
  intro hr
  by_cases hfit : 2 ≤ b.room
  · have hshown := shows_letter p registered h x hfit hlow hsync
    have hcell := (hshown.row0 0 (by decide)).symm.trans (hr.shows.row0 0 (by decide))
    have hline : (oneLetter x hnl).shown = [x] :=
      List.takeWhile_cons_of_pos (by simpa using hzero)
    rw [hline, hbytes, List.cons_append] at hcell
    by_cases hnul : first = 0
    · rw [List.takeWhile_cons_of_neg (by simpa using hnul)] at hcell
      exact hspace hcell.symm
    · rw [List.takeWhile_cons_of_pos (by simpa using hnul)] at hcell
      exact hfirst hcell
  · have hpending : b.bytes ≠ [] := by rw [hbytes]; exact List.cons_ne_nil _ _
    exact pos_letterCall_ne_zero p h hnl hpending (by omega) hr.pos

/-- There is a letter that is not the first one pending. -/
theorem exists_letter (first : Byte) :
    ∃ x : Byte, x ≠ newline ∧ x ≠ 0 ∧ x ≠ 0x20 ∧ first ≠ x := by
  by_cases h : first = 0x41
  · exact ⟨0x42, by decide, by decide, by decide, by rw [h]; decide⟩
  · exact ⟨0x41, by decide, by decide, by decide, h⟩

/-- **When lines are rendered.** After any run of the driver with its device – any
probes, unbindings and unloadings, any calls of any lengths, bytes and copy
results – and a successful registration that leaves the controller in step, all
lines that may be submitted, of at most 32 bytes each, in any number and cut into
non-empty writes in any way, are rendered exactly if nothing was pending:
every call returns its length, and after the last line nothing is pending and
the display memory holds the bytes of that line before its first NUL, the first
sixteen on the first row and the others on the second, and spaces everywhere
else. -/
theorem rendering_iff (kbuf : ℤ → Byte) (es : List Event) (d : Driver)
    (hrun : Transition.run step (Driver.initial kbuf) es = some d) {P : Type} (p : P)
    (c : Hd44780) (lv : Levels) (hlow : lv .en = false)
    (hsync : (display c lv (pins (lcdChrdevRegister (some p) d.registered 0).calls)).Synced) :
    (∀ js j, Renders p d.registered d.statics c lv js j) ↔ d.statics.pos = 0 := by
  refine ⟨fun h => ?_, fun hpos js j => renders_of_pos_eq_zero p d.registered hpos hlow hsync js j⟩
  obtain ⟨b, hb⟩ : ∃ b : Pending, Holds d.statics b :=
    Transition.invariant exists_holds_step ⟨_, holds_initial kbuf⟩ ⟨es, List.prefix_rfl, hrun⟩
  by_contra hpos
  obtain ⟨first, rest, hbytes⟩ : ∃ first rest, b.bytes = first :: rest := by
    refine List.exists_cons_of_ne_nil (fun hnil => hpos ?_)
    rw [hb.pos, hnil]
    rfl
  obtain ⟨x, hnl, hzero, hspace, hfirst⟩ := exists_letter first
  exact not_renders_oneLetter p d.registered hb hbytes hnl hzero hspace hfirst hlow hsync (h [] _)

/-- A line in two writes, with a NUL in it. -/
def cutLine : Submission where
  line := [0x48, 0x69, 0x00, 0x21]
  calls := [⟨[0x48, 0x69, 0x00], .all, by decide⟩, ⟨[0x21, newline], .all, by decide⟩]
  length_le := by decide
  newline_not_mem := by decide
  nonempty := by simp
  copied := by simp
  cut := rfl

/-- The device bound, some bytes written, and the device unbound. -/
def boundBefore (call : WriteCall) : List Event :=
  [.probe goodProbe, .openFile, .write call, .unbind]

/-- The controller as a first registration leaves it. -/
def greeted : Hd44780 :=
  (powerOn fun _ => 0).strobes (callStrobes (lcdInit ++ displayCalls greetingText))

/-- It is in step after the second one too. -/
theorem synced_greeted (registered : Bool) :
    (display greeted (fun _ => false)
      (pins (lcdChrdevRegister (some ()) registered 0).calls)).Synced := by
  have hfirst : Listening greeted :=
    (registration_shows fun n hn => absurd hn (by simp [powerOn])).1
  rw [calls_register, display_pins rfl]
  exact (registration_shows hfirst.recoverable).1.synced

/-- A line finished before the unbinding. -/
theorem rendering_iff_rebound :
    ∃ d, Transition.run step (Driver.initial fun _ => 0) (boundBefore secondLine) = some d
      ∧ Renders () d.registered d.statics greeted (fun _ => false) [] cutLine :=
  ⟨_, rfl, (rendering_iff (fun _ => 0) (boundBefore secondLine) _ rfl () greeted
    (fun _ => false) rfl (synced_greeted _)).mpr rfl [] cutLine⟩

/-- **Not after every run**: an `A` written before the unbinding, without a newline,
is still pending after the next registration, and comes before the `B` of the
line. -/
theorem not_forall_rendering :
    ¬ ∀ (kbuf : ℤ → Byte) (es : List Event) (d : Driver),
        Transition.run step (Driver.initial kbuf) es = some d →
        ∀ (c : Hd44780) (lv : Levels), lv .en = false →
          (display c lv (pins (lcdChrdevRegister (some ()) d.registered 0).calls)).Synced →
          ∀ js j, Renders () d.registered d.statics c lv js j := by
  intro h
  have hrun : Transition.run step (Driver.initial fun _ => 0)
      (boundBefore ⟨[0x41], .all, by decide⟩) = some _ := rfl
  obtain ⟨b, hb⟩ : ∃ b : Pending, Holds _ b :=
    Transition.invariant exists_holds_step ⟨_, holds_initial _⟩ ⟨_, List.prefix_rfl, hrun⟩
  have hbytes : b.bytes = [0x41] := hb.pending.symm.trans rfl
  exact not_renders_oneLetter () false hb hbytes (x := 0x42) (by decide) (by decide) (by decide)
    (by decide) rfl (synced_greeted false)
    (h _ _ _ hrun greeted (fun _ => false) rfl (synced_greeted false) [] _)

end Lcd
