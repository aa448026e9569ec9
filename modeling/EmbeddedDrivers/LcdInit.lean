import EmbeddedDrivers.Hd44780
import EmbeddedDrivers.LcdReceiver

/-!
# Initialising the display

`lcd_init` sends six commands, and this module says from which states of the
controller they bring it to the state the driver counts on (`Ready`).

The controller may be found in any mode. Out of power-on it is eight bits
wide and reads each nibble as an instruction; after an earlier run of the
driver it is four bits wide. In both cases the first command, `0x02`, does the
work: its nibbles are nothing and "four bits" to the one, and "return home" to
the other, and afterwards the controller is on a byte boundary
(`synced_first_command`). The other five commands then say everything else.

The driver has no means of telling where a byte begins. A controller left in
the middle of a byte takes the first nibble for the missing half and stays
half a byte behind for good – unless the half it holds is the `3` of a
function set, which makes it eight bits wide again and thereby resets it.
`init_ready_iff` is this, exactly.
-/

namespace Lcd

/-- The strobe a sample is to the controller. -/
def Sample.strobe (s : Sample) : Bool × BitVec 4 := (s.rs, s.nibble)

/-- **The controller after line events**, from the levels they start from. -/
def display (c : Hd44780) (lv : Levels) (es : List PinEvent) : Hd44780 :=
  c.strobes ((received lv es).map Sample.strobe)

/-- The strobes of a list of calls. -/
def callStrobes (calls : List LcdCall) : List (Bool × BitVec 4) :=
  (calls.flatMap LcdCall.samples).map Sample.strobe

theorem callStrobes_append (cs ds : List LcdCall) :
    callStrobes (cs ++ ds) = callStrobes cs ++ callStrobes ds := by
  rw [callStrobes, List.flatMap_append, List.map_append]
  rfl

/-- **With EN low the lines do not matter**: the controller is fed the
strobes of the calls. -/
theorem display_pins {lv : Levels} (hlow : lv .en = false) (c : Hd44780)
    (calls : List LcdCall) : display c lv (pins calls) = c.strobes (callStrobes calls) := by
  rw [display, (received_pins lv hlow calls).1]
  rfl

/-! ## On a byte boundary -/

/-- A call that does not widen the interface. -/
def LcdCall.Narrow (c : LcdCall) : Prop :=
  (Hd44780.Phase.four none).accept c.rs c.value = .four none

instance (c : LcdCall) : Decidable c.Narrow := inferInstanceAs (Decidable (_ = _))

theorem narrow_data (v : Byte) : (LcdCall.data v).Narrow := rfl

/-- A call is a byte to a controller on a byte boundary. -/
def receive (c : Hd44780) (call : LcdCall) : Hd44780 := c.accept call.rs call.value

theorem synced_receive {c : Hd44780} (h : c.Synced) {call : LcdCall} (hn : call.Narrow) :
    (receive c call).Synced := by
  show (c.accept call.rs call.value).phase = _
  rw [Hd44780.phase_accept, h]
  exact hn

/-- **A controller on a byte boundary receives the calls** one by one, and
stays on a boundary. -/
theorem strobes_callStrobes {c : Hd44780} (h : c.Synced) {calls : List LcdCall}
    (hn : ∀ call ∈ calls, call.Narrow) :
    c.strobes (callStrobes calls) = calls.foldl receive c
      ∧ (calls.foldl receive c).Synced := by
  induction calls generalizing c with
  | nil => exact ⟨rfl, h⟩
  | cons call cs ih =>
    have hcall : c.strobes (callStrobes [call]) = receive c call := by
      show (c.latch call.rs (highNibble call.value)).latch call.rs (lowNibble call.value) = _
      rw [Hd44780.latch_latch h, highNibble_append_lowNibble]
      rfl
    rw [← List.singleton_append (l := cs), callStrobes_append, Hd44780.strobes_append, hcall,
      List.singleton_append, List.foldl_cons]
    exact ih (synced_receive h (hn call List.mem_cons_self))
      (fun d hd => hn d (List.mem_cons_of_mem call hd))

/-! ## What the driver counts on -/

/-- **The state the driver counts on.** -/
structure Ready (c : Hd44780) : Prop where
  synced : c.Synced
  twoLine : c.twoLine = true
  displayOn : c.displayOn = true
  cursorOff : c.cursorOn = false
  blinkOff : c.blinkOn = false
  increment : c.increment = true
  noShift : c.shift = false
  inDdram : c.inCgram = false
  addr : c.addr = 0
  blank : ∀ a, c.ddram a = 0x20

/-- The five commands after the first set everything but the boundary. -/
theorem ready_of_synced {c : Hd44780} (h : c.Synced) :
    Ready (c.strobes (callStrobes lcdInit.tail)) := by
  have hnarrow : ∀ call ∈ lcdInit.tail, call.Narrow := by decide
  obtain ⟨heq, hsync⟩ := strobes_callStrobes h hnarrow
  rw [heq]
  exact ⟨hsync, rfl, rfl, rfl, rfl, rfl, rfl, rfl, rfl, fun _ => rfl⟩

/-- **The first command finds the boundary** from eight-bit mode, from a byte
boundary, and from a held `3`. -/
theorem synced_first_command {c : Hd44780} (h : ∀ n, c.phase = .four (some n) → n = 3) :
    (c.strobes (callStrobes [.command 0x02])).Synced := by
  show (c.strobes _).phase = _
  rw [Hd44780.phase_strobes]
  cases hp : c.phase with
  | eight => rfl
  | four held =>
    cases held with
    | none => rfl
    | some n =>
      -- a held 3 and the high nibble 0 make a function set for eight bits
      rw [h n hp]
      rfl

/-- From any other held nibble the initialisation ends with a nibble held: its
own last one. -/
theorem held_lcdInit {c : Hd44780} {n : BitVec 4} (hp : c.phase = .four (some n))
    (hn : n ≠ 3) : (c.strobes (callStrobes lcdInit)).phase = .four (some 0) := by
  have hall : ∀ n : BitVec 4, n ≠ 3 →
      (Hd44780.Phase.four (some n)).strobes (callStrobes lcdInit) = .four (some 0) := by
    decide
  rw [Hd44780.phase_strobes, hp]
  exact hall n hn

/-- **Which controllers `lcd_init` makes ready**: all but those that hold a
high nibble other than `3`; and those it leaves in four-bit mode with a nibble
still held, half a byte out of step. -/
theorem init_ready_iff (lv : Levels) (hlow : lv .en = false) (c : Hd44780) :
    (Ready (display c lv (pins lcdInit)) ↔ ∀ n, c.phase = .four (some n) → n = 3)
      ∧ ∀ n, c.phase = .four (some n) → n ≠ 3 →
          (display c lv (pins lcdInit)).phase = .four (some 0) := by
  rw [display_pins hlow]
  refine ⟨⟨fun hready n hp => ?_, fun h => ?_⟩, fun n hp hn => held_lcdInit hp hn⟩
  · by_contra hn
    have hheld := held_lcdInit hp hn
    rw [hready.synced] at hheld
    exact absurd hheld (by decide)
  · have hsplit : callStrobes lcdInit
        = callStrobes [.command 0x02] ++ callStrobes lcdInit.tail := rfl
    rw [hsplit, Hd44780.strobes_append]
    exact ready_of_synced (synced_first_command h)

/-- The controller as it comes out of power-on, its memory unknown. -/
def powerOn (mem : ℕ → Byte) : Hd44780 where
  phase := .eight
  twoLine := false
  displayOn := false
  cursorOn := false
  blinkOn := false
  increment := true
  shift := false
  addr := 0
  inCgram := false
  ddram := mem

/-- A controller out of power-on, on lines requested low. -/
theorem init_ready_iff_powerOn :
    (Ready (display (powerOn (fun _ => 0)) (fun _ => false) (pins lcdInit))
        ↔ ∀ n, (powerOn (fun _ => 0)).phase = .four (some n) → n = 3)
      ∧ ∀ n, (powerOn (fun _ => 0)).phase = .four (some n) → n ≠ 3 →
          (display (powerOn (fun _ => 0)) (fun _ => false) (pins lcdInit)).phase
            = .four (some 0) :=
  init_ready_iff (fun _ => false) rfl (powerOn (fun _ => 0))

/-- **Not from every state**: a controller that holds the high nibble of a
character, as a reset of the board in the middle of a byte leaves it, is not
made ready. -/
theorem not_forall_init_ready :
    ¬ ∀ (lv : Levels) (c : Hd44780), lv .en = false → Ready (display c lv (pins lcdInit)) := by
  intro h
  have hready := h (fun _ => false)
    { powerOn (fun _ => 0x20) with phase := .four (some 4) } rfl
  rw [display_pins rfl] at hready
  exact absurd (hready.synced.symm.trans (held_lcdInit rfl (by decide))) (by decide)

end Lcd
