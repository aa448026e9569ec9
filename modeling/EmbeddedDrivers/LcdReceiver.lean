import EmbeddedDrivers.LcdDriver

/-!
# What a receiver on the lines sees

The display looks at its lines at each falling edge of EN, and takes two
looks for a byte. This module reads the driver's line events the way a
receiver does: as the list of samples – the level of RS and the four data
lines as a nibble – and, two samples at a time, as bytes.

The central fact is `received_pins`: whatever the lines were, as long as EN
was low, a list of calls is seen as exactly two samples for each call, the
high nibble of its value and then the low one, both with the RS level of
the call. Everything above the lines may then forget them; the controller
of `EmbeddedDrivers.Hd44780` is fed samples only.
-/

namespace Lcd

/-- The nibble on the data lines, D7 being its highest bit. -/
def nibble (lv : Levels) : BitVec 4 :=
  BitVec.ofBool (lv .d7) ++ BitVec.ofBool (lv .d6) ++ BitVec.ofBool (lv .d5)
    ++ BitVec.ofBool (lv .d4)

/-- **A sample**: what a receiver keeps of the lines at a falling edge of
EN. -/
structure Sample where
  /-- The register-select line. -/
  rs : Bool
  /-- The four data lines. -/
  nibble : BitVec 4
  deriving DecidableEq

/-- The sample of the lines. -/
def sample (lv : Levels) : Sample := ⟨lv .rs, nibble lv⟩

/-- The samples a receiver takes of a list of line events. -/
def received (lv : Levels) (es : List PinEvent) : List Sample :=
  (Strobe.samples .en lv es).map sample

theorem received_append (lv : Levels) (es fs : List PinEvent) :
    received lv (es ++ fs) = received lv es ++ received (Strobe.settle lv es) fs := by
  rw [received, Strobe.samples_append, List.map_append]
  rfl

/-- The RS level of a call. -/
def LcdCall.rs : LcdCall → Bool
  | .command _ => false
  | .data _ => true

/-- The byte of a call. -/
def LcdCall.value : LcdCall → Byte
  | .command v => v
  | .data v => v

/-- The high nibble of a byte. -/
def highNibble (v : Byte) : BitVec 4 := v.extractLsb' 4 4

/-- The low nibble of a byte. -/
def lowNibble (v : Byte) : BitVec 4 := v.extractLsb' 0 4

/-- The two nibbles make the byte again. -/
@[simp] theorem highNibble_append_lowNibble (v : Byte) :
    (highNibble v ++ lowNibble v : Byte) = v := by
  revert v
  decide

/-- **The samples a call amounts to.** -/
def LcdCall.samples (c : LcdCall) : List Sample :=
  [⟨c.rs, highNibble c.value⟩, ⟨c.rs, lowNibble c.value⟩]

/-! ## One call -/

/-- The data lines as `lcd_write_char` sets them for the high nibble. -/
def highData (v : Byte) : List PinEvent :=
  D4 ((v >>> 4) &&& 0x01) ++ D5 ((v >>> 5) &&& 0x01)
    ++ D6 ((v >>> 6) &&& 0x01) ++ D7 ((v >>> 7) &&& 0x01)

/-- The data lines as it sets them for the low nibble. -/
def lowData (v : Byte) : List PinEvent :=
  D4 ((v >>> 0) &&& 0x01) ++ D5 ((v >>> 1) &&& 0x01)
    ++ D6 ((v >>> 2) &&& 0x01) ++ D7 ((v >>> 3) &&& 0x01)

/-- The line event of RS with which a call begins. -/
def LcdCall.select (c : LcdCall) : List PinEvent := RS (if c.rs then 1 else 0)

/-- A call is two bursts: RS and the high nibble, then the low nibble. -/
theorem LcdCall.pins_eq (c : LcdCall) :
    c.pins = (c.select ++ highData c.value ++ Strobe.pulse .en)
      ++ (lowData c.value ++ Strobe.pulse .en) := by
  cases c <;> rfl

theorem select_ne_en (c : LcdCall) : ∀ e ∈ c.select, e.line ≠ Pin.en := by
  intro e he
  rw [List.mem_singleton.mp he]
  show Pin.rs ≠ Pin.en
  decide

theorem highData_ne (v : Byte) :
    ∀ e ∈ highData v, e.line ≠ Pin.en ∧ e.line ≠ Pin.rs := by
  simp [highData, D4, D5, D6, D7, gpiodSetValue]

theorem lowData_ne (v : Byte) :
    ∀ e ∈ lowData v, e.line ≠ Pin.en ∧ e.line ≠ Pin.rs := by
  simp [lowData, D4, D5, D6, D7, gpiodSetValue]

/-- After the high data events the lines carry the high nibble, whatever they
carried before. -/
theorem nibble_settle_highData (lv : Levels) (v : Byte) :
    nibble (Strobe.settle lv (highData v)) = highNibble v := by
  have hbits : ∀ v : Byte, BitVec.ofBool (((v >>> 7) &&& 0x01) != 0)
      ++ BitVec.ofBool (((v >>> 6) &&& 0x01) != 0)
      ++ BitVec.ofBool (((v >>> 5) &&& 0x01) != 0)
      ++ BitVec.ofBool (((v >>> 4) &&& 0x01) != 0) = highNibble v := by decide
  exact hbits v

/-- After the low data events they carry the low nibble. -/
theorem nibble_settle_lowData (lv : Levels) (v : Byte) :
    nibble (Strobe.settle lv (lowData v)) = lowNibble v := by
  have hbits : ∀ v : Byte, BitVec.ofBool (((v >>> 3) &&& 0x01) != 0)
      ++ BitVec.ofBool (((v >>> 2) &&& 0x01) != 0)
      ++ BitVec.ofBool (((v >>> 1) &&& 0x01) != 0)
      ++ BitVec.ofBool (((v >>> 0) &&& 0x01) != 0) = lowNibble v := by decide
  exact hbits v

/-- The strobe is no part of a sample. -/
theorem sample_update_en (lv : Levels) (b : Bool) :
    sample (Function.update lv .en b) = sample lv := rfl

/-- RS is not touched between the two bursts. -/
theorem settle_select_rs (lv : Levels) (c : LcdCall) :
    Strobe.settle lv c.select .rs = c.rs := by
  cases c <;> rfl

/-- **One call, from lines with EN low**: it is seen as its two samples, EN is
low again, and nothing but EN moved while EN was high. -/
theorem call_received (lv : Levels) (hlow : lv .en = false) (c : LcdCall) :
    received lv c.pins = c.samples
      ∧ Strobe.settle lv c.pins .en = false
      ∧ Strobe.Steady .en lv c.pins := by
  have hfst : ∀ e ∈ c.select ++ highData c.value, e.line ≠ Pin.en := by
    intro e he
    rcases List.mem_append.mp he with he | he
    · exact select_ne_en c e he
    · exact (highData_ne c.value e he).1
  have hsnd : ∀ e ∈ lowData c.value, e.line ≠ Pin.en :=
    fun e he => (lowData_ne c.value e he).1
  have hmid : Strobe.settle lv (c.select ++ highData c.value ++ Strobe.pulse .en) .en = false :=
    Strobe.settle_burst_self lv _
  -- RS is set before the high nibble and still stands at the low one
  have hrs₁ : Strobe.settle lv (c.select ++ highData c.value) .rs = c.rs := by
    rw [Strobe.settle_append,
      Strobe.settle_of_forall_ne (fun e he => (highData_ne c.value e he).2),
      settle_select_rs]
  have hrs₂ : Strobe.settle
      (Strobe.settle lv (c.select ++ highData c.value ++ Strobe.pulse .en))
      (lowData c.value) .rs = c.rs := by
    rw [Strobe.settle_of_forall_ne (fun e he => (lowData_ne c.value e he).2),
      Strobe.settle_burst_of_ne _ _ (by decide), hrs₁]
  rw [LcdCall.pins_eq]
  refine ⟨?_, ?_, ?_⟩
  · rw [received_append, received, received, Strobe.samples_burst hlow hfst,
      Strobe.samples_burst hmid hsnd, List.map_singleton, List.map_singleton,
      sample_update_en, sample_update_en, sample, sample, hrs₁, hrs₂,
      nibble_settle_lowData, Strobe.settle_append, nibble_settle_highData]
    rfl
  · rw [Strobe.settle_append]
    exact Strobe.settle_burst_self _ _
  · exact (Strobe.steady_append _ _ _).mpr
      ⟨Strobe.steady_burst hlow hfst, Strobe.steady_burst hmid hsnd⟩

/-! ## Lists of calls -/

/-- **A list of calls, from lines with EN low**, is seen as the samples of its
calls in order; EN is low at the end and nothing but EN ever moved while EN
was high. -/
theorem received_pins (lv : Levels) (hlow : lv .en = false) (calls : List LcdCall) :
    received lv (pins calls) = calls.flatMap LcdCall.samples
      ∧ Strobe.settle lv (pins calls) .en = false
      ∧ Strobe.Steady .en lv (pins calls) := by
  induction calls generalizing lv with
  | nil => exact ⟨rfl, hlow, trivial⟩
  | cons c cs ih =>
    obtain ⟨hrec, hen, hsteady⟩ := call_received lv hlow c
    obtain ⟨hrec', hen', hsteady'⟩ := ih (Strobe.settle lv c.pins) hen
    rw [pins_cons]
    refine ⟨?_, ?_, (Strobe.steady_append _ _ _).mpr ⟨hsteady, hsteady'⟩⟩
    · rw [received_append, hrec, hrec', List.flatMap_cons]
    · rw [Strobe.settle_append, hen']

/-! ## Pairing nibbles into bytes -/

/-- **A received byte**, with the RS level seen with each of its nibbles. -/
structure Received where
  rsHigh : Bool
  rsLow : Bool
  value : Byte
  deriving DecidableEq

/-- **A four-bit receiver**: the sample of a high nibble that waits for its
low one, and the bytes received so far. -/
structure Receiver where
  pending : Option Sample
  bytes : List Received
  deriving DecidableEq

/-- The receiver pairs a sample with the one that waits, or lets it wait. -/
def Receiver.latch (r : Receiver) (s : Sample) : Receiver :=
  match r.pending with
  | none => ⟨some s, r.bytes⟩
  | some hi => ⟨none, r.bytes ++ [⟨hi.rs, s.rs, hi.nibble ++ s.nibble⟩]⟩

/-- What a receiver that has seen nothing makes of a list of line events. -/
def decode (lv : Levels) (es : List PinEvent) : Receiver :=
  (received lv es).foldl Receiver.latch ⟨none, []⟩

/-- The two samples of a call, on a byte boundary, are received as its
byte. -/
theorem latch_samples (bytes : List Received) (c : LcdCall) :
    c.samples.foldl Receiver.latch ⟨none, bytes⟩
      = ⟨none, bytes ++ [⟨c.rs, c.rs, c.value⟩]⟩ := by
  show Receiver.mk none (bytes ++ [⟨c.rs, c.rs, highNibble c.value ++ lowNibble c.value⟩]) = _
  rw [highNibble_append_lowNibble]

/-- So are those of a list of calls. -/
theorem latch_flatMap_samples (bytes : List Received) (calls : List LcdCall) :
    (calls.flatMap LcdCall.samples).foldl Receiver.latch ⟨none, bytes⟩
      = ⟨none, bytes ++ calls.map (fun c => ⟨c.rs, c.rs, c.value⟩)⟩ := by
  induction calls generalizing bytes with
  | nil => rw [List.map_nil, List.append_nil]; rfl
  | cons c cs ih =>
    rw [List.flatMap_cons, List.foldl_append, latch_samples, ih, List.map_cons,
      List.append_assoc]
    rfl

/-- **The lines carry the calls and nothing else.** From any levels with EN
low, a four-bit receiver on a byte boundary decodes from the line events of
a list of calls exactly their bytes in order, each with the RS level of its
call at both nibbles; it ends on a byte boundary with EN low, and no line but
EN changes at an event that finds EN high. -/
theorem decode_pins (lv : Levels) (hlow : lv .en = false) (calls : List LcdCall) :
    (decode lv (pins calls)).bytes = calls.map (fun c => ⟨c.rs, c.rs, c.value⟩)
      ∧ (decode lv (pins calls)).pending = none
      ∧ Strobe.settle lv (pins calls) .en = false
      ∧ ∀ pre e post, pins calls = pre ++ e :: post →
          Strobe.settle lv pre .en = true →
          ∀ p, p ≠ Pin.en → Strobe.settle lv (pre ++ [e]) p = Strobe.settle lv pre p := by
  obtain ⟨hrec, hen, hsteady⟩ := received_pins lv hlow calls
  have hdec : decode lv (pins calls)
      = ⟨none, calls.map (fun c => ⟨c.rs, c.rs, c.value⟩)⟩ := by
    rw [decode, hrec, latch_flatMap_samples, List.nil_append]
  refine ⟨by rw [hdec], by rw [hdec], hen, fun pre e post hsplit hhigh p hp => ?_⟩
  rw [hsplit] at hsteady
  rw [Strobe.settle_append, Strobe.settle_cons, Strobe.settle_nil,
    Strobe.apply_of_ne (by rw [hsteady.line_eq hhigh]; exact Ne.symm hp)]

/-- The lines as `lcd16x2_probe` requests them, all low, and the calls of the
initialisation. -/
theorem decode_pins_lcdInit :
    (decode (fun _ => false) (pins lcdInit)).bytes
        = lcdInit.map (fun c => ⟨c.rs, c.rs, c.value⟩)
      ∧ (decode (fun _ => false) (pins lcdInit)).pending = none
      ∧ Strobe.settle (fun _ => false) (pins lcdInit) Pin.en = false
      ∧ ∀ pre e post, pins lcdInit = pre ++ e :: post →
          Strobe.settle (fun _ => false) pre Pin.en = true →
          ∀ p, p ≠ Pin.en →
            Strobe.settle (fun _ => false) (pre ++ [e]) p
              = Strobe.settle (fun _ => false) pre p :=
  decode_pins (fun _ => false) rfl lcdInit

end Lcd
