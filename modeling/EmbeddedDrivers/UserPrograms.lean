import EmbeddedDrivers.Dialogue
import EmbeddedDrivers.OledCanvas
import Mathlib.Data.List.OfFn

/-!
# The user programs

`spi_user.c`, `uart2_usr.c`, `i2c_user.c` and `i2c_user_oled.c`: programs that
open a device, talk to it and close it again. Each is written as a program in
the sense of `EmbeddedDrivers.Dialogue`, asking the kernel and the C library,
so that what is said of it is said for every device and every failure.

They have in common what is expected of any such program, a descriptor that is
opened and closed once and nothing printed that is not there, and
`programs_end` says that all of them but one meet it. The one is `i2c_user.c`,
which prints two bytes without looking at how many it has read.

`spi_user.c` has a companion in the kernel, the probe of `spi0_ker.c`, which is
written here in the same way.
-/

namespace User

open Dialogue
open Oled (U8)

/-! ## The calls -/

/-- **An argument of `printf`**: a number, a byte, or a string. What was read from
memory that holds nothing yet is none. -/
inductive Arg
  | int (i : ℤ)
  | byte (b : Option U8)
  | str (s : Option (List U8))
  deriving DecidableEq

/-- **A line printed**, as its format and arguments. -/
abbrev Line := String × List Arg

/-- The requests of `ioctl` but the one that transfers. -/
inductive Request
  | i2cSlave (address : ℕ)
  | spiWrMode (mode : U8)
  | spiWrBitsPerWord (bits : U8)
  | spiWrMaxSpeedHz (speed : ℕ)
  deriving DecidableEq

/-- **The calls of the programs.** `spiMessage` is `ioctl` with
`SPI_IOC_MESSAGE(1)` and one transfer. -/
inductive Sys
  | openFile (path : String)
  | ioctl (fd : ℤ) (request : Request)
  | spiMessage (fd : ℤ) (tx : List U8) (speedHz : ℕ) (bitsPerWord : U8)
  | write (fd : ℤ) (buf : List U8)
  | read (fd : ℤ) (count : ℕ)
  | close (fd : ℤ)
  | printf (line : Line)
  | perror (s : String)
  | sleep (seconds : ℕ)

/-- **What they are answered with.** A transfer leaves a byte in the receive buffer
for each one sent. A write returns no more than it was given; a read fails, or
stores no more bytes than it was asked for and returns their number. -/
def Answer : Sys → Type
  | .openFile _ => ℤ
  | .ioctl _ _ => ℤ
  | .spiMessage _ tx _ _ => ℤ × (Fin tx.length → U8)
  | .write _ buf => {r : ℤ // r ≤ buf.length}
  | .read _ count => Option {bs : List U8 // bs.length ≤ count}
  | .close _ | .printf _ | .perror _ | .sleep _ => Unit

/-- A program on these calls. -/
abbrev Main := Program Answer

def openFile (path : String) : Main ℤ := call (Sys.openFile path)
def ioctl (fd : ℤ) (request : Request) : Main ℤ := call (Sys.ioctl fd request)
def spiMessage (fd : ℤ) (tx : List U8) (speedHz : ℕ) (bitsPerWord : U8) :
    Main (ℤ × (Fin tx.length → U8)) := call (Sys.spiMessage fd tx speedHz bitsPerWord)
def write (fd : ℤ) (buf : List U8) : Main {r : ℤ // r ≤ buf.length} := call (Sys.write fd buf)
def read (fd : ℤ) (count : ℕ) : Main (Option {bs : List U8 // bs.length ≤ count}) :=
  call (Sys.read fd count)
def close (fd : ℤ) : Main Unit := call (Sys.close fd)
def printf (format : String) (args : List Arg) : Main Unit := call (Sys.printf (format, args))
def perror (s : String) : Main Unit := call (Sys.perror s)
def sleep (seconds : ℕ) : Main Unit := call (Sys.sleep seconds)

/-! ## Local buffers -/

/-- A local buffer of so many bytes, as far as it has been written to. -/
abbrev Buffer := ℕ → Option U8

/-- A buffer into which bytes were read. -/
def Buffer.filled (bs : List U8) : Buffer := fun i => bs[i]?

/-- The string at the beginning of a buffer of some size, if it ends there and all of
it was written. -/
def Buffer.string (buf : Buffer) : ℕ → ℕ → Option (List U8)
  | 0, _ => none
  | size + 1, i =>
    match buf i with
    | none => none
    | some b => if b = 0 then some [] else (string buf size (i + 1)).map (b :: ·)

/-! ## `spi_user.c` -/

/-- The bytes sent. -/
def tx : List U8 := [0xAA, 0x55, 0xFF, 0xAB, 0xCD]

/-- A byte of the dump. -/
def dump (b : U8) : Main Unit := printf "%02X " [.byte (some b)]

/-- `main` of `spi_user.c`. -/
def spiUser : Main ℤ := do
  let fd ← openFile "/dev/spidev0.0"
  if fd < 0 then
    perror "Failed to open SPI device"
    pure 1
  else
    let mode ← ioctl fd (.spiWrMode 0)
    if mode = -1 then
      perror "Can't set SPI mode"
      close fd
      pure 1
    else
      let bits ← ioctl fd (.spiWrBitsPerWord 8)
      if bits = -1 then
        perror "Can't set bits per word"
        close fd
        pure 1
      else
        let speed ← ioctl fd (.spiWrMaxSpeedHz 500000)
        if speed = -1 then
          perror "Can't set max speed"
          close fd
          pure 1
        else
          let r ← spiMessage fd tx 500000 8
          if r.1 < 1 then
            perror "Can't send SPI message"
            close fd
            pure 1
          else
            printf "Transmitted (TX): " []
            forM tx dump
            printf "\n" []
            printf "Received   (RX): " []
            forM (List.ofFn r.2) dump
            printf "\n" []
            forM (List.finRange tx.length) fun i =>
              if tx.get i ≠ r.2 i then
                printf "Mismatch at byte %zu: TX=0x%02X, RX=0x%02X\n"
                  [.int i, .byte (some (tx.get i)), .byte (some (r.2 i))]
              else pure ()
            close fd
            pure 0

/-! ## `uart2_usr.c` -/

/-- The string sent. -/
def hello : List U8 :=
  [0x48, 0x65, 0x6C, 0x6C, 0x6F, 0x20, 0x66, 0x72, 0x6F, 0x6D, 0x20, 0x4C, 0x69, 0x6E, 0x75, 0x78,
    0x21]

/-- `main` of `uart2_usr.c`. -/
def uart2Usr : Main ℤ := do
  let fd ← openFile "/dev/ttyS2"
  if fd < 0 then
    perror "Failed to open UART device"
    pure 1
  else
    let written ← write fd hello
    if written.1 < 0 then
      perror "Failed to write to UART device"
      close fd
      pure 1
    else
      printf "Sent %zd bytes: %s\n" [.int written.1, .str (some hello)]
      match ← read fd (64 - 1) with
      | none =>
        perror "Failed to read from UART device"
        close fd
        pure 1
      | some bs =>
        let receiveBuffer := Function.update (Buffer.filled bs.1) bs.1.length (some 0)
        printf "Received %zd bytes: %s\n"
          [.int bs.1.length, .str (Buffer.string receiveBuffer 64 0)]
        close fd
        pure 0

/-! ## `i2c_user.c` -/

/-- `main` of `i2c_user.c`. -/
def i2cUser : Main ℤ := do
  let fd ← openFile "/dev/i2c-2"
  if fd < 0 then
    perror "Failed to open I2C device"
    pure 1
  else
    let slave ← ioctl fd (.i2cSlave 0x3C)
    if slave < 0 then
      perror "Failed to set I2C slave address"
      close fd
      pure 1
    else
      let written ← write fd [0x00, 0xFF]
      -- a failure is reported, and the program goes on
      if written.1 < 0 then perror "Failed to write to I2C device"
      else printf "Wrote %zd bytes\n" [.int written.1]
      match ← read fd 2 with
      | none => perror "Failed to read from I2C device"
      | some bs =>
        printf "Read %zd bytes: %02X %02X\n"
          [.int bs.1.length, .byte (Buffer.filled bs.1 0), .byte (Buffer.filled bs.1 1)]
      close fd
      pure 0

/-! ## `i2c_user_oled.c` -/

/-- The transfers of the drawing functions, each a write whose result is dropped. -/
def transfers (fd : ℤ) (ts : List Oled.Transfer) : Main Unit :=
  forM ts fun t => do
    let _ ← write fd [t.1, t.2]
    pure ()

/-- `main` of `i2c_user_oled.c`, its loop run for the 31 turns after which it has been
left. -/
def i2cUserOled : Main ℤ := do
  let fd ← openFile "/dev/i2c-2"
  if fd < 0 then
    perror "Failed to open I2C device"
    pure 1
  else
    let slave ← ioctl fd (.i2cSlave 0x3C)
    if slave < 0 then
      perror "Failed to set I2C slave address"
      close fd
      pure 1
    else
      transfers fd I2cUserOled.oledInit
      transfers fd (Loop.trace I2cUserOled.mainBody 31 0)
      sleep 1
      close fd
      pure 0

/-- The programs. -/
inductive UserProgram
  | spiUser
  | uart2Usr
  | i2cUser
  | i2cUserOled
  deriving DecidableEq

/-- Their `main` functions. -/
def UserProgram.main : UserProgram → Main ℤ
  | .spiUser => User.spiUser
  | .uart2Usr => User.uart2Usr
  | .i2cUser => User.i2cUser
  | .i2cUserOled => User.i2cUserOled

/-! ## Listening to a program -/

/-- **A descriptor**: not yet asked for, open, or done with. -/
inductive Descriptor
  | fresh
  | opened (fd : ℤ)
  | finished
  deriving DecidableEq

/-- **What there is to say of a conversation so far**: where the descriptor is, what
was written and what each write returned, what the reads have stored, and what
was printed. -/
structure Session where
  descriptor : Descriptor
  written : List (List U8 × ℤ)
  received : List (List U8)
  printed : List Line

/-- Nothing said. -/
def Session.start : Session := ⟨.fresh, [], [], []⟩

/-- **One exchange.** A device is opened once, and then used through the descriptor
that came of it until that is closed; nothing else has a next state. -/
def Session.step (s : Session) : Exchange Answer → Option Session
  | ⟨.openFile _, r⟩ =>
    if s.descriptor = .fresh then
      some { s with descriptor := if (show ℤ from r) < 0 then .finished else .opened r }
    else none
  | ⟨.ioctl fd _, _⟩ => if s.descriptor = .opened fd then some s else none
  | ⟨.spiMessage fd _ _ _, r⟩ =>
    if s.descriptor = .opened fd then some { s with received := s.received ++ [List.ofFn r.2] }
    else none
  | ⟨.write fd buf, r⟩ =>
    if s.descriptor = .opened fd then some { s with written := s.written ++ [(buf, r.1)] }
    else none
  | ⟨.read fd _, r⟩ =>
    if s.descriptor = .opened fd then
      some { s with received := s.received ++ (r.map Subtype.val).toList }
    else none
  | ⟨.close fd, _⟩ =>
    if s.descriptor = .opened fd then some { s with descriptor := .finished } else none
  | ⟨.printf line, _⟩ => some { s with printed := s.printed ++ [line] }
  | ⟨.perror _, _⟩ => some s
  | ⟨.sleep _, _⟩ => some s

/-- What a session is left in by a program, whatever it is answered. -/
abbrev Leaves {α : Type} (s : Session) (p : Main α) (post : α → Session → Prop) : Prop :=
  Meets Session.step post s p

section Rules

variable {α : Type} {post : α → Session → Prop} {s : Session} {fd : ℤ}

theorem leaves_openFile {path : String} {k : ℤ → Main α} (h : s.descriptor = .fresh)
    (hfail : ∀ r < 0, Leaves { s with descriptor := .finished } (k r) post)
    (hopen : ∀ r, ¬ r < 0 → Leaves { s with descriptor := .opened r } (k r) post) :
    Leaves s (openFile path >>= k) post := by
  refine meets_call.mpr fun r => ⟨_, if_pos h, ?_⟩
  by_cases hr : (show ℤ from r) < 0
  · rw [if_pos hr]
    exact hfail r hr
  · rw [if_neg hr]
    exact hopen r hr

theorem leaves_ioctl {request : Request} {k : ℤ → Main α} (h : s.descriptor = .opened fd)
    (hk : ∀ r, Leaves s (k r) post) : Leaves s (ioctl fd request >>= k) post :=
  meets_call.mpr fun r => ⟨s, if_pos h, hk r⟩

theorem leaves_printf {format : String} {args : List Arg} {k : Unit → Main α}
    (hk : Leaves { s with printed := s.printed ++ [(format, args)] } (k ()) post) :
    Leaves s (printf format args >>= k) post := meets_call.mpr fun _ => ⟨_, rfl, hk⟩

theorem leaves_perror {t : String} {k : Unit → Main α} (hk : Leaves s (k ()) post) :
    Leaves s (perror t >>= k) post := meets_call.mpr fun _ => ⟨s, rfl, hk⟩

theorem leaves_close {k : Unit → Main α} (h : s.descriptor = .opened fd)
    (hk : Leaves { s with descriptor := .finished } (k ()) post) :
    Leaves s (close fd >>= k) post := meets_call.mpr fun _ => ⟨_, if_pos h, hk⟩

theorem leaves_sleep {seconds : ℕ} {k : Unit → Main α} (hk : Leaves s (k ()) post) :
    Leaves s (sleep seconds >>= k) post := meets_call.mpr fun _ => ⟨s, rfl, hk⟩

/-- The error paths behind an open device. -/
theorem leaves_fail {t : String} {post : ℤ → Session → Prop} (h : s.descriptor = .opened fd)
    (hpost : post 1 { s with descriptor := .finished }) :
    Leaves s (do perror t; close fd; pure 1) post :=
  leaves_perror (leaves_close h hpost)

theorem leaves_write {buf : List U8} {k : {r : ℤ // r ≤ buf.length} → Main α}
    (h : s.descriptor = .opened fd)
    (hk : ∀ r : {r : ℤ // r ≤ buf.length},
      Leaves { s with written := s.written ++ [(buf, r.1)] } (k r) post) :
    Leaves s (write fd buf >>= k) post := meets_call.mpr fun r => ⟨_, if_pos h, hk r⟩

theorem leaves_read {count : ℕ} {k : Option {bs : List U8 // bs.length ≤ count} → Main α}
    (h : s.descriptor = .opened fd) (hfail : Leaves s (k none) post)
    (hread : ∀ bs : {bs : List U8 // bs.length ≤ count},
      Leaves { s with received := s.received ++ [bs.1] } (k (some bs)) post) :
    Leaves s (read fd count >>= k) post := by
  refine meets_call.mpr fun r => ⟨_, if_pos h, ?_⟩
  cases r with
  | none =>
    show Leaves { s with received := s.received ++ [] } (k none) post
    rw [List.append_nil]
    exact hfail
  | some bs => exact hread bs

theorem leaves_spiMessage {bs : List U8} {speedHz : ℕ} {bits : U8}
    {k : ℤ × (Fin bs.length → U8) → Main α} (h : s.descriptor = .opened fd)
    (hk : ∀ r, Leaves { s with received := s.received ++ [List.ofFn r.2] } (k r) post) :
    Leaves s (spiMessage fd bs speedHz bits >>= k) post :=
  meets_call.mpr fun r => ⟨_, if_pos h, hk r⟩

/-- **A loop that prints.** -/
theorem leaves_prints {ι : Type} {f : ι → Main Unit} (lines : ι → List Line)
    {k : Unit → Main α}
    (hf : ∀ i s, Leaves s (f i) fun _ s' => s' = { s with printed := s.printed ++ lines i })
    {is : List ι} (hk : Leaves { s with printed := s.printed ++ is.flatMap lines } (k ()) post) :
    Leaves s (forM is f >>= k) post := by
  refine meets_bind.mpr ((Meets.forM (I := fun is s' =>
    Leaves { s' with printed := s'.printed ++ is.flatMap lines } (k ()) post) ?_ hk).mono ?_)
  · intro i is s' hs'
    refine (hf i s').mono ?_
    rintro _ _ rfl
    rw [List.flatMap_cons, ← List.append_assoc] at hs'
    exact hs'
  · intro _ s' hs'
    rw [List.flatMap_nil, List.append_nil] at hs'
    exact hs'

/-- **The writes of the drawing functions**, whatever they return. -/
theorem leaves_transfers {ts : List Oled.Transfer} {k : Unit → Main α}
    (h : s.descriptor = .opened fd)
    (hk : ∀ rs : List (List U8 × ℤ), rs.map Prod.fst = ts.map (fun t => [t.1, t.2]) →
      Leaves { s with written := s.written ++ rs } (k ()) post) :
    Leaves s (transfers fd ts >>= k) post := by
  refine meets_bind.mpr ((Meets.forM (I := fun ts s' => s'.descriptor = .opened fd
    ∧ ∀ rs : List (List U8 × ℤ), rs.map Prod.fst = ts.map (fun t => [t.1, t.2]) →
      Leaves { s' with written := s'.written ++ rs } (k ()) post) ?_ ⟨h, hk⟩).mono ?_)
  · rintro t ts s' ⟨hfd, hs'⟩
    refine leaves_write hfd fun r => ⟨hfd, fun rs hrs => ?_⟩
    dsimp only
    rw [List.append_assoc]
    exact hs' ([([t.1, t.2], r.1)] ++ rs) (by rw [List.map_append, hrs]; rfl)
  · rintro _ s' ⟨-, hs'⟩
    have hdone := hs' [] rfl
    rw [List.append_nil] at hdone
    exact hdone

end Rules

/-! ## How the programs end -/

/-- Everything a line shows was there to be shown. -/
def Defined (l : Line) : Prop := ∀ a ∈ l.2, a ≠ .byte none ∧ a ≠ .str none

instance (l : Line) : Decidable (Defined l) :=
  inferInstanceAs (Decidable (∀ a ∈ l.2, a ≠ .byte none ∧ a ≠ .str none))

/-- **What is expected of a program's end**: the descriptor is done with, the status
is 0 or 1, and what was printed was there to be printed. This last does not hold
of `i2c_user.c` where a read has stored less than two bytes. -/
structure Ends (p : UserProgram) (ret : ℤ) (s : Session) : Prop where
  finished : s.descriptor = .finished
  status : ret = 0 ∨ ret = 1
  defined : (∀ l ∈ s.printed, Defined l) ↔ (p = .i2cUser → ∀ bs ∈ s.received, bs.length = 2)

/-- The end of a program other than `i2c_user.c`. -/
theorem ends_of_defined {p : UserProgram} {ret : ℤ} {s : Session} (hp : p ≠ .i2cUser)
    (hfinished : s.descriptor = .finished) (hret : ret = 0 ∨ ret = 1)
    (hdefined : ∀ l ∈ s.printed, Defined l) : Ends p ret s :=
  ⟨hfinished, hret, iff_of_true hdefined fun h => absurd h hp⟩

/-- What a dump prints. -/
theorem leaves_dump (b : U8) (s : Session) :
    Leaves s (dump b) fun _ s' =>
      s' = { s with printed := s.printed ++ [("%02X ", [.byte (some b)])] } :=
  fun _ => ⟨_, rfl, rfl⟩

/-- The line printed for a byte that came back different, if it did. -/
def mismatch (rx : Fin tx.length → U8) (i : Fin tx.length) : List Line :=
  if tx.get i ≠ rx i then
    [("Mismatch at byte %zu: TX=0x%02X, RX=0x%02X\n",
      [.int i, .byte (some (tx.get i)), .byte (some (rx i))])]
  else []

/-- What a successful transfer makes `spi_user.c` print. -/
def spiReport (rx : Fin tx.length → U8) : List Line :=
  [("Transmitted (TX): ", [])] ++ tx.map (fun b => ("%02X ", [.byte (some b)])) ++ [("\n", [])]
    ++ [("Received   (RX): ", [])] ++ (List.ofFn rx).map (fun b => ("%02X ", [.byte (some b)]))
    ++ [("\n", [])] ++ (List.finRange tx.length).flatMap (mismatch rx)

/-- **`spi_user.c`**: it reports what was received, or fails and prints nothing. -/
theorem leaves_spiUser :
    Leaves Session.start spiUser fun ret s => s.descriptor = .finished
      ∧ (ret = 1 ∧ s.printed = [] ∨ ret = 0 ∧ ∃ rx, s.received = [List.ofFn rx]
        ∧ s.printed = spiReport rx) := by
  refine leaves_openFile rfl (fun r hr => ?_) (fun r hr => ?_)
  · rw [if_pos hr]
    exact leaves_perror ⟨rfl, Or.inl ⟨rfl, rfl⟩⟩
  rw [if_neg hr]
  refine leaves_ioctl rfl fun mode => ?_
  split
  · exact leaves_fail rfl ⟨rfl, Or.inl ⟨rfl, rfl⟩⟩
  refine leaves_ioctl rfl fun bits => ?_
  split
  · exact leaves_fail rfl ⟨rfl, Or.inl ⟨rfl, rfl⟩⟩
  refine leaves_ioctl rfl fun speed => ?_
  split
  · exact leaves_fail rfl ⟨rfl, Or.inl ⟨rfl, rfl⟩⟩
  refine leaves_spiMessage rfl fun msg => ?_
  split
  · exact leaves_fail rfl ⟨rfl, Or.inl ⟨rfl, rfl⟩⟩
  refine leaves_printf (leaves_prints _ leaves_dump (leaves_printf (leaves_printf
    (leaves_prints _ leaves_dump (leaves_printf (leaves_prints (mismatch msg.2) ?_ ?_))))))
  · intro i s
    unfold mismatch
    split
    · exact fun _ => ⟨_, rfl, rfl⟩
    · show s = _
      rw [List.append_nil]
  · refine leaves_close rfl ⟨rfl, Or.inr ⟨rfl, msg.2, rfl, ?_⟩⟩
    rw [spiReport, List.map_eq_flatMap, List.map_eq_flatMap]
    rfl

/-- The report shows nothing that is not there. -/
theorem defined_spiReport (rx : Fin tx.length → U8) : ∀ l ∈ spiReport rx, Defined l := by
  have hdump (bs : List U8) : ∀ l ∈ bs.map fun b => (("%02X ", [.byte (some b)]) : Line),
      Defined l := by
    intro l hl
    obtain ⟨b, -, rfl⟩ := List.mem_map.mp hl
    simp [Defined]
  have hmismatch : ∀ l ∈ (List.finRange tx.length).flatMap (mismatch rx), Defined l := by
    intro l hl
    obtain ⟨i, -, hi⟩ := List.mem_flatMap.mp hl
    unfold mismatch at hi
    split at hi
    · rw [List.mem_singleton.mp hi]
      simp [Defined]
    · exact absurd hi List.not_mem_nil
  simp only [spiReport, List.forall_mem_append, List.forall_mem_singleton]
  exact ⟨⟨⟨⟨⟨⟨by decide, hdump tx⟩, by decide⟩, by decide⟩, hdump _⟩, by decide⟩, hmismatch⟩

/-- A string that was read and ended, in a buffer with room for its end. -/
theorem string_filled (bs : List U8) {size i : ℕ} (hi : i ≤ bs.length)
    (hsize : bs.length < i + size) :
    Buffer.string (Function.update (Buffer.filled bs) bs.length (some 0)) size i
      = some ((bs.drop i).takeWhile (· ≠ 0)) := by
  induction size generalizing i with
  | zero => omega
  | succ size ih =>
    rw [Buffer.string]
    by_cases hlt : i < bs.length
    · rw [Function.update_of_ne (by omega), Buffer.filled, List.getElem?_eq_getElem hlt,
        List.drop_eq_getElem_cons hlt]
      dsimp only
      by_cases hz : bs[i] = 0
      · rw [if_pos hz, List.takeWhile_cons_of_neg (by simpa using hz)]
      · rw [if_neg hz, ih hlt (by omega), List.takeWhile_cons_of_pos (by simpa using hz)]
        rfl
    · obtain rfl : i = bs.length := by omega
      rw [Function.update_self, List.drop_length]
      rfl

/-- **`uart2_usr.c`**: it prints what it has sent, and what it has received up to the
first NUL, which it never looks for outside the buffer. -/
theorem leaves_uart2Usr :
    Leaves Session.start uart2Usr fun ret s => s.descriptor = .finished ∧ (ret = 0 ∨ ret = 1)
      ∧ ∀ l ∈ s.printed, (∃ r, l = ("Sent %zd bytes: %s\n", [.int r, .str (some hello)]))
        ∨ ∃ bs ∈ s.received, l = ("Received %zd bytes: %s\n",
          [.int bs.length, .str (some (bs.takeWhile (· ≠ 0)))]) := by
  refine leaves_openFile rfl (fun r hr => ?_) (fun r hr => ?_)
  · rw [if_pos hr]
    exact leaves_perror ⟨rfl, Or.inr rfl, fun l hl => absurd hl List.not_mem_nil⟩
  rw [if_neg hr]
  refine leaves_write rfl fun written => ?_
  split
  · exact leaves_fail rfl ⟨rfl, Or.inr rfl, fun l hl => absurd hl List.not_mem_nil⟩
  refine leaves_printf (leaves_read rfl ?_ fun bs => ?_)
  · exact leaves_fail rfl ⟨rfl, Or.inr rfl, fun l hl =>
      Or.inl ⟨written.1, List.mem_singleton.mp hl⟩⟩
  · refine leaves_printf (leaves_close rfl ⟨rfl, Or.inl rfl, fun l hl => ?_⟩)
    rcases List.mem_pair.mp hl with hsent | hreceived
    · exact Or.inl ⟨written.1, hsent⟩
    · refine Or.inr ⟨bs.1, List.mem_singleton_self _, ?_⟩
      rw [hreceived, string_filled bs.1 (Nat.zero_le _) (by have := bs.2; omega), List.drop_zero]

/-- Two bytes are there to be printed where two were read. -/
theorem defined_filled_iff {bs : List U8} (h : bs.length ≤ 2) (format : String) (k : ℤ) :
    Defined (format, [.int k, .byte (Buffer.filled bs 0), .byte (Buffer.filled bs 1)])
      ↔ bs.length = 2 := by
  rcases bs with _ | ⟨a, _ | ⟨b, _ | ⟨c, bs⟩⟩⟩
  · simp [Defined, Buffer.filled]
  · simp [Defined, Buffer.filled]
  · simp [Defined, Buffer.filled]
  · exact absurd h (by simp)

/-- **`i2c_user.c`**: it goes on after a failure, and prints the second byte whether
it was read or not. -/
theorem leaves_i2cUser :
    Leaves Session.start i2cUser (Ends .i2cUser) := by
  have hnone {s : Session} (hfinished : s.descriptor = .finished) (hprinted : s.printed = [])
      (hreceived : s.received = []) : Ends .i2cUser 1 s :=
    ⟨hfinished, Or.inr rfl, iff_of_true (by simp [hprinted]) (by simp [hreceived])⟩
  refine leaves_openFile rfl (fun r hr => ?_) (fun r hr => ?_)
  · rw [if_pos hr]
    exact leaves_perror (hnone rfl rfl rfl)
  rw [if_neg hr]
  refine leaves_ioctl rfl fun slave => ?_
  split
  · exact leaves_fail rfl (hnone rfl rfl rfl)
  -- what comes after the write, whatever it has printed
  have hrest {s : Session} (hopen : s.descriptor = .opened r) (hreceived : s.received = [])
      (hdefined : ∀ l ∈ s.printed, Defined l) :
      Leaves s (do
        match ← read r 2 with
        | none => perror "Failed to read from I2C device"
        | some bs =>
          printf "Read %zd bytes: %02X %02X\n"
            [.int bs.1.length, .byte (Buffer.filled bs.1 0), .byte (Buffer.filled bs.1 1)]
        close r
        pure 0) (Ends .i2cUser) := by
    refine leaves_read hopen ?_ fun bs => ?_
    · exact leaves_perror (leaves_close hopen ⟨rfl, Or.inl rfl,
        iff_of_true hdefined (by simp [hreceived])⟩)
    · refine leaves_printf (leaves_close hopen ⟨rfl, Or.inl rfl, ?_⟩)
      show (∀ l ∈ s.printed ++ [_], Defined l)
        ↔ (UserProgram.i2cUser = .i2cUser → ∀ b ∈ s.received ++ [bs.1], b.length = 2)
      rw [hreceived, List.forall_mem_append, List.forall_mem_singleton,
        defined_filled_iff bs.2 "Read %zd bytes: %02X %02X\n", List.nil_append,
        List.forall_mem_singleton, and_iff_right hdefined]
      exact ⟨fun h _ => h, fun h => h rfl⟩
  refine leaves_write rfl fun written => ?_
  split
  · exact leaves_perror (hrest rfl rfl (by simp [Session.start]))
  · refine leaves_printf (hrest rfl rfl fun l hl => ?_)
    rw [List.mem_singleton.mp hl]
    simp [Defined]

/-- **`i2c_user_oled.c`**: it sends everything or nothing. -/
theorem leaves_i2cUserOled :
    Leaves Session.start i2cUserOled fun ret s => s.descriptor = .finished ∧ s.printed = []
      ∧ (ret = 1 ∧ s.written = [] ∨ ret = 0
        ∧ s.written.map Prod.fst = (I2cUserOled.oledInit
          ++ Loop.trace I2cUserOled.mainBody 31 0).map fun t => [t.1, t.2]) := by
  refine leaves_openFile rfl (fun r hr => ?_) (fun r hr => ?_)
  · rw [if_pos hr]
    exact leaves_perror ⟨rfl, rfl, Or.inl ⟨rfl, rfl⟩⟩
  rw [if_neg hr]
  refine leaves_ioctl rfl fun slave => ?_
  split
  · exact leaves_fail rfl ⟨rfl, rfl, Or.inl ⟨rfl, rfl⟩⟩
  refine leaves_transfers rfl fun rs hrs => leaves_transfers rfl fun rs' hrs' => ?_
  refine leaves_sleep (leaves_close rfl ⟨rfl, rfl, Or.inr ⟨rfl, ?_⟩⟩)
  show (([] ++ rs) ++ rs').map Prod.fst = _
  rw [List.nil_append, List.map_append, hrs, hrs', List.map_append]

/-- **Every program comes to its end**: in any conversation, whatever fails, the
device is opened once, used only while it is open and through its descriptor,
and closed once if it was opened; the status is 0 or 1; and what is printed was
there to be printed, except where `i2c_user.c` has read less than the two bytes
it prints. -/
theorem programs_end (p : UserProgram) {tr : List (Exchange Answer)} {ret : ℤ}
    (h : Converses p.main tr ret) :
    ∃ s, Transition.run Session.step Session.start tr = some s ∧ Ends p ret s := by
  have hmeets : Leaves Session.start p.main (Ends p) := by
    cases p with
    | i2cUser => exact leaves_i2cUser
    | spiUser =>
      refine leaves_spiUser.mono ?_
      rintro ret s ⟨hfinished, ⟨rfl, hprinted⟩ | ⟨rfl, rx, -, hprinted⟩⟩
      · exact ends_of_defined (by decide) hfinished (Or.inr rfl) (by simp [hprinted])
      · exact ends_of_defined (by decide) hfinished (Or.inl rfl) (hprinted ▸ defined_spiReport rx)
    | uart2Usr =>
      refine leaves_uart2Usr.mono ?_
      rintro ret s ⟨hfinished, hret, hprinted⟩
      refine ends_of_defined (by decide) hfinished hret fun l hl => ?_
      rcases hprinted l hl with ⟨r, rfl⟩ | ⟨bs, -, rfl⟩ <;> simp [Defined]
    | i2cUserOled =>
      refine leaves_i2cUserOled.mono ?_
      rintro ret s ⟨hfinished, hprinted, ⟨rfl, -⟩ | ⟨rfl, -⟩⟩
      · exact ends_of_defined (by decide) hfinished (Or.inr rfl) (by simp [hprinted])
      · exact ends_of_defined (by decide) hfinished (Or.inl rfl) (by simp [hprinted])
  exact hmeets.converses h

/-- A conversation in which a read stores one byte. -/
def shortRead : List (Exchange Answer) :=
  [⟨.openFile "/dev/i2c-2", (3 : ℤ)⟩, ⟨.ioctl 3 (.i2cSlave 0x3C), (0 : ℤ)⟩,
    ⟨.write 3 [0x00, 0xFF], ⟨2, by decide⟩⟩, ⟨.printf ("Wrote %zd bytes\n", [.int 2]), ()⟩,
    ⟨.read 3 2, some ⟨[0x12], by decide⟩⟩,
    ⟨.printf ("Read %zd bytes: %02X %02X\n", [.int 1, .byte (some 0x12), .byte none]), ()⟩,
    ⟨.close 3, ()⟩]

theorem converses_shortRead : Converses UserProgram.i2cUser.main shortRead 0 :=
  .ask (.ask (.ask (.ask (.ask (.ask (.ask (.done _)))))))

/-- It ends well but for the second byte. -/
theorem programs_end_shortRead :
    ∃ s, Transition.run Session.step Session.start shortRead = some s
      ∧ s.descriptor = .finished ∧ ¬ ∀ l ∈ s.printed, Defined l := by
  obtain ⟨s, hrun, hends⟩ := programs_end .i2cUser converses_shortRead
  refine ⟨s, hrun, hends.finished, fun hdefined => ?_⟩
  have hreceived : [0x12] ∈ s.received := by
    obtain rfl := Option.some.inj hrun
    decide
  exact absurd (hends.defined.mp hdefined rfl _ hreceived) (by decide)

/-! ## Loopback

`spi0_ker.c` makes the test of `spi_user.c` from inside the kernel, in its
probe. -/

/-- The lines about bytes that came back different. -/
def mismatches (rx : Fin tx.length → U8) : List Line :=
  (List.finRange tx.length).flatMap (mismatch rx)

/-- There are none exactly if all came back as they were sent. -/
theorem mismatches_eq_nil_iff (rx : Fin tx.length → U8) : mismatches rx = [] ↔ rx = tx.get := by
  rw [mismatches, List.flatMap_eq_nil_iff, funext_iff]
  refine ⟨fun h i => ?_, fun h i _ => if_neg (not_not.mpr (h i).symm)⟩
  by_contra hne
  have hnil := h i (List.mem_finRange i)
  rw [mismatch, if_pos (Ne.symm hne)] at hnil
  exact List.cons_ne_nil _ _ hnil

namespace Spi0Ker

/-- **The calls of the probe**: `spi_setup`, `spi_sync` with one transfer, and its log
lines. -/
inductive Sys
  | spiSetup
  | spiSync (tx : U8)
  | devErr (line : Line)
  | devInfo (line : Line)

/-- What they are answered with. A transfer leaves a byte in `rx`. -/
def Answer : Sys → Type
  | .spiSetup => ℤ
  | .spiSync _ => ℤ × U8
  | .devErr _ | .devInfo _ => Unit

def spiSetup : Program Answer ℤ := call Sys.spiSetup
def spiSync (tx : U8) : Program Answer (ℤ × U8) := call (Sys.spiSync tx)
def devErr (format : String) (args : List Arg) : Program Answer Unit :=
  call (Sys.devErr (format, args))
def devInfo (format : String) (args : List Arg) : Program Answer Unit :=
  call (Sys.devInfo (format, args))

/-- `spi0_probe`. -/
def spi0Probe : Program Answer ℤ := do
  let ret ← spiSetup
  if ret ≠ 0 then
    devErr "FAILED to setup SPI device\n" []
    pure ret
  else
    devInfo "SPI Loopback: Transfer 0x%02X\n" [.byte (some 0xA5)]
    let r ← spiSync 0xA5
    if r.1 ≠ 0 then
      devErr "SPI transfer failed: %d\n" [.int r.1]
    else if r.2 ≠ 0xA5 then
      devErr "SPI loopback mismatch: sent 0x%02X, received 0x%02X\n"
        [.byte (some 0xA5), .byte (some r.2)]
    else
      devInfo "SPI received: 0x%02X\n" [.byte (some r.2)]
    pure 0

/-- **What there is to say of a probe**: what it was answered, and the errors
logged. -/
structure Session where
  setup : Option ℤ
  sync : Option (ℤ × U8)
  errors : List Line

def Session.step (s : Session) : Exchange Answer → Option Session
  | ⟨.spiSetup, r⟩ => some { s with setup := some r }
  | ⟨.spiSync _, r⟩ => some { s with sync := some r }
  | ⟨.devErr line, _⟩ => some { s with errors := s.errors ++ [line] }
  | ⟨.devInfo _, _⟩ => some s

section Rules

variable {α : Type} {post : α → Session → Prop} {s : Session}

theorem meets_spiSetup {k : ℤ → Program Answer α}
    (hk : ∀ r, Meets Session.step post { s with setup := some r } (k r)) :
    Meets Session.step post s (spiSetup >>= k) := meets_call.mpr fun r => ⟨_, rfl, hk r⟩

theorem meets_spiSync {b : U8} {k : ℤ × U8 → Program Answer α}
    (hk : ∀ r, Meets Session.step post { s with sync := some r } (k r)) :
    Meets Session.step post s (spiSync b >>= k) := meets_call.mpr fun r => ⟨_, rfl, hk r⟩

theorem meets_devErr {format : String} {args : List Arg} {k : Unit → Program Answer α}
    (hk : Meets Session.step post { s with errors := s.errors ++ [(format, args)] } (k ())) :
    Meets Session.step post s (devErr format args >>= k) := meets_call.mpr fun _ => ⟨_, rfl, hk⟩

theorem meets_devInfo {format : String} {args : List Arg} {k : Unit → Program Answer α}
    (hk : Meets Session.step post s (k ())) :
    Meets Session.step post s (devInfo format args >>= k) := meets_call.mpr fun _ => ⟨_, rfl, hk⟩

end Rules

/-- **The probe logs an error unless the byte came back**, and returns what
`spi_setup` has returned. -/
theorem meets_spi0Probe :
    Meets Session.step (fun ret s => s.setup = some ret
      ∧ (s.errors = [] ↔ s.sync = some (0, 0xA5))) ⟨none, none, []⟩ spi0Probe := by
  refine meets_spiSetup fun setup => ?_
  by_cases hsetup : setup = 0
  · rw [if_neg (not_not.mpr hsetup)]
    refine meets_devInfo (meets_spiSync fun r => ?_)
    obtain ⟨sync, rx⟩ := r
    by_cases hsync : sync = 0
    · rw [if_neg (not_not.mpr hsync)]
      by_cases hrx : rx = 0xA5
      · rw [if_neg (not_not.mpr hrx)]
        exact meets_devInfo ⟨congrArg some hsetup, iff_of_true rfl (by rw [hsync, hrx])⟩
      · rw [if_pos hrx]
        exact meets_devErr ⟨congrArg some hsetup, iff_of_false (by simp)
          fun h => hrx (Prod.mk.inj (Option.some.inj h)).2⟩
    · rw [if_pos hsync]
      exact meets_devErr ⟨congrArg some hsetup, iff_of_false (by simp) (by simp [hsync])⟩
  · rw [if_pos hsetup]
    exact meets_devErr ⟨rfl, iff_of_false (by simp) (by simp)⟩

end Spi0Ker

/-- **Both loopback tests find what they test for.** In every conversation
`spi_user.c` either returns 1 and prints nothing, or returns 0 and ends with the
lines about the bytes that came back different, of which there are none exactly
if all came back as they were sent. The probe of `spi0_ker.c` logs no error
exactly if its transfer succeeded and its byte came back, but returns what
`spi_setup` has returned whatever came back. -/
theorem loopback_detected :
    (∀ tr ret, Converses spiUser tr ret →
      ∃ s, Transition.run Session.step Session.start tr = some s
        ∧ (ret = 1 ∧ s.printed = [] ∨ ret = 0 ∧ ∃ rx, s.received = [List.ofFn rx]
          ∧ mismatches rx <:+ s.printed ∧ (mismatches rx = [] ↔ List.ofFn rx = tx)))
      ∧ ∀ tr ret, Converses Spi0Ker.spi0Probe tr ret →
        ∃ s, Transition.run Spi0Ker.Session.step ⟨none, none, []⟩ tr = some s
          ∧ s.setup = some ret ∧ (s.errors = [] ↔ s.sync = some (0, 0xA5)) := by
  refine ⟨fun tr ret h => ?_, fun tr ret h => Spi0Ker.meets_spi0Probe.converses h⟩
  obtain ⟨s, hrun, -, hends⟩ := leaves_spiUser.converses h
  refine ⟨s, hrun, hends.imp id ?_⟩
  rintro ⟨hret, rx, hreceived, hprinted⟩
  refine ⟨hret, rx, hreceived, ?_, ?_⟩
  · rw [hprinted]
    exact List.suffix_append _ _
  · rw [mismatches_eq_nil_iff]
    constructor
    · rintro rfl
      exact List.ofFn_get tx
    · intro heq
      exact List.ofFn_injective (heq.trans (List.ofFn_get tx).symm)

end User
