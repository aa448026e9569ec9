import Mathlib.Data.List.Basic
import Mathlib.Data.List.Flatten
import Mathlib.Tactic.Common

/-!
# A bounded line buffer

A line buffer of a fixed capacity receives a stream in chunks. It appends of
each chunk what still fits and drops the rest; and when what it then holds
ends with the terminator, it hands the whole over as a line and starts
afresh. The terminator is looked for in one place only, the end of what is
held, once per chunk.

That one place decides everything the buffer does. A terminator inside a
chunk is not seen, so the lines depend on how the stream was cut; a chunk
that does not fit loses its tail, terminator included; and a buffer that is
full without ending in a terminator never changes again (`put_full`),
since nothing more fits and the end it tests stays what it is.

Where none of this happens – no terminator inside a chunk and every line
shorter than the capacity – the lines handed over are those of the stream
itself, however it was cut: `feed_splitOn` reads them off `List.splitOn`.
And `feed_conserve_iff` is the account of the bytes: what goes in comes out
as lines or is still held exactly when every chunk has fitted.
-/

/-- **A line buffer**: what is held between two chunks. It is within the
capacity, and it does not end with the terminator, for then it would have
been handed over. -/
@[ext] structure LineBuffer (α : Type) (cap : ℕ) (nl : α) where
  /-- The elements held, oldest first. -/
  bytes : List α
  /-- What is held fits. -/
  length_le : bytes.length ≤ cap
  /-- What is held is not a finished line. -/
  getLast?_ne : bytes.getLast? ≠ some nl

namespace LineBuffer

variable {α : Type} [DecidableEq α] {cap : ℕ} {nl : α}

/-- The buffer that holds nothing. -/
def empty : LineBuffer α cap nl :=
  ⟨[], Nat.zero_le cap, by simp⟩

omit [DecidableEq α] in
@[simp] theorem bytes_empty : (empty : LineBuffer α cap nl).bytes = [] := rfl

/-- How much still fits. -/
def room (b : LineBuffer α cap nl) : ℕ := cap - b.bytes.length

/-- What is held once the part of a chunk that fits has been appended. -/
def joined (b : LineBuffer α cap nl) (chunk : List α) : List α :=
  b.bytes ++ chunk.take b.room

omit [DecidableEq α] in
theorem length_joined (b : LineBuffer α cap nl) (chunk : List α) :
    (b.joined chunk).length = b.bytes.length + min chunk.length b.room := by
  rw [joined, List.length_append, List.length_take, Nat.min_comm]

omit [DecidableEq α] in
theorem length_joined_le (b : LineBuffer α cap nl) (chunk : List α) :
    (b.joined chunk).length ≤ cap := by
  have := b.length_le
  rw [length_joined, room]
  omega

omit [DecidableEq α] in
/-- A chunk that fits is appended whole. -/
theorem joined_of_fits (b : LineBuffer α cap nl) {chunk : List α}
    (h : chunk.length ≤ b.room) : b.joined chunk = b.bytes ++ chunk := by
  rw [joined, List.take_of_length_le h]

/-- **One chunk**: the line handed over, which is empty when there is none,
and the buffer afterwards. -/
def put (b : LineBuffer α cap nl) (chunk : List α) : List α × LineBuffer α cap nl :=
  if h : (b.joined chunk).getLast? = some nl then (b.joined chunk, empty)
  else ([], ⟨b.joined chunk, b.length_joined_le chunk, h⟩)

/-- A chunk that brings the terminator to the end hands over all that is
held. -/
theorem put_of_closed {b : LineBuffer α cap nl} {chunk : List α}
    (h : (b.joined chunk).getLast? = some nl) :
    b.put chunk = (b.joined chunk, empty) := dif_pos h

/-- Any other chunk is only appended. -/
theorem put_of_open {b : LineBuffer α cap nl} {chunk : List α}
    (h : (b.joined chunk).getLast? ≠ some nl) :
    b.put chunk = ([], ⟨b.joined chunk, b.length_joined_le chunk, h⟩) := dif_neg h

/-- **Nothing is handed over but what was held or has just been appended**,
and nothing of it disappears. -/
theorem put_conserve (b : LineBuffer α cap nl) (chunk : List α) :
    (b.put chunk).1 ++ (b.put chunk).2.bytes = b.joined chunk := by
  by_cases h : (b.joined chunk).getLast? = some nl
  · rw [put_of_closed h, bytes_empty, List.append_nil]
  · rw [put_of_open h]
    rfl

/-- **A full buffer is stuck**: no chunk changes it and none is ever handed
over. -/
theorem put_full {b : LineBuffer α cap nl} (h : b.room = 0) (chunk : List α) :
    b.put chunk = ([], b) := by
  have hj : b.joined chunk = b.bytes := by
    rw [joined, h, List.take_zero, List.append_nil]
  rw [put_of_open (by rw [hj]; exact b.getLast?_ne)]
  exact Prod.ext rfl (LineBuffer.ext hj)

/-- A chunk that fits and leaves no terminator anywhere is appended. -/
theorem put_of_not_mem {b : LineBuffer α cap nl} {chunk : List α} (hfit : chunk.length ≤ b.room)
    (h : nl ∉ b.bytes ++ chunk) :
    (b.put chunk).1 = [] ∧ (b.put chunk).2.bytes = b.bytes ++ chunk := by
  have hj := b.joined_of_fits hfit
  have hopen : (b.joined chunk).getLast? ≠ some nl := by
    rw [hj]
    exact fun hlast => h (List.mem_of_getLast? hlast)
  rw [put_of_open hopen]
  exact ⟨rfl, hj⟩

/-- A chunk that fits and ends with the terminator hands over all. -/
theorem put_concat {b : LineBuffer α cap nl} {t : List α} (hfit : (t ++ [nl]).length ≤ b.room) :
    b.put (t ++ [nl]) = (b.bytes ++ t ++ [nl], empty) := by
  have hj : b.joined (t ++ [nl]) = b.bytes ++ t ++ [nl] := by
    rw [b.joined_of_fits hfit, List.append_assoc]
  rw [put_of_closed (by rw [hj, List.getLast?_append]; rfl), hj]

/-- With room for it, the terminator alone hands over what is held. -/
theorem put_terminator {b : LineBuffer α cap nl} (h : 0 < b.room) :
    b.put [nl] = (b.bytes ++ [nl], empty) := by
  have hput := put_concat (b := b) (t := []) h
  rwa [List.append_nil] at hput

/-- **A run of chunks**: what each handed over, in order, and the buffer at
the end. -/
def feed (b : LineBuffer α cap nl) : List (List α) → List (List α) × LineBuffer α cap nl
  | [] => ([], b)
  | c :: cs => ((b.put c).1 :: ((b.put c).2.feed cs).1, ((b.put c).2.feed cs).2)

/-- The lines among what a run handed over. -/
def lines (b : LineBuffer α cap nl) (cs : List (List α)) : List (List α) :=
  (b.feed cs).1.filter (· ≠ [])

/-- A chunk that hands nothing over adds no line. -/
theorem lines_cons_of_nil {b : LineBuffer α cap nl} {c : List α}
    (h : (b.put c).1 = []) (cs : List (List α)) :
    b.lines (c :: cs) = (b.put c).2.lines cs := by
  rw [lines, feed, h, List.filter_cons_of_neg (by simp)]
  rfl

/-- A chunk that hands a line over adds it. -/
theorem lines_cons_of_ne_nil {b : LineBuffer α cap nl} {c : List α}
    (h : (b.put c).1 ≠ []) (cs : List (List α)) :
    b.lines (c :: cs) = (b.put c).1 :: (b.put c).2.lines cs := by
  rw [lines, feed, List.filter_cons_of_pos (by simpa using h)]
  rfl

/-- **A full buffer stays stuck** over any run. -/
theorem feed_full {b : LineBuffer α cap nl} (h : b.room = 0) (cs : List (List α)) :
    b.lines cs = [] ∧ (b.feed cs).2 = b := by
  induction cs with
  | nil => exact ⟨rfl, rfl⟩
  | cons c cs ih =>
    have hput := put_full h c
    rw [lines_cons_of_nil (by rw [hput]), feed, hput]
    exact ih

/-! ## The account of the bytes -/

/-- Every chunk of the run fits into what is left of the buffer when it
comes. -/
def AllFit (b : LineBuffer α cap nl) : List (List α) → Prop
  | [] => True
  | c :: cs => c.length ≤ b.room ∧ (b.put c).2.AllFit cs

/-- What a run accounts for never exceeds what it was given. -/
theorem length_feed_le (b : LineBuffer α cap nl) (cs : List (List α)) :
    (b.feed cs).1.flatten.length + (b.feed cs).2.bytes.length
      ≤ b.bytes.length + cs.flatten.length := by
  induction cs generalizing b with
  | nil => simp [feed]
  | cons c cs ih =>
    have hput := congrArg List.length (b.put_conserve c)
    rw [List.length_append, length_joined] at hput
    have hrest := ih (b.put c).2
    simp only [feed, List.flatten_cons, List.length_append]
    omega

/-- **The account balances exactly when every chunk fits**: the lines
handed over followed by what is still held are what was held followed by the
chunks, in order and each once. -/
theorem feed_conserve_iff (b : LineBuffer α cap nl) (cs : List (List α)) :
    (b.feed cs).1.flatten ++ (b.feed cs).2.bytes = b.bytes ++ cs.flatten
      ↔ b.AllFit cs := by
  induction cs generalizing b with
  | nil => simp [feed, AllFit]
  | cons c cs ih =>
    have hput := b.put_conserve c
    rw [AllFit]
    by_cases hfit : c.length ≤ b.room
    · rw [b.joined_of_fits hfit] at hput
      rw [← ih (b.put c).2]
      simp only [feed, List.flatten_cons, hfit, true_and]
      constructor
      · intro h
        refine (List.append_right_inj (b.put c).1).mp ?_
        rw [← List.append_assoc, h, ← List.append_assoc, ← List.append_assoc, hput]
      · intro h
        rw [List.append_assoc, h, ← List.append_assoc, hput, List.append_assoc]
    · -- a chunk that does not fit loses bytes that no later chunk restores
      refine iff_of_false (fun h => ?_) (fun h => hfit h.1)
      have hlen := congrArg List.length h
      have hput' := congrArg List.length hput
      have hrest := length_feed_le (b.put c).2 cs
      rw [List.length_append, length_joined] at hput'
      simp only [feed, List.flatten_cons, List.length_append] at hlen
      omega

/-! ## The lines of the stream -/

omit [DecidableEq α] in
/-- A chunk without an inner terminator has none, or ends with its only
one. -/
theorem mem_or_eq_concat {c : List α} (h : nl ∉ c.dropLast) :
    nl ∉ c ∨ ∃ t, nl ∉ t ∧ c = t ++ [nl] := by
  rcases List.eq_nil_or_concat c with rfl | ⟨t, x, rfl⟩
  · exact Or.inl (List.not_mem_nil)
  · rw [List.concat_eq_append] at h ⊢
    rw [List.dropLast_concat] at h
    by_cases hx : x = nl
    · exact Or.inr ⟨t, h, by rw [hx]⟩
    · refine Or.inl (fun hm => ?_)
      rcases List.mem_append.mp hm with hm | hm
      · exact h hm
      · exact hx (List.mem_singleton.mp hm).symm

/-- The first line of a stream that starts with a piece free of terminators
is at least as long as the piece. -/
theorem le_of_splitOn {p rest : List α} (hp : nl ∉ p) {n : ℕ}
    (h : ∀ l ∈ (p ++ rest).splitOn nl, l.length < n) : p.length < n := by
  by_cases hr : nl ∈ rest
  · obtain ⟨s, t, rfl, hs⟩ := List.eq_append_cons_of_mem hr
    have hsplit : (p ++ (s ++ nl :: t)).splitOn nl = (p ++ s) :: t.splitOn nl := by
      rw [← List.append_assoc,
        List.splitOn_append_cons_self_of_not_mem (by simp [hp, hs])]
    have := h (p ++ s) (by rw [hsplit]; exact List.mem_cons_self)
    rw [List.length_append] at this
    omega
  · have := h (p ++ rest) (by
      rw [List.splitOn_eq_singleton (by simp [hp, hr])]
      exact List.mem_singleton_self _)
    rw [List.length_append] at this
    omega

/-- **The lines are those of the stream.** When no chunk carries a
terminator before its last element, and every line of the stream – what is
already held counted with it – is shorter than the capacity, the lines handed
over are the terminated lines of the stream and what is held is its unfinished
end. Nothing in this depends on the cutting. -/
theorem feed_splitOn (b : LineBuffer α cap nl) (hb : nl ∉ b.bytes)
    (cs : List (List α)) (hcs : ∀ c ∈ cs, nl ∉ c.dropLast)
    (hlen : ∀ l ∈ (b.bytes ++ cs.flatten).splitOn nl, l.length < cap) :
    ∃ ls, (b.bytes ++ cs.flatten).splitOn nl = ls ++ [(b.feed cs).2.bytes]
      ∧ b.lines cs = ls.map (· ++ [nl]) := by
  induction cs generalizing b with
  | nil =>
    refine ⟨[], ?_, rfl⟩
    rw [List.flatten_nil, List.append_nil, List.splitOn_eq_singleton hb]
    rfl
  | cons c cs ih =>
    have hrest : ∀ c' ∈ cs, nl ∉ c'.dropLast :=
      fun c' hc' => hcs c' (List.mem_cons_of_mem c hc')
    rw [List.flatten_cons, ← List.append_assoc] at hlen ⊢
    rcases mem_or_eq_concat (hcs c List.mem_cons_self) with hc | ⟨t, ht, rfl⟩
    · -- no terminator: the chunk extends the line being held
      have hbc : nl ∉ b.bytes ++ c := by simp [hb, hc]
      have hfit : c.length ≤ b.room := by
        have := le_of_splitOn hbc hlen
        rw [List.length_append] at this
        rw [room]
        omega
      obtain ⟨hput, hbytes⟩ := put_of_not_mem hfit hbc
      rw [← hbytes] at hlen hbc ⊢
      rw [lines_cons_of_nil hput]
      exact ih (b.put c).2 hbc hrest hlen
    · -- the terminator comes last: the line is handed over
      have hbt : nl ∉ b.bytes ++ t := by simp [hb, ht]
      have hstream : b.bytes ++ (t ++ [nl]) ++ cs.flatten
          = (b.bytes ++ t) ++ nl :: cs.flatten := by simp
      have hsplit : ((b.bytes ++ t) ++ nl :: cs.flatten).splitOn nl
          = (b.bytes ++ t) :: cs.flatten.splitOn nl :=
        List.splitOn_append_cons_self_of_not_mem hbt _
      rw [hstream, hsplit] at hlen
      have hfit : (t ++ [nl]).length ≤ b.room := by
        have := hlen _ List.mem_cons_self
        rw [List.length_append] at this
        rw [room, List.length_append, List.length_singleton]
        omega
      have hput := put_concat hfit
      obtain ⟨ls, hls, hlines⟩ := ih empty (by simp) hrest
        (fun l hl => hlen l (List.mem_cons_of_mem _ (by simpa using hl)))
      refine ⟨(b.bytes ++ t) :: ls, ?_, ?_⟩
      · rw [hstream, hsplit, List.cons_append, feed, hput]
        exact congrArg _ hls
      · rw [lines_cons_of_ne_nil (by rw [hput]; simp), hput, hlines]
        rfl

end LineBuffer
