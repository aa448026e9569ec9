import EmbeddedDrivers.LcdRendering
import Mathlib.Data.List.Forall2

/-!
# The clients of the character device

The device has one buffer and one fill count, and whoever opens it writes to
these. This module asks what a client can see of the others, first of those
before it and then of those beside it.

Of those before it nothing is seen. The bytes of a displayed line, and those a
failed copy has left, are never cleared; but a fill count of zero is all that
the line buffer knows of them, and so two modules that come to that count by
whatever histories behave alike from there on (`no_leftover`).

Beside it, a client sees everything. The bytes of two clients that are both in
the middle of a line are one line to the driver. What it does promise is that
clients who take turns, line by line, are each shown in full and in order
(`clients_apart`).
-/

namespace Lcd

variable {P : Type} (p : P)

/-! ## One after another -/

/-- **The same call, twice**: the same bytes, and copies that both succeed or
both fault; what a fault leaves in the buffer may differ. -/
def SameCall (c c' : WriteCall) : Prop := c.buf = c'.buf ∧ (c.copied = .all ↔ c'.copied = .all)

/-- The line buffer does not tell them apart. -/
theorem answer_of_same {c c' : WriteCall} (h : SameCall c c') (b : Pending) :
    b.answer c = b.answer c' := by
  cases hc : c.copied with
  | all => rw [b.answer_of_all hc, b.answer_of_all (h.2.mp hc), h.1]
  | fault left =>
    cases hc' : c'.copied with
    | all => exact absurd (h.2.mpr hc') (by rw [hc]; simp)
    | fault left' =>
      unfold Pending.answer
      rw [hc, hc']

/-- Nor does the returned value. -/
theorem returned_of_same {c c' : WriteCall} (h : SameCall c c') : returned c = returned c' := by
  unfold returned WriteCall.len
  cases hc : c.copied with
  | all => rw [h.2.mp hc, h.1]
  | fault left =>
    cases hc' : c'.copied with
    | all => exact absurd (h.2.mpr hc') (by rw [hc]; simp)
    | fault left' => rfl

/-- What is equal for each two calls is equal for the sequences. -/
theorem map_of_same {α : Type} {f : WriteCall → α} (hf : ∀ c c', SameCall c c' → f c = f c')
    {cs cs' : List WriteCall} (h : List.Forall₂ SameCall cs cs') : cs.map f = cs'.map f := by
  have heq : List.Forall₂ (fun x y : α => x = y) (cs.map f) (cs'.map f) := by
    rw [List.forall₂_map_left_iff, List.forall₂_map_right_iff]
    exact h.imp hf
  rwa [List.forall₂_eq_eq_eq] at heq

theorem answers_of_same {cs cs' : List WriteCall} (h : List.Forall₂ SameCall cs cs')
    (b : Pending) : b.answers cs = b.answers cs' := by
  induction h generalizing b with
  | nil => rfl
  | cons hc _ ih => rw [Pending.answers, Pending.answers, answer_of_same hc, ih]

/-- The bytes of the calls whose copies succeed. -/
def copiedBytes (cs : List WriteCall) : List Byte :=
  (cs.filter (·.copied = .all)).flatMap (·.buf)

theorem copiedBytes_cons (c : WriteCall) (cs : List WriteCall) :
    copiedBytes (c :: cs) = copiedBytes [c] ++ copiedBytes cs := by
  rw [← List.singleton_append, copiedBytes, List.filter_append, List.flatMap_append]
  rfl

/-- What one call hands over and holds was held before, or copied by it. -/
theorem answer_sublist (b : Pending) (c : WriteCall) :
    ((b.answer c).1 ++ (b.answer c).2.bytes).Sublist (b.bytes ++ copiedBytes [c]) := by
  cases hc : c.copied with
  | all =>
    have hbytes : copiedBytes [c] = c.buf := by simp [copiedBytes, hc]
    rw [b.answer_of_all hc, b.put_conserve, LineBuffer.joined, hbytes]
    exact (List.Sublist.refl b.bytes).append (List.take_sublist b.room c.buf)
  | fault left =>
    unfold Pending.answer
    rw [hc]
    exact List.nil_sublist _

/-- **Where the bytes of a line come from**: what a sequence hands over and
holds at its end was held before it, or has been copied by it. -/
theorem answers_sublist (b : Pending) (cs : List WriteCall) :
    ((b.answers cs).1.flatten ++ (b.answers cs).2.bytes).Sublist (b.bytes ++ copiedBytes cs) := by
  induction cs generalizing b with
  | nil =>
    rw [copiedBytes, List.filter_nil, List.flatMap_nil, List.append_nil]
    exact List.Sublist.refl b.bytes
  | cons c cs ih =>
    have hfirst := answer_sublist b c
    have hrest := ih (b.answer c).2
    rw [Pending.answers, List.flatten_cons, copiedBytes_cons, List.append_assoc]
    refine ((List.Sublist.refl (b.answer c).1).append hrest).trans ?_
    rw [← List.append_assoc, ← List.append_assoc]
    exact hfirst.append (List.Sublist.refl (copiedBytes cs))

/-- What is shown of the lines handed over is a part of them. -/
theorem shown_sublist {ls : List (List Byte)} {t : List Byte} (ht : t ∈ ls.flatMap shownOf) :
    t.Sublist ls.flatten := by
  obtain ⟨l, hl, ht⟩ := List.mem_flatMap.mp ht
  by_cases hnil : l = []
  · rw [shownOf, if_pos hnil] at ht
    exact absurd ht List.not_mem_nil
  · rw [shownOf, if_neg hnil] at ht
    rw [List.mem_singleton.mp ht]
    exact ((List.takeWhile_sublist _).trans (List.dropLast_sublist l)).trans
      (List.sublist_flatten_of_mem hl)

/-- A fill count of zero is an empty line buffer. -/
theorem eq_empty_of_pos {s : Statics} {b : Pending} (h : Holds s b) (hpos : s.pos = 0) :
    b = LineBuffer.empty := by
  have hlen := h.pos
  refine LineBuffer.ext (List.length_eq_zero_iff.mp ?_)
  omega

/-- From a fill count of zero, a sequence of non-empty calls does what a fresh
line buffer does. -/
theorem fresh_meets (kbuf : ℤ → Byte) {hist cont : List WriteCall} (hh : ∀ c ∈ hist, c.buf ≠ [])
    (hpos : (lcdWrites p (Statics.initial kbuf) hist).2.pos = 0) (hc : ∀ c ∈ cont, c.buf ≠ []) :
    RunMeets (lcdWrites p (lcdWrites p (Statics.initial kbuf) hist).2 cont).1
      (lcdWrites p (lcdWrites p (Statics.initial kbuf) hist).2 cont).2
      (Pending.answers LineBuffer.empty cont).1 (Pending.answers LineBuffer.empty cont).2
      (cont.map returned) := by
  have hrun := lcdWrites_meets p (holds_initial kbuf) (allOk_hasByte_of_nonempty p hh)
  have hholds := hrun.holds
  rw [eq_empty_of_pos hholds hpos] at hholds
  exact lcdWrites_meets p hholds (allOk_hasByte_of_nonempty p hc)

/-- **No leftover between lines.** After any two sequences of non-empty calls
on modules just loaded, of any lengths, bytes and copy results, that both end
with the fill count at zero: over a common continuation of non-empty calls –
the same buffers, and each copy succeeding in both or faulting in both – the
two return the same values, pass the same strings to `lcd_send_string` and
send the same commands and data; and what is shown are bytes copied by the
continuation, in its order. -/
theorem no_leftover (kbuf kbuf' : ℤ → Byte) (hist hist' cont cont' : List WriteCall)
    (hh : ∀ c ∈ hist, c.buf ≠ []) (hh' : ∀ c ∈ hist', c.buf ≠ [])
    (hpos : (lcdWrites p (Statics.initial kbuf) hist).2.pos = 0)
    (hpos' : (lcdWrites p (Statics.initial kbuf') hist').2.pos = 0)
    (hc : ∀ c ∈ cont, c.buf ≠ []) (hsame : List.Forall₂ SameCall cont cont') :
    (lcdWrites p (lcdWrites p (Statics.initial kbuf) hist).2 cont).1.map (·.ret)
        = (lcdWrites p (lcdWrites p (Statics.initial kbuf') hist').2 cont').1.map (·.ret)
      ∧ (lcdWrites p (lcdWrites p (Statics.initial kbuf) hist).2 cont).1.flatMap (·.shown)
        = (lcdWrites p (lcdWrites p (Statics.initial kbuf') hist').2 cont').1.flatMap (·.shown)
      ∧ (lcdWrites p (lcdWrites p (Statics.initial kbuf) hist).2 cont).1.flatMap (·.calls)
        = (lcdWrites p (lcdWrites p (Statics.initial kbuf') hist').2 cont').1.flatMap (·.calls)
      ∧ ∀ t ∈ (lcdWrites p (lcdWrites p (Statics.initial kbuf) hist).2 cont).1.flatMap (·.shown),
        t.Sublist (copiedBytes cont) := by
  have hbufs : cont.map (·.buf) = cont'.map (·.buf) := map_of_same (fun _ _ h => h.1) hsame
  have hc' : ∀ c ∈ cont', c.buf ≠ [] := by
    intro c' hmem
    have hbuf : c'.buf ∈ cont.map (·.buf) := hbufs ▸ List.mem_map_of_mem hmem
    obtain ⟨c, hcmem, heq⟩ := List.mem_map.mp hbuf
    exact heq ▸ hc c hcmem
  have hrun := fresh_meets p kbuf hh hpos hc
  have hrun' := fresh_meets p kbuf' hh' hpos' hc'
  rw [← answers_of_same hsame] at hrun'
  have hrets : cont.map returned = cont'.map returned :=
    map_of_same (fun _ _ h => returned_of_same h) hsame
  refine ⟨?_, ?_, ?_, fun t ht => ?_⟩
  · rw [hrun.rets, hrun'.rets, hrets]
  · rw [hrun.shown, hrun'.shown]
  · rw [hrun.calls, hrun'.calls]
  · rw [hrun.shown] at ht
    have hsub := answers_sublist LineBuffer.empty cont
    exact (shown_sublist ht).trans ((List.sublist_append_left _ _).trans hsub)

/-- A write whose copy faults after its first byte. -/
def faultCall : WriteCall := ⟨[0x41, 0x42], .fault [0x41], by decide⟩

/-- After a displayed line and after a fault alike. -/
theorem no_leftover_secondLine :
    (lcdWrites () (lcdWrites () (Statics.initial fun _ => 0) [firstLine]).2 [secondLine]).1.map
        (·.ret)
      = (lcdWrites () (lcdWrites () (Statics.initial fun _ => 1) [shortCall, faultCall]).2
          [secondLine]).1.map (·.ret) :=
  (no_leftover () (fun _ => 0) (fun _ => 1) [firstLine] [shortCall, faultCall] [secondLine]
    [secondLine] (by simp [firstLine]) (by simp [shortCall, faultCall]) (by decide) (by decide)
    (by simp [secondLine]) (List.Forall₂.cons ⟨rfl, Iff.rfl⟩ List.Forall₂.nil)).1

/-! ## Side by side -/

section SideBySide

variable {K : Type} [DecidableEq K]

/-- The bytes a client hands over in a sequence of calls. -/
def bytesOf (k : K) (es : List (K × WriteCall)) : List Byte :=
  (es.filter (·.1 = k)).flatMap (·.2.buf)

/-- **An interleaving of the clients' calls**: the calls of each, in its own
order, are those its lines are cut into. -/
def Interleaves (subs : K → List Submission) (es : List (K × WriteCall)) : Prop :=
  ∀ k, (es.filter (·.1 = k)).map (·.2) = (subs k).flatMap (·.calls)

/-- **Lines unmixed**: what the calls display are the lines of the clients, each
once and those of each client in its own order; the bytes taken off the buffer
are the whole line and its newline, the string passed on is the line up to its
first NUL. -/
def Unmixed (subs : K → List Submission) (os : List Outcome) : Prop :=
  ∃ order : List (K × Submission), (∀ k, (order.filter (·.1 = k)).map (·.2) = subs k)
    ∧ (os.map (·.line)).filter (· ≠ []) = order.map (fun e => e.2.line ++ [newline])
    ∧ os.flatMap (·.shown) = order.map (·.2.shown)

/-- The client whose line is half submitted after a call, if the call does not
end one. -/
def halfSubmitted (e : K × WriteCall) : Option K :=
  if e.2.buf.getLast? = some newline then none else some e.1

/-- **The clients take turns**: no call comes while a line of another client is
half submitted. -/
def TakeTurns : Option K → List (K × WriteCall) → Prop
  | _, [] => True
  | half, e :: es => (∀ k, half = some k → k = e.1) ∧ TakeTurns (halfSubmitted e) es

theorem bytesOf_cons_self (k : K) (c : WriteCall) (es : List (K × WriteCall)) :
    bytesOf k ((k, c) :: es) = c.buf ++ bytesOf k es := by
  rw [bytesOf, List.filter_cons_of_pos (by simp), List.flatMap_cons]
  rfl

theorem bytesOf_cons_of_ne {k k' : K} (h : k ≠ k') (c : WriteCall) (es : List (K × WriteCall)) :
    bytesOf k' ((k, c) :: es) = bytesOf k' es := by
  rw [bytesOf, List.filter_cons_of_neg (by simpa using h)]
  rfl

/-- A piece of a stream without a newline is no longer than its first line. -/
theorem length_le_of_append_cons {q rest l rest' : List Byte} (hq : newline ∉ q)
    (h : q ++ rest = l ++ newline :: rest') : q.length ≤ l.length := by
  rcases List.append_eq_append_iff.mp h with ⟨as, rfl, -⟩ | ⟨bs, rfl, hbs⟩
  · rw [List.length_append]
    omega
  · cases bs with
    | nil => rw [List.append_nil]
    | cons b bs =>
      obtain ⟨rfl, -⟩ := List.cons.inj hbs
      exact absurd (List.mem_append_right l List.mem_cons_self) hq

/-- A stream's first line and its rest. -/
theorem append_cons_newline_inj {l l' rest rest' : List Byte} (hl : newline ∉ l)
    (hl' : newline ∉ l') (h : l ++ newline :: rest = l' ++ newline :: rest') :
    l = l' ∧ rest = rest' := by
  have hlen : l.length = l'.length :=
    le_antisymm (length_le_of_append_cons hl h) (length_le_of_append_cons hl' h.symm)
  obtain ⟨hfst, hsnd⟩ := List.append_inj h hlen
  exact ⟨hfst, (List.cons.inj hsnd).2⟩

/-- The bytes of a list of lines. -/
def stream (js : List Submission) : List Byte := js.flatMap (fun j => j.line ++ [newline])

theorem stream_cons (j : Submission) (js : List Submission) :
    stream (j :: js) = j.line ++ newline :: stream js := by
  rw [stream, List.flatMap_cons, List.append_assoc]
  rfl

/-- A stream that does not end with a newline has no lines. -/
theorem eq_nil_of_stream {js : List Submission} (h : (stream js).getLast? ≠ some newline) :
    js = [] := by
  rcases List.eq_nil_or_concat js with rfl | ⟨js, j, rfl⟩
  · rfl
  · refine absurd ?_ h
    rw [stream, List.concat_eq_append, List.flatMap_append, List.flatMap_singleton,
      ← List.append_assoc, List.getLast?_concat]

/-- A write that goes on with a line is appended. -/
theorem put_piece {b : Pending} (hb : newline ∉ b.bytes) {buf rest rest' : List Byte}
    (hbuf : newline ∉ buf) (j : Submission)
    (h : b.bytes ++ (buf ++ rest) = j.line ++ newline :: rest') :
    (b.put buf).1 = [] ∧ (b.put buf).2.bytes = b.bytes ++ buf := by
  have hmem : newline ∉ b.bytes ++ buf := fun hm => (List.mem_append.mp hm).elim hb hbuf
  rw [← List.append_assoc] at h
  have hlen := (length_le_of_append_cons hmem h).trans j.length_le
  have hroom : b.room = 33 - b.bytes.length := rfl
  rw [List.length_append] at hlen
  exact LineBuffer.put_of_not_mem (by omega) hmem

/-- A write that ends it hands it over. -/
theorem put_end {b : Pending} (hb : newline ∉ b.bytes) {t rest rest' : List Byte}
    (ht : newline ∉ t) (j : Submission)
    (h : b.bytes ++ ((t ++ [newline]) ++ rest) = j.line ++ newline :: rest') :
    b.put (t ++ [newline]) = (j.line ++ [newline], LineBuffer.empty) ∧ rest = rest' := by
  have hmem : newline ∉ b.bytes ++ t := fun hm => (List.mem_append.mp hm).elim hb ht
  rw [List.append_assoc, ← List.append_assoc] at h
  obtain ⟨hline, hrest⟩ := append_cons_newline_inj hmem j.newline_not_mem h
  have hlen := congrArg List.length hline
  have hle := j.length_le
  have hroom : b.room = 33 - b.bytes.length := rfl
  rw [List.length_append] at hlen
  refine ⟨?_, hrest⟩
  rw [LineBuffer.put_concat (by rw [List.length_append, List.length_singleton]; omega), hline]

/-- **Between two calls** of clients that take turns: the buffer holds what one
client has half submitted, and nothing where nobody has, and with it the bytes
of the calls to come are, for each client, the lines it is still to have
displayed. -/
structure Between (half : Option K) (b : Pending) (es : List (K × WriteCall))
    (todo : K → List Submission) : Prop where
  unended : newline ∉ b.bytes
  idle : half = none → b.bytes = []
  bytes : ∀ k, (if half = some k then b.bytes else []) ++ bytesOf k es = stream (todo k)

section Call

variable {half : Option K} {b : Pending} {k : K} {c : WriteCall} {es : List (K × WriteCall)}
  {todo : K → List Submission}

/-- What is in the buffer at a call is the calling client's own. -/
theorem Between.own (h : Between half b ((k, c) :: es) todo)
    (hturn : ∀ k', half = some k' → k' = k) :
    b.bytes ++ (c.buf ++ bytesOf k es) = stream (todo k) := by
  have hheld : (if half = some k then b.bytes else []) = b.bytes := by
    cases hhalf : half with
    | none => rw [h.idle hhalf, ite_self]
    | some k' => rw [hturn k' hhalf, if_pos rfl]
  have hbytes := h.bytes k
  rwa [hheld, bytesOf_cons_self] at hbytes

/-- The others are where they were. -/
theorem Between.others (h : Between half b ((k, c) :: es) todo)
    (hturn : ∀ k', half = some k' → k' = k) {k' : K} (hk : k ≠ k') :
    bytesOf k' es = stream (todo k') := by
  have hhalf : half ≠ some k' := fun hk' => hk (hturn k' hk').symm
  have hbytes := h.bytes k'
  rwa [if_neg hhalf, bytesOf_cons_of_ne hk, List.nil_append] at hbytes

/-- A client that calls with something has a line to be displayed. -/
theorem Between.exists_cons (h : Between half b ((k, c) :: es) todo)
    (hturn : ∀ k', half = some k' → k' = k) (hne : c.buf ≠ []) :
    ∃ j js, todo k = j :: js := by
  cases htodo : todo k with
  | nil =>
    have hown := h.own hturn
    rw [htodo] at hown
    exact absurd (List.append_eq_nil_iff.mp (List.append_eq_nil_iff.mp hown).2).1 hne
  | cons j js => exact ⟨j, js, rfl⟩

/-- **A call that goes on with a line** hands nothing over. -/
theorem Between.goesOn (h : Between half b ((k, c) :: es) todo)
    (hturn : ∀ k', half = some k' → k' = k) (hc : newline ∉ c.buf) {j : Submission}
    {js : List Submission} (htodo : todo k = j :: js) :
    (b.put c.buf).1 = [] ∧ Between (some k) (b.put c.buf).2 es todo := by
  have hown := h.own hturn
  rw [htodo, stream_cons] at hown
  obtain ⟨hput, hbytes⟩ := put_piece h.unended hc j hown
  refine ⟨hput, ?_, fun hnone => absurd hnone (Option.some_ne_none k), fun k' => ?_⟩
  · rw [hbytes]
    exact fun hm => (List.mem_append.mp hm).elim h.unended hc
  · by_cases hk : k = k'
    · subst hk
      rw [if_pos rfl, hbytes, List.append_assoc, hown, htodo, stream_cons]
    · rw [if_neg (by simpa using hk), List.nil_append, h.others hturn hk]

/-- **A call that ends a line** hands it over, and the next call may be
anybody's. -/
theorem Between.ends (h : Between half b ((k, c) :: es) todo)
    (hturn : ∀ k', half = some k' → k' = k) {t : List Byte} (ht : newline ∉ t)
    (hc : c.buf = t ++ [newline]) {j : Submission} {js : List Submission}
    (htodo : todo k = j :: js) :
    b.put c.buf = (j.line ++ [newline], LineBuffer.empty)
      ∧ Between none LineBuffer.empty es (Function.update todo k js) := by
  have hown := h.own hturn
  rw [htodo, stream_cons, hc] at hown
  obtain ⟨hput, htail⟩ := put_end h.unended ht j hown
  refine ⟨hc ▸ hput, List.not_mem_nil, fun _ => rfl, fun k' => ?_⟩
  rw [if_neg (Option.some_ne_none k').symm, List.nil_append]
  by_cases hk : k = k'
  · subst hk
    rw [Function.update_self, htail]
  · rw [Function.update_of_ne (Ne.symm hk), h.others hturn hk]

/-- Nothing comes after the last call. -/
theorem Between.done (h : Between half b [] todo) (k : K) : todo k = [] := by
  refine eq_nil_of_stream ?_
  rw [← h.bytes k, show bytesOf k ([] : List (K × WriteCall)) = [] from rfl, List.append_nil]
  split
  · exact b.getLast?_ne
  · simp

end Call

/-- A line put in front of an order of the lines after it. -/
theorem order_cons {order : List (K × Submission)} {todo : K → List Submission} {k : K}
    {j : Submission} {js : List Submission} (htodo : todo k = j :: js)
    (h : ∀ k', (order.filter (·.1 = k')).map (·.2) = Function.update todo k js k') (k' : K) :
    (((k, j) :: order).filter (·.1 = k')).map (·.2) = todo k' := by
  by_cases hk : k = k'
  · subst hk
    rw [List.filter_cons_of_pos (by simp), List.map_cons, h, Function.update_self, htodo]
  · rw [List.filter_cons_of_neg (by simpa using hk), h, Function.update_of_ne (Ne.symm hk)]

/-- **Turns keep the lines apart.** The line buffer hands over the lines the
clients' bytes are still to be read as. -/
theorem lines_of_turns {half : Option K} {b : Pending} {todo : K → List Submission}
    {es : List (K × WriteCall)} (h : Between half b es todo) (hne : ∀ e ∈ es, e.2.buf ≠ [])
    (hnl : ∀ e ∈ es, newline ∉ e.2.buf.dropLast) (hturns : TakeTurns half es) :
    ∃ order : List (K × Submission), (∀ k, (order.filter (·.1 = k)).map (·.2) = todo k)
      ∧ b.lines (es.map (·.2.buf)) = order.map (fun e => e.2.line ++ [newline]) := by
  induction es generalizing b half todo with
  | nil => exact ⟨[], fun k => (h.done k).symm, rfl⟩
  | cons e es ih =>
    obtain ⟨k, c⟩ := e
    obtain ⟨hturn, hturns⟩ := hturns
    have hne' : ∀ e ∈ es, e.2.buf ≠ [] := fun e he => hne e (List.mem_cons_of_mem _ he)
    have hnl' : ∀ e ∈ es, newline ∉ e.2.buf.dropLast :=
      fun e he => hnl e (List.mem_cons_of_mem _ he)
    obtain ⟨j, js, htodo⟩ := h.exists_cons hturn (hne (k, c) List.mem_cons_self)
    rcases LineBuffer.mem_or_eq_concat (hnl (k, c) List.mem_cons_self) with hc | ⟨t, ht, hc⟩
    · obtain ⟨hput, hnext⟩ := h.goesOn hturn hc htodo
      have hhalf : halfSubmitted (k, c) = some k :=
        if_neg (fun hlast => hc (List.mem_of_getLast? hlast))
      rw [hhalf] at hturns
      rw [List.map_cons, LineBuffer.lines_cons_of_nil hput]
      exact ih hnext hne' hnl' hturns
    · obtain ⟨hput, hnext⟩ := h.ends hturn ht hc htodo
      have hhalf : halfSubmitted (k, c) = none :=
        if_pos (by rw [show (k, c).2.buf = _ from hc, List.getLast?_concat])
      rw [hhalf] at hturns
      obtain ⟨order, horder, hlines⟩ := ih hnext hne' hnl' hturns
      refine ⟨(k, j) :: order, order_cons htodo horder, ?_⟩
      rw [List.map_cons, List.map_cons, LineBuffer.lines_cons_of_ne_nil (by rw [hput]; simp), hput,
        hlines]

/-- A call of an interleaving belongs to a line. -/
theorem mem_of_interleaves {subs : K → List Submission} {es : List (K × WriteCall)}
    (h : Interleaves subs es) : ∀ e ∈ es, ∃ j ∈ subs e.1, e.2 ∈ j.calls := by
  intro e he
  have hmem : e.2 ∈ (es.filter (·.1 = e.1)).map (·.2) :=
    List.mem_map_of_mem (List.mem_filter.mpr ⟨he, by simp⟩)
  exact List.mem_flatMap.mp (h e.1 ▸ hmem)

/-- The bytes of a client are those of its lines. -/
theorem bytesOf_of_interleaves {subs : K → List Submission} {es : List (K × WriteCall)}
    (h : Interleaves subs es) (k : K) : bytesOf k es = stream (subs k) := by
  have hbytes : bytesOf k es = ((es.filter (·.1 = k)).map (·.2)).flatMap (·.buf) := by
    rw [List.flatMap_map]
    rfl
  rw [hbytes, h k, List.flatMap_assoc]
  exact List.flatMap_congr (fun j _ => j.cut)

/-- The lines displayed are lines of the clients. -/
theorem mem_of_order {subs : K → List Submission} {order : List (K × Submission)}
    (h : ∀ k, (order.filter (·.1 = k)).map (·.2) = subs k) : ∀ e ∈ order, e.2 ∈ subs e.1 := by
  intro e he
  rw [← h e.1]
  exact List.mem_map_of_mem (List.mem_filter.mpr ⟨he, by simp⟩)

/-- **Clients that take turns are not mixed.** Of any clients, each with its
own sequence of lines of at most 32 bytes, each line cut into non-empty writes
in any way: over every interleaving of their calls in which none comes while a
line of another client is half submitted, every string passed to
`lcd_send_string` is one line of one client, and the lines of each are
displayed each once and in order. -/
theorem clients_apart (kbuf : ℤ → Byte) (subs : K → List Submission) (es : List (K × WriteCall))
    (hes : Interleaves subs es) (hturns : TakeTurns none es) :
    Unmixed subs (lcdWrites p (Statics.initial kbuf) (es.map (·.2))).1 := by
  have hof : ∀ {Q : WriteCall → Prop}, (∀ j : Submission, ∀ c ∈ j.calls, Q c) →
      ∀ e ∈ es, Q e.2 := by
    intro Q hQ e he
    obtain ⟨j, -, hj⟩ := mem_of_interleaves hes e he
    exact hQ j e.2 hj
  have hne := hof (fun j => j.nonempty)
  have hmap : ∀ {Q : WriteCall → Prop}, (∀ e ∈ es, Q e.2) → ∀ c ∈ es.map (·.2), Q c := by
    intro Q hQ c hc
    obtain ⟨e, he, rfl⟩ := List.mem_map.mp hc
    exact hQ e he
  have hrun := lcdWrites_meets p (holds_initial kbuf) (allOk_hasByte_of_nonempty p (hmap hne))
  rw [answers_of_all (hmap (hof (fun j => j.copied))), List.map_map] at hrun
  have hstart : Between none LineBuffer.empty es subs :=
    ⟨List.not_mem_nil, fun _ => rfl, fun k => by
      rw [if_neg (by simp), List.nil_append, bytesOf_of_interleaves hes k]⟩
  obtain ⟨order, horder, hlines⟩ :=
    lines_of_turns hstart hne (hof (fun j => j.newline_not_mem_dropLast)) hturns
  refine ⟨order, horder, ?_, ?_⟩
  · rw [hrun.lines]
    exact hlines
  · rw [hrun.shown, flatMap_shownOf]
    refine (congrArg (List.map lineText) hlines).trans ?_
    rw [List.map_map]
    refine List.map_congr_left (fun e _ => ?_)
    show lineText (e.2.line ++ [newline]) = _
    rw [lineText, List.dropLast_concat]
    rfl

end SideBySide

/-- The letter a as a line, in two writes. -/
def lineA : Submission where
  line := [0x61]
  calls := [⟨[0x61], .all, by decide⟩, newlineCall]
  length_le := by decide
  newline_not_mem := by decide
  nonempty := by simp [newlineCall]
  copied := by simp [newlineCall]
  cut := rfl

/-- The letter b as a line, in one write. -/
def lineB : Submission where
  line := [0x62]
  calls := [secondLine]
  length_le := by decide
  newline_not_mem := by decide
  nonempty := by simp [secondLine]
  copied := by simp [secondLine]
  cut := rfl

/-- The one client's lines, and the other's. -/
def twoClients : Bool → List Submission
  | false => [lineA]
  | true => [lineB]

theorem clients_apart_turns :
    Unmixed twoClients (lcdWrites () (Statics.initial fun _ => 0)
      ([(true, secondLine), (false, ⟨[0x61], .all, by decide⟩), (false, newlineCall)].map
        (·.2))).1 :=
  clients_apart () (fun _ => 0) twoClients _ (by intro k; cases k <;> rfl)
    ⟨by simp, by simp [halfSubmitted, secondLine], by simp [halfSubmitted], trivial⟩

/-- **Not for every interleaving**: the one client's line between the other's
letter and its newline is displayed with that letter in front of it. -/
theorem not_forall_clients_apart :
    ¬ ∀ (kbuf : ℤ → Byte) (subs : Bool → List Submission) (es : List (Bool × WriteCall)),
        Interleaves subs es →
        Unmixed subs (lcdWrites () (Statics.initial kbuf) (es.map (·.2))).1 := by
  intro h
  obtain ⟨order, horder, -, hshown⟩ := h (fun _ => 0) twoClients
    [(false, ⟨[0x61], .all, by decide⟩), (true, secondLine), (false, newlineCall)]
    (by intro k; cases k <;> rfl)
  have hab : [0x61, 0x62] ∈ order.map (·.2.shown) := hshown ▸ List.mem_cons_self
  obtain ⟨⟨k, j⟩, he, hj⟩ := List.mem_map.mp hab
  have hmem : j ∈ twoClients k := mem_of_order horder (k, j) he
  cases k with
  | false =>
    obtain rfl : j = lineA := List.mem_singleton.mp hmem
    exact absurd hj (by decide)
  | true =>
    obtain rfl : j = lineB := List.mem_singleton.mp hmem
    exact absurd hj (by decide)

end Lcd
