import CellFormula.Bytes.Cursor
import CellFormula.Number.Binary64
import CellFormula.Proofs.Digits
import Mathlib.Data.Nat.Digits.Defs

/-!
# Runs of a cursor

A cursor is asked for one thing after another, and what it is asked next is asked from where the
last answer left it, a failure included. Whatever it is asked, it stays inside its buffer, and the
bytes that it gives away are the buffer from its start on, piece by piece.

## One step

Every request but the look ahead takes a number of bytes and makes something of them
(`Request.read_eq`). So there is one case distinction for all of them: the bytes are there, and the
cursor moves behind them, or they are not, and it stays. `Request.sound_event` says this with places
in the buffer, and nothing behind it looks at a read again.

## What is deliberately absent

Nothing is said of who asks. The requests are any list, they may go on after a failure, and no
request depends on an answer: a reader that looks at answers makes one of these runs.

## Main definitions

* `Cursor.Request`, `Cursor.Answer`, `Cursor.Request.read` — what a cursor is asked for and gives
* `Cursor.Event`, `Cursor.run`, `Cursor.reached` — a run, and where it ends
* `Cursor.Request.Tells` — the answer that bytes are
* `Cursor.Event.Sound`, `Cursor.Path` — what holds of one step, and of steps that follow each other

## Main results

* `Cursor.Request.sound_event` — one step
* `Cursor.Path.pieces` — the pieces of all steps together
* `Cursor.runs_stay_in_buffer` — all runs
-/

namespace CellFormula

/-- The number that bytes spell in base 256, the lowest digit first. -/
theorem littleEndian_eq_ofDigits (bytes : List UInt8) :
    littleEndian bytes = Nat.ofDigits 256 (bytes.map UInt8.toNat) := by
  induction bytes with
  | nil => rfl
  | cons b bytes ih =>
    rw [List.map_cons, Nat.ofDigits_cons, ← ih]
    rfl

namespace Cursor

/-! ### Requests -/

/-- What a cursor can be asked for. -/
inductive Request
  | byte
  | word
  | quad
  | double
  | bytes (count : Nat)
  | skip (count : Nat)
  /-- The next byte, which stays unread. -/
  | peek
deriving DecidableEq, Repr

/-- What a cursor gives. -/
inductive Answer
  | byte (b : UInt8)
  | word (w : UInt16)
  | quad (q : UInt64)
  | double (x : Binary64)
  | bytes (taken : List UInt8)
  | skipped
  | ahead (next : Option UInt8)
deriving DecidableEq, Repr

namespace Request

/-- How many bytes are asked for. -/
def size : Request → Nat
  | byte => 1
  | word => 2
  | quad | double => 8
  | bytes count | skip count => count
  | peek => 0

/-- The request as a read. -/
def read : Request → Reads ShortRead Answer
  | byte => do return .byte (← Cursor.byte)
  | word => do return .word (← Cursor.word)
  | quad => do return .quad (← Cursor.quad)
  | double => do return .double ⟨← Cursor.quad⟩
  | bytes count => do return .bytes (← take count)
  | skip count => do
    Cursor.skip count
    return .skipped
  | peek => do return .ahead (← get).peek?

/-- The answer to the request when these bytes are ahead. -/
def answer (r : Request) (rest : List UInt8) : Answer :=
  match r with
  | byte => .byte (littleEndian (rest.take 1)).toUInt8
  | word => .word (littleEndian (rest.take 2)).toUInt16
  | quad => .quad (quadOf (rest.take 8))
  | double => .double ⟨quadOf (rest.take 8)⟩
  | bytes count => .bytes (rest.take count)
  | skip _ => .skipped
  | peek => .ahead rest.head?

/-- The answer that a piece of a buffer is to a request, with a byte behind it or none. A number is
the one that the bytes of the piece spell, the low one first. -/
inductive Tells (piece : List UInt8) (next : Option UInt8) : Request → Answer → Prop
  | byte (b : UInt8) (h : b.toNat = Nat.ofDigits 256 (piece.map UInt8.toNat)) :
    Tells piece next .byte (.byte b)
  | word (w : UInt16) (h : w.toNat = Nat.ofDigits 256 (piece.map UInt8.toNat)) :
    Tells piece next .word (.word w)
  | quad (q : UInt64) (h : q.toNat = Nat.ofDigits 256 (piece.map UInt8.toNat)) :
    Tells piece next .quad (.quad q)
  | double (x : Binary64) (h : x.bits.toNat = Nat.ofDigits 256 (piece.map UInt8.toNat)) :
    Tells piece next .double (.double x)
  | bytes (count : Nat) : Tells piece next (.bytes count) (.bytes piece)
  | skip (count : Nat) : Tells piece next (.skip count) .skipped
  | peek : Tells piece next .peek (.ahead next)

end Request

/-! ### What a request does -/

variable {α β : Type} {bytes : List UInt8} {c c' : Cursor}

/-- The cursor behind the next bytes. -/
def advanced (c : Cursor) (n : Nat) : Cursor := ⟨c.position + n, c.rest.drop n⟩

/-- The read takes so many bytes, and makes this of what is ahead, or it stays and says what is
missing. -/
def Makes (step : Reads ShortRead α) (n : Nat) (make : List UInt8 → α) : Prop :=
  ∀ c : Cursor, step c =
    if n ≤ c.remaining then .ok (make c.rest) (c.advanced n) else .error ⟨n, c.remaining⟩ c

theorem makes_take (n : Nat) : Makes (take n) n (List.take n) := by
  intro c
  rw [take, remaining]
  by_cases h : n ≤ c.rest.length
  · rw [if_pos (hasAtLeast_iff.mpr h), if_pos h]
    rfl
  · rw [if_neg (mt hasAtLeast_iff.mp h), if_neg h]

theorem makes_byte : Makes byte 1 fun rest => (littleEndian (rest.take 1)).toUInt8 := by
  rintro ⟨position, _ | ⟨b, rest⟩⟩
  · rfl
  · have hb : (littleEndian [b]).toUInt8 = b := UInt8.ofNat_toNat
    simp only [byte, remaining, List.length_cons, Nat.le_add_left, if_true, List.take_succ_cons,
      List.take_zero, hb]
    rfl

theorem makes_word : Makes word 2 fun rest => (littleEndian (rest.take 2)).toUInt16 := by
  rintro ⟨position, _ | ⟨low, _ | ⟨high, rest⟩⟩⟩
  · rfl
  · rfl
  · simp only [word, remaining, List.length_cons, Nat.le_add_left, if_true, List.take_succ_cons,
      List.take_zero]
    rfl

/-- What is made of an answer is made of the same bytes. -/
theorem Makes.then_return {step : Reads ShortRead α} {n : Nat} {make : List UInt8 → α}
    (h : Makes step n make) (f : α → β) :
    Makes (do return f (← step)) n fun rest => f (make rest) := by
  intro c
  show EStateM.bind step (fun a => pure (f a)) c = _
  rw [EStateM.bind, h c]
  by_cases hfits : n ≤ c.remaining
  · rw [if_pos hfits, if_pos hfits]
    rfl
  · rw [if_neg hfits, if_neg hfits]

/-- **Every request takes its bytes or stays.** -/
theorem Request.makes_read (r : Request) : Makes r.read r.size r.answer := by
  have hquad : Makes Cursor.quad 8 fun rest => quadOf (rest.take 8) :=
    (makes_take 8).then_return quadOf
  cases r with
  | byte => exact makes_byte.then_return Answer.byte
  | word => exact makes_word.then_return Answer.word
  | quad => exact hquad.then_return Answer.quad
  | double => exact hquad.then_return fun bits => Answer.double ⟨bits⟩
  | bytes count => exact (makes_take count).then_return Answer.bytes
  | skip count =>
    exact ((makes_take count).then_return fun _ => ()).then_return fun _ => Answer.skipped
  | peek => exact fun c => rfl

/-- A number below a power of the base is kept by a word of as many digits. -/
theorem littleEndian_take_lt (rest : List UInt8) (n : Nat) :
    littleEndian (rest.take n) < 256 ^ n :=
  (littleEndian_lt (rest.take n)).trans_le
    (Nat.pow_le_pow_right (by decide) (List.length_take_le n rest))

/-- **The answer is what the bytes say.** -/
theorem Request.tells_answer (r : Request) (rest : List UInt8) :
    r.Tells (rest.take r.size) rest.head? (r.answer rest) := by
  cases r with
  | byte =>
    refine .byte _ ?_
    rw [← littleEndian_eq_ofDigits]
    exact UInt8.toNat_ofNat_of_lt (littleEndian_take_lt rest 1)
  | word =>
    refine .word _ ?_
    rw [← littleEndian_eq_ofDigits]
    exact UInt16.toNat_ofNat_of_lt (littleEndian_take_lt rest 2)
  | quad =>
    refine .quad _ ?_
    rw [← littleEndian_eq_ofDigits]
    exact UInt64.toNat_ofNat_of_lt (littleEndian_take_lt rest 8)
  | double =>
    refine .double _ ?_
    rw [← littleEndian_eq_ofDigits]
    exact UInt64.toNat_ofNat_of_lt (littleEndian_take_lt rest 8)
  | bytes count => exact .bytes count
  | skip count => exact .skip count
  | peek => exact .peek

/-! ### One step in a buffer -/

/-- The cursor stands at a place in the buffer, with the bytes from that place on ahead. -/
structure Within (bytes : List UInt8) (c : Cursor) : Prop where
  total : c.position + c.remaining = bytes.length
  rest_eq : c.rest = bytes.drop c.position

/-- A buffer is opened inside it, at its end if the place lies behind that. -/
theorem within_opened (bytes : List UInt8) (offset : Nat) : (opened bytes offset).Within bytes where
  total := by
    simp only [opened, remaining, List.length_drop]
    omega
  rest_eq := by
    rw [opened]
    obtain h | h := Nat.le_total offset bytes.length
    · rw [Nat.min_eq_left h]
    · rw [Nat.min_eq_right h, List.drop_of_length_le h, List.drop_length]

theorem Within.advanced (h : c.Within bytes) {n : Nat} (hn : n ≤ c.remaining) :
    (c.advanced n).Within bytes where
  total := by
    rw [remaining, Cursor.advanced, List.length_drop, Nat.add_assoc]
    exact (congrArg (c.position + ·) (Nat.add_sub_cancel' hn)).trans h.total
  rest_eq := by rw [Cursor.advanced, h.rest_eq, List.drop_drop]

/-- What happened at one request. -/
structure Event where
  request : Request
  before : Cursor
  outcome : Except ShortRead Answer
  after : Cursor
deriving Repr

/-- The request, asked here. -/
def Request.event (r : Request) (c : Cursor) : Event :=
  match r.read c with
  | .ok answer after => ⟨r, c, .ok answer, after⟩
  | .error short after => ⟨r, c, .error short, after⟩

namespace Event

/-- The bytes between the places before and after. -/
def piece (bytes : List UInt8) (e : Event) : List UInt8 :=
  bytes.extract e.before.position e.after.position

/-- What one request does in a buffer. -/
structure Sound (bytes : List UInt8) (e : Event) : Prop where
  before : e.before.Within bytes
  after : e.after.Within bytes
  forward : e.before.position ≤ e.after.position
  /-- The bytes are there. The cursor moves behind them, and the answer is what they say. -/
  answered : e.request.size ≤ e.before.remaining →
    e.after.position = e.before.position + e.request.size ∧
      ∃ answer, e.outcome = .ok answer ∧
        e.request.Tells (e.piece bytes) bytes[e.before.position]? answer
  /-- They are not. The cursor stays, and what is missing is said. -/
  refused : e.before.remaining < e.request.size →
    e.after = e.before ∧
      e.outcome = .error { needed := e.request.size, remaining := e.before.remaining }

end Event

theorem Request.event_of_le {r : Request} (h : r.size ≤ c.remaining) :
    r.event c = ⟨r, c, .ok (r.answer c.rest), c.advanced r.size⟩ := by
  rw [event, r.makes_read c, if_pos h]

theorem Request.event_of_lt {r : Request} (h : c.remaining < r.size) :
    r.event c = ⟨r, c, .error ⟨r.size, c.remaining⟩, c⟩ := by
  rw [event, r.makes_read c, if_neg (Nat.not_le.mpr h)]

/-- **One request is answered from the buffer**, wherever in it the cursor stands. -/
theorem Request.sound_event (r : Request) (hc : c.Within bytes) : (r.event c).Sound bytes := by
  obtain hshort | hfits := Nat.lt_or_ge c.remaining r.size
  · rw [event_of_lt hshort]
    exact ⟨hc, hc, Nat.le_refl _, fun hfits => absurd hshort (Nat.not_lt.mpr hfits),
      fun _ => ⟨rfl, rfl⟩⟩
  · rw [event_of_le hfits]
    have hpiece : bytes.extract c.position (c.position + r.size) = c.rest.take r.size := by
      rw [List.extract_eq_take_drop, Nat.add_sub_cancel_left, hc.rest_eq]
    have hnext : bytes[c.position]? = c.rest.head? := by rw [hc.rest_eq, List.head?_drop]
    have htells : r.Tells (bytes.extract c.position (c.position + r.size)) bytes[c.position]?
        (r.answer c.rest) := by
      rw [hpiece, hnext]
      exact r.tells_answer c.rest
    exact ⟨hc, hc.advanced hfits, Nat.le_add_right .., fun _ => ⟨rfl, _, rfl, htells⟩,
      fun hshort => absurd hfits (Nat.not_le.mpr hshort)⟩

/-! ### Runs -/

/-- One request after the other, each asked where the one before left the cursor. -/
def run : List Request → Cursor → List Event
  | [], _ => []
  | r :: rs, c => r.event c :: run rs (r.event c).after

/-- The cursor behind all requests. -/
def reached : List Request → Cursor → Cursor
  | [], c => c
  | r :: rs, c => reached rs (r.event c).after

/-- The events follow each other, from one cursor to another. -/
inductive Path : Cursor → List Event → Cursor → Prop
  | nil (c : Cursor) : Path c [] c
  | cons {es : List Event} {c : Cursor} (e : Event) (h : Path e.after es c) :
    Path e.before (e :: es) c

theorem Request.request_event (r : Request) (c : Cursor) : (r.event c).request = r := by
  rw [event]
  split <;> rfl

theorem Request.before_event (r : Request) (c : Cursor) : (r.event c).before = c := by
  rw [event]
  split <;> rfl

theorem map_request_run (rs : List Request) (c : Cursor) :
    (run rs c).map Event.request = rs := by
  induction rs generalizing c with
  | nil => rfl
  | cons r rs ih => rw [run, List.map_cons, ih, r.request_event]

theorem path_run (rs : List Request) (c : Cursor) : Path c (run rs c) (reached rs c) := by
  induction rs generalizing c with
  | nil => exact .nil c
  | cons r rs ih =>
    have h := Path.cons (r.event c) (ih (r.event c).after)
    rwa [r.before_event] at h

/-- **All requests are answered from the buffer**, and the cursor never leaves it. -/
theorem sound_run (rs : List Request) (hc : c.Within bytes) :
    (∀ e ∈ run rs c, e.Sound bytes) ∧ (reached rs c).Within bytes := by
  induction rs generalizing c with
  | nil => exact ⟨List.forall_mem_nil _, hc⟩
  | cons r rs ih =>
    have hr := r.sound_event hc
    obtain ⟨hrs, hreached⟩ := ih hr.after
    exact ⟨List.forall_mem_cons.mpr ⟨hr, hrs⟩, hreached⟩

/-- Two pieces of a list that meet are one. -/
theorem extract_append_extract {a b d : Nat} (hab : a ≤ b) (hbd : b ≤ d) (bytes : List UInt8) :
    bytes.extract a b ++ bytes.extract b d = bytes.extract a d := by
  have hsum : d - a = (b - a) + (d - b) := by omega
  have hplace : a + (b - a) = b := by omega
  rw [List.extract_eq_take_drop, List.extract_eq_take_drop, List.extract_eq_take_drop, hsum,
    List.take_add, List.drop_drop, hplace]

namespace Path

variable {es : List Event}

/-- **The pieces of all steps are the buffer** from where the path begins to where it ends. -/
theorem pieces (h : Path c es c') (hes : ∀ e ∈ es, e.Sound bytes) :
    c.position ≤ c'.position ∧
      (es.map (Event.piece bytes)).flatten = bytes.extract c.position c'.position := by
  induction h with
  | nil c => exact ⟨Nat.le_refl _, by simp⟩
  | cons e h ih =>
    obtain ⟨he, hes⟩ := List.forall_mem_cons.mp hes
    obtain ⟨hle, hpieces⟩ := ih hes
    refine ⟨he.forward.trans hle, ?_⟩
    rw [List.map_cons, List.flatten_cons, hpieces, Event.piece,
      extract_append_extract he.forward hle]

/-- No place on a path lies before its beginning. -/
theorem position_le_before (h : Path c es c') (hes : ∀ e ∈ es, e.Sound bytes) :
    ∀ e ∈ es, c.position ≤ e.before.position := by
  induction h with
  | nil c => exact List.forall_mem_nil _
  | cons e h ih =>
    obtain ⟨he, hes⟩ := List.forall_mem_cons.mp hes
    exact List.forall_mem_cons.mpr
      ⟨Nat.le_refl _, fun e' he' => he.forward.trans (ih hes e' he')⟩

/-- No step begins before an earlier one ends. -/
theorem pairwise (h : Path c es c') (hes : ∀ e ∈ es, e.Sound bytes) :
    es.Pairwise fun e e' => e.after.position ≤ e'.before.position := by
  induction h with
  | nil c => exact .nil
  | cons e h ih =>
    obtain ⟨-, hes⟩ := List.forall_mem_cons.mp hes
    exact .cons (h.position_le_before hes) (ih hes)

end Path

/-- **A cursor stays in its buffer and gives it away piece by piece.** Let a buffer be opened
anywhere, and be asked for anything, failures and all. The cursor begins at the place, or at the end
of the buffer if that comes first. It is always at a place in the buffer, with all that lies behind
the place left to read, and it never goes back. A request whose bytes are there is answered with
what they say, and any other fails, says how many it needs and how many there are, and leaves the
cursor where it is. Each request is asked where the one before ended, their pieces do not overlap,
and put together they are the buffer between the first place and the last. -/
theorem runs_stay_in_buffer (bytes : List UInt8) (offset : Nat) (requests : List Request) :
    let start := opened bytes offset
    let events := run requests start
    let final := reached requests start
    start.position = min offset bytes.length ∧
      events.map Event.request = requests ∧
      (∀ e ∈ events, e.Sound bytes) ∧ final.Within bytes ∧
      Path start events final ∧
      events.Pairwise (fun e e' => e.after.position ≤ e'.before.position) ∧
      start.position ≤ final.position ∧
      (events.map (Event.piece bytes)).flatten
        = bytes.extract start.position final.position := by
  intro start events final
  have hpath : Path start events final := path_run requests start
  obtain ⟨hsound, hfinal⟩ := sound_run requests (within_opened bytes offset)
  obtain ⟨hforward, hpieces⟩ := hpath.pieces hsound
  exact ⟨rfl, map_request_run requests start, hsound, hfinal, hpath, hpath.pairwise hsound,
    hforward, hpieces⟩

/-- A word, then a longer one that is not all there, then a look at the byte that stayed. -/
example : (run [.word, .quad, .peek, .skip 1, .byte] (opened [0xAA, 0x34, 0x12, 0xBB] 1)).map
    (fun e => (e.outcome, e.after.position))
      = [(.ok (.word 0x1234), 3), (.error ⟨8, 1⟩, 3), (.ok (.ahead (some 0xBB)), 3),
        (.ok .skipped, 4), (.error ⟨1, 0⟩, 4)] := rfl

end Cursor

end CellFormula
