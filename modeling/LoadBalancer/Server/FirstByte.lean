import Mathlib.Data.Nat.Bitwise
import Mathlib.Tactic.Ring
import LoadBalancer.Lib.Poll

/-!
# The deadline of an HTTP/2 first flight

`FirstByteDeadline` wraps the stream of a connection.  Its timer runs until the client has sent the
connection preface and its first frame whole; how long that frame is stands in the frame's header,
which the reads may cut anywhere.

The wrapper keeps the first 33 bytes and counts all of them.  Its state is therefore a function of
the bytes it has passed on, as long as the timer runs, and that is the invariant: `Follows`.

The count is a `usize` and a natural number here: while the timer runs it is below 33 + 2²⁴, and a
read adds less than 2⁶³.
-/

namespace LoadBalancer.Server

open List

def prefaceLen : ℕ := 24

def frameHeaderLen : ℕ := 9

def headLen : ℕ := prefaceLen + frameHeaderLen

/-- The wrapper without its stream.  `timer` is when the deadline is, if it is armed. -/
structure FirstByteDeadline where
  timer : Option ℕ
  fired : Bool
  head : List UInt8
  read : ℕ
  needed : Option ℕ

/-- What a read fails with: the deadline, or what the stream fails with. -/
inductive ReadError (ε : Type*)
  | timedOut (message : String)
  | inner (error : ε)

/-- A poll of the wrapper: when, with what in the buffer, and what the stream would answer. -/
structure TimedRead (ε : Type*) where
  now : ℕ
  buf : List UInt8
  answer : Poll (Except ε (List UInt8))

namespace FirstByteDeadline

def new (now within : ℕ) : FirstByteDeadline := ⟨some (now + within), false, [], 0, none⟩

def observe (d : FirstByteDeadline) (new : List UInt8) : FirstByteDeadline :=
  let read := d.read + new.length
  let head :=
    if d.head.length < headLen then
      d.head ++ new.take (min (headLen - d.head.length) new.length)
    else d.head
  let byte (i : ℕ) : ℕ := (head.getD i 0).toNat
  let needed :=
    if d.needed.isNone && head.length = headLen then
      let length := byte prefaceLen <<< 16 ||| byte (prefaceLen + 1) <<< 8 ||| byte (prefaceLen + 2)
      some (headLen + length)
    else d.needed
  { d with
    read, head, needed
    timer := if needed.any fun needed => needed ≤ read then none else d.timer }

/-- `poll_read` of the stream: the buffer and the answer. -/
def innerPollRead {ε : Type*} (buf : List UInt8) :
    Poll (Except ε (List UInt8)) → List UInt8 × Poll (Except (ReadError ε) Unit)
  | .pending => (buf, .pending)
  | .ready (.error error) => (buf, .ready (.error (.inner error)))
  | .ready (.ok bytes) => (buf ++ bytes, .ready (.ok ()))

def isOk {ε : Type*} : Poll (Except ε Unit) → Bool
  | .ready (.ok ()) => true
  | _ => false

/-- `poll_read`: what becomes of the wrapper, the buffer and the answer. -/
def pollRead {ε : Type*} (d : FirstByteDeadline) (r : TimedRead ε) :
    FirstByteDeadline × List UInt8 × Poll (Except (ReadError ε) Unit) :=
  if d.timer.any fun deadline => deadline ≤ r.now then
    ({ d with fired := true }, r.buf, .ready (.error (.timedOut
      "HTTP/2 preface and SETTINGS not received before the deadline")))
  else
    let before := r.buf.length
    let (buf, polled) := innerPollRead r.buf r.answer
    let d := if isOk polled && d.timer.isSome then d.observe (buf.drop before) else d
    (d, buf, polled)

/-- A list of polls: what becomes of the wrapper, and the bytes that were added to the buffers. -/
def run {ε : Type*} : FirstByteDeadline → List (TimedRead ε) → FirstByteDeadline × List UInt8
  | d, [] => (d, [])
  | d, r :: rest =>
    let (d, buf, _) := d.pollRead r
    let (d, bytes) := d.run rest
    (d, buf.drop r.buf.length ++ bytes)

/-! ## The first flight of a byte stream -/

/-- The number in the bytes 25 to 27. -/
def frameLength (bytes : List UInt8) : ℕ :=
  (bytes.getD 24 0).toNat * 2 ^ 16 + (bytes.getD 25 0).toNat * 2 ^ 8 + (bytes.getD 26 0).toNat

/-- How many bytes the preface and the first frame have. -/
def firstFlight (bytes : List UInt8) : ℕ := 33 + frameLength bytes

lemma shiftLeft_or_eq (a b c : UInt8) :
    a.toNat <<< 16 ||| b.toNat <<< 8 ||| c.toNat =
      a.toNat * 2 ^ 16 + b.toNat * 2 ^ 8 + c.toNat := by
  have hb : b.toNat <<< 8 < 2 ^ 16 := by
    have := b.toNat_lt
    rw [Nat.shiftLeft_eq]
    omega
  have hs : a.toNat <<< 16 ||| b.toNat <<< 8 = (a.toNat * 2 ^ 8 + b.toNat) <<< 8 := by
    rw [← Nat.shiftLeft_add_eq_or_of_lt hb, Nat.shiftLeft_eq, Nat.shiftLeft_eq, Nat.shiftLeft_eq]
    ring
  rw [hs, ← Nat.shiftLeft_add_eq_or_of_lt c.toNat_lt, Nat.shiftLeft_eq]
  ring

lemma firstFlight_append {bytes : List UInt8} (h : 33 ≤ bytes.length) (more : List UInt8) :
    firstFlight (bytes ++ more) = firstFlight bytes := by
  have hg : ∀ i < 33, (bytes ++ more).getD i 0 = bytes.getD i 0 := fun i hi =>
    getD_append _ _ _ _ (by omega)
  simp only [firstFlight, frameLength, hg 24 (by omega), hg 25 (by omega), hg 26 (by omega)]

lemma firstFlight_take (bytes : List UInt8) : firstFlight (bytes.take 33) = firstFlight bytes := by
  simp [firstFlight, frameLength, getD_eq_getElem?_getD]

/-- The wrapper has passed on `bytes`: with the first flight among them its timer is gone, and
before that its fields say which bytes they were. -/
def Follows (bytes : List UInt8) (d : FirstByteDeadline) : Prop :=
  if firstFlight bytes ≤ bytes.length then d.timer = none
  else d.timer.isSome ∧ d.read = bytes.length ∧ d.head = bytes.take 33 ∧
    d.needed = if 33 ≤ bytes.length then some (firstFlight bytes) else none

variable {bytes : List UInt8} {d : FirstByteDeadline}

lemma head_observe (hh : d.head = bytes.take 33) (new : List UInt8) :
    (d.observe new).head = (bytes ++ new).take 33 := by
  simp only [observe, hh, headLen, prefaceLen, frameHeaderLen, length_take]
  split_ifs with hlt
  · rw [← take_eq_take_min, Nat.min_eq_right (by omega : bytes.length ≤ 33), take_append]
  · rw [take_append_of_le_length (by omega)]

lemma needed_observe (d : FirstByteDeadline) (new : List UInt8) :
    (d.observe new).needed =
      if d.needed.isNone && (d.observe new).head.length = headLen then
        some (firstFlight (d.observe new).head)
      else d.needed := by
  simp only [observe, shiftLeft_or_eq]
  rfl

lemma Follows.observe (h : Follows bytes d) (ha : d.timer.isSome) (new : List UInt8) :
    Follows (bytes ++ new) (d.observe new) := by
  have hs : ¬firstFlight bytes ≤ bytes.length := by
    intro hle
    rw [Follows, if_pos hle] at h
    rw [h] at ha
    cases ha
  rw [Follows, if_neg hs] at h
  obtain ⟨-, hr, hh, hn⟩ := h
  have hr' : (d.observe new).read = (bytes ++ new).length := by
    simp [FirstByteDeadline.observe, hr]
  have hh' := head_observe hh new
  have hn' : (d.observe new).needed =
      if 33 ≤ (bytes ++ new).length then some (firstFlight (bytes ++ new)) else none := by
    rw [needed_observe, hn, hh', firstFlight_take, length_take, headLen, prefaceLen,
      frameHeaderLen]
    by_cases hk : 33 ≤ bytes.length
    · -- the header was there before
      have hl : 33 ≤ (bytes ++ new).length := by
        rw [length_append]
        omega
      rw [if_pos hk, if_pos hl, firstFlight_append hk]
      rfl
    · rw [if_neg hk]
      by_cases hl : 33 ≤ (bytes ++ new).length
      · rw [if_pos hl, Nat.min_eq_left hl]
        rfl
      · rw [if_neg hl, if_neg]
        simp only [Option.isNone_none, Bool.true_and, decide_eq_true_eq]
        omega
  have ht : (d.observe new).timer =
      if (d.observe new).needed.any fun needed => needed ≤ (d.observe new).read then none
      else d.timer := rfl
  have hd : (d.observe new).needed.any (fun needed => needed ≤ (d.observe new).read) =
      decide (firstFlight (bytes ++ new) ≤ (bytes ++ new).length) := by
    rw [hn', hr']
    split_ifs with hl
    · rfl
    · have hlt : ¬firstFlight (bytes ++ new) ≤ (bytes ++ new).length := by
        rw [firstFlight]
        omega
      exact (decide_eq_false hlt).symm
  rw [hd] at ht
  rw [Follows]
  by_cases hf : firstFlight (bytes ++ new) ≤ (bytes ++ new).length
  · rw [if_pos hf, ht, if_pos (decide_eq_true hf)]
  · rw [if_neg hf, ht, if_neg (by simpa using hf)]
    exact ⟨ha, hr', hh', hn'⟩

/-- **One poll** adds to the buffer what the invariant follows. -/
lemma Follows.pollRead {ε : Type*} (h : Follows bytes d) (r : TimedRead ε) :
    Follows (bytes ++ (d.pollRead r).2.1.drop r.buf.length) (d.pollRead r).1 := by
  unfold FirstByteDeadline.pollRead
  split_ifs with he
  · -- the deadline: nothing is read
    simpa [Follows] using h
  · cases han : r.answer with
    | pending => simpa [innerPollRead, isOk] using h
    | ready result =>
      cases result with
      | error error => simpa [innerPollRead, isOk] using h
      | ok new =>
        simp only [innerPollRead, isOk, Bool.true_and, drop_left]
        split_ifs with ha
        · exact h.observe ha new
        · -- the timer is gone, and the flight is in the bytes
          have hf : firstFlight bytes ≤ bytes.length := by
            by_contra hs
            rw [Follows, if_neg hs] at h
            exact ha h.1
          have hl : 33 ≤ bytes.length := (Nat.le_add_right 33 _).trans hf
          rw [Follows, firstFlight_append hl, if_pos]
          · rwa [Follows, if_pos hf] at h
          · rw [length_append]
            exact hf.trans (Nat.le_add_right _ _)

lemma Follows.run {ε : Type*} (h : Follows bytes d) (reads : List (TimedRead ε)) :
    Follows (bytes ++ (d.run reads).2) (d.run reads).1 := by
  induction reads generalizing bytes d with
  | nil => rwa [FirstByteDeadline.run, append_nil]
  | cons r rest ih =>
    have hr := ih (h.pollRead r)
    rwa [append_assoc] at hr

/-- **The deadline is disarmed exactly on time.**  After any polls, of which any may find nothing,
fail or come too late, the timer is gone if and only if the bytes read have in them the preface and
the first frame; and a poll before the deadline, or with no timer, is one of the stream. -/
theorem disarmed_iff_first_flight {ε : Type*} (now within : ℕ) (reads : List (TimedRead ε)) :
    let r := (new now within).run reads
    (r.1.timer = none ↔ firstFlight r.2 ≤ r.2.length) ∧
      ∀ next : TimedRead ε, (r.1.timer.all fun deadline => next.now < deadline) →
        (r.1.pollRead next).2 = innerPollRead next.buf next.answer := by
  intro r
  have hs : Follows [] (new now within) := by simp [Follows, new, firstFlight]
  have h : Follows r.2 r.1 := hs.run reads
  refine ⟨?_, fun next hn => ?_⟩
  · rw [Follows] at h
    by_cases hf : firstFlight r.2 ≤ r.2.length
    · rw [if_pos hf] at h
      exact iff_of_true h hf
    · rw [if_neg hf] at h
      exact iff_of_false (Option.isSome_iff_ne_none.mp h.1) hf
  · rw [pollRead, if_neg]
    cases ht : r.1.timer with
    | none => simp
    | some deadline => simpa [ht] using hn

end FirstByteDeadline

end LoadBalancer.Server
