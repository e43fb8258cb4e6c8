import Mathlib
import LoadBalancer.Lib.Poll

/-!
# Request bodies

A request body is read into a buffer first (`read_request_body`).  A body that outgrows the buffer
is streamed: what has been read is sent on, followed by the rest as the client sends it, through
two wrappers.  `StreamedRequestBody` counts the rest against the size limit, and `IdleTimeoutBody`
ends it at the upload deadline.

The client's side of the body is a list of arrivals: frames, a read error, the end.  The counters
that an expired timer increments are left out, and so is the guard a response body holds.
-/

namespace LoadBalancer.Proxy

/-- A frame of a body: data, or the trailers. -/
inductive Frame
  | data (bytes : List UInt8)
  | trailers
  deriving DecidableEq, Repr

namespace Frame

@[simp]
def bytes : Frame → List UInt8
  | data bytes => bytes
  | trailers => []

end Frame

/-- The errors of a body.  `read` is an error of the client's connection; the others are raised
by the wrappers, `tooLarge` with the text "request body too large". -/
inductive BodyError
  | read
  | tooLarge
  | requestDeadlineExceeded
  | upstreamBodyIdleTimeout
  deriving DecidableEq, Repr

/-- When a body has something to give, and what: a frame, an error, or its end. -/
abbrev BodyEvent := ℕ × Option (Except BodyError Frame)

/-- The client's side of a body. -/
abbrev Incoming := Arrivals Frame BodyError

def dataOf (frames : List Frame) : List UInt8 := frames.flatMap Frame.bytes

@[simp]
lemma dataOf_cons (frame : Frame) (frames : List Frame) :
    dataOf (frame :: frames) = frame.bytes ++ dataOf frames :=
  rfl

@[simp]
lemma dataOf_append (frames later : List Frame) :
    dataOf (frames ++ later) = dataOf frames ++ dataOf later :=
  List.flatMap_append

/-! ## Reading into the buffer -/

inductive RequestBody
  | buffered (bytes : List UInt8)
  | streaming (head : List UInt8) (rest : Incoming)
  deriving DecidableEq

/-- How the reading of the buffer ends: with a body, with the refusal of `read_request_body`, or
with the timeout around it. -/
inductive ReadOutcome
  | read (body : RequestBody)
  | refused
  | timedOut
  deriving DecidableEq

/-- The loop of `read_request_body`, given up at the instant `cut`.  Both an oversized body and a
read error end it with the same refusal. -/
def readRequestBody (cut bufferBytes maxBytes : ℕ) (head : List UInt8) :
    List BodyEvent → ReadOutcome
  | [] => .timedOut
  | (t, event) :: rest =>
    if cut < t then .timedOut
    else
      match event with
      | none => .read (.buffered head)
      | some (.error _) => .refused
      | some (.ok .trailers) => readRequestBody cut bufferBytes maxBytes head rest
      | some (.ok (.data bytes)) =>
        if maxBytes < (head ++ bytes).length then .refused
        else if bufferBytes < (head ++ bytes).length then .read (.streaming (head ++ bytes) ⟨rest⟩)
        else readRequestBody cut bufferBytes maxBytes (head ++ bytes) rest

def framesOf (events : List BodyEvent) : List Frame :=
  events.filterMap fun e => e.2.bind Except.toOption

@[simp]
lemma framesOf_cons (t : ℕ) (frame : Frame)
    (events : List BodyEvent) :
    framesOf ((t, some (.ok frame)) :: events) = frame :: framesOf events :=
  rfl

/-! ## Streaming the rest -/

/-- `StreamedRequestBody`.  `head` is the source's field for what has been read already. -/
structure StreamedRequestBody (β : Type*) where
  head : Option (List UInt8)
  rest : β
  remaining : ℕ
  exceeded : Bool
  deriving DecidableEq

namespace StreamedRequestBody

variable {β : Type*} [PolledStream β Frame BodyError]

def pollFrame (b : StreamedRequestBody β) (now : ℕ) :
    StreamedRequestBody β × Poll (Option (Except BodyError Frame)) :=
  match b.head with
  | some head => ({ b with head := none }, .ready (some (.ok (.data head))))
  | none =>
    match PolledStream.poll b.rest now with
    | (rest, .ready (some (.ok (.data bytes)))) =>
      if b.remaining < bytes.length then
        ({ b with rest, exceeded := true }, .ready (some (.error .tooLarge)))
      else
        ({ b with rest, remaining := b.remaining - bytes.length },
          .ready (some (.ok (.data bytes))))
    | (rest, polled) => ({ b with rest }, polled)

instance : PolledStream (StreamedRequestBody β) Frame BodyError := ⟨pollFrame⟩

/-- What is to come of a streamed body: what has been read already, and then what is to come of
the rest, if that is within the limit. -/
def Holds (D : β → List Frame → Prop) (b : StreamedRequestBody β) (frames : List Frame) : Prop :=
  ∃ rest, frames = (b.head.map Frame.data).toList ++ rest ∧ D b.rest rest ∧
    (dataOf rest).length ≤ b.remaining

lemma delivers_streamed {D : β → List Frame → Prop} {since bound : ℕ}
    (hD : Delivers D since bound) : Delivers (Holds D) since bound := by
  rintro ⟨head, inner, remaining, exceeded⟩ _ now hn ⟨rest, rfl, hr, hs⟩
  cases head with
  | some head => exact .item ⟨rest, rfl, hr, hs⟩
  | none =>
    have hd := hD hn hr
    change Delivery (Holds D) bound now rest
      (pollFrame ⟨none, inner, remaining, exceeded⟩ now)
    unfold pollFrame
    generalize PolledStream.poll inner now = answer at hd ⊢
    cases hd with
    | pending hlt hinn => exact .pending hlt ⟨rest, rfl, hinn, hs⟩
    | @item inner' frame frames hinn =>
      cases frame with
      | trailers => exact .item ⟨frames, rfl, hinn, hs⟩
      | data bytes =>
        have hs' : bytes.length + (dataOf frames).length ≤ remaining := by
          simpa [dataOf, Frame.bytes] using hs
        dsimp only
        rw [if_neg (by omega)]
        refine .item ⟨frames, rfl, hinn, ?_⟩
        dsimp only
        omega
    | done => exact .done

end StreamedRequestBody

/-- `IdleTimeoutBody`.  `timer` is the instant at which its `Sleep` is ready. -/
structure IdleTimeoutBody (β : Type*) where
  inner : β
  idle : ℕ
  deadline : Option ℕ
  timer : ℕ
  deriving DecidableEq

namespace IdleTimeoutBody

variable {β : Type*}

def nextWake (idle : ℕ) (deadline : Option ℕ) (now : ℕ) : ℕ :=
  deadline.elim (now + idle) fun deadline => min deadline (now + idle)

def new (inner : β) (idle now : ℕ) : IdleTimeoutBody β :=
  { inner, idle, deadline := none, timer := now + idle }

def withDeadline (b : IdleTimeoutBody β) (deadline : Option ℕ) (now : ℕ) : IdleTimeoutBody β :=
  { b with deadline, timer := nextWake b.idle deadline now }

variable [PolledStream β Frame BodyError]

def pollFrame (b : IdleTimeoutBody β) (now : ℕ) :
    IdleTimeoutBody β × Poll (Option (Except BodyError Frame)) :=
  match PolledStream.poll b.inner now with
  | (inner, .ready (some (.ok frame))) =>
    ({ b with inner, timer := nextWake b.idle b.deadline now }, .ready (some (.ok frame)))
  | (inner, .ready (some (.error e))) => ({ b with inner }, .ready (some (.error e)))
  | (inner, .ready none) => ({ b with inner }, .ready none)
  | (inner, .pending) =>
    if b.timer ≤ now then
      if b.deadline.any (· ≤ now) then
        ({ b with inner }, .ready (some (.error .requestDeadlineExceeded)))
      else ({ b with inner }, .ready (some (.error .upstreamBodyIdleTimeout)))
    else ({ b with inner }, .pending)

instance : PolledStream (IdleTimeoutBody β) Frame BodyError := ⟨pollFrame⟩

/-- What is to come of a timed body is what is to come of the body inside, if the timer cannot be
ready before that has arrived. -/
def Holds (D : β → List Frame → Prop) (since bound : ℕ) (b : IdleTimeoutBody β)
    (frames : List Frame) : Prop :=
  D b.inner frames ∧ bound ≤ b.timer ∧ bound ≤ nextWake b.idle b.deadline since

lemma nextWake_mono (idle : ℕ) (deadline : Option ℕ) {now later : ℕ} (h : now ≤ later) :
    nextWake idle deadline now ≤ nextWake idle deadline later := by
  cases deadline with
  | none => exact Nat.add_le_add_right h idle
  | some deadline => exact min_le_min_left deadline (Nat.add_le_add_right h idle)

lemma delivers_idleTimeout {D : β → List Frame → Prop} {since bound : ℕ}
    (hD : Delivers D since bound) : Delivers (Holds D since bound) since bound := by
  rintro ⟨inner, idle, deadline, timer⟩ frames now hn ⟨hf, ht, hw⟩
  have hd := hD hn hf
  change Delivery (Holds D since bound) bound now frames
    (pollFrame ⟨inner, idle, deadline, timer⟩ now)
  unfold pollFrame
  generalize PolledStream.poll inner now = answer at hd ⊢
  cases hd with
  | pending hlt hinn =>
    dsimp only
    rw [if_neg (by dsimp only at ht; omega)]
    exact .pending hlt ⟨hinn, ht, hw⟩
  | item hinn => exact .item ⟨hinn, hw.trans (nextWake_mono idle deadline hn), hw⟩
  | done => exact .done

end IdleTimeoutBody

end LoadBalancer.Proxy
