import LoadBalancer.Proxy.RequestBody

/-!
# Deadlines and stalls of streamed bodies

`IdleTimeoutBody` has one timer for two purposes: the request deadline, and the longest gap between
two frames.  The timer counts from the last frame, or from the start (`quietSince`), and is looked
at only when the body inside has nothing ready (`answerAt`).  So a frame that is ready passes after
the deadline, and a call made after a long pause of the caller finds the timer expired, however
short the body inside has been asked.
-/

namespace LoadBalancer.Proxy

open List

/-- A call of `poll_frame` on a timed body: when it was made, what the body inside answered, and
what it returned. -/
structure TimedPoll where
  now : ℕ
  inner : Poll (Option (Except BodyError Frame))
  answer : Poll (Option (Except BodyError Frame))
  deriving DecidableEq

namespace TimedPoll

def framed (call : TimedPoll) : Bool :=
  match call.inner with
  | .ready (some (.ok _)) => true
  | _ => false

def waiting (call : TimedPoll) : Bool := decide (call.inner = .pending)

end TimedPoll

namespace IdleTimeoutBody

variable {β : Type*} [PolledStream β Frame BodyError]

def trace : List ℕ → IdleTimeoutBody β → List TimedPoll
  | [], _ => []
  | now :: polls, b =>
    ⟨now, (PolledStream.poll b.inner now).2, (b.pollFrame now).2⟩ :: trace polls (b.pollFrame now).1

lemma map_now_trace (polls : List ℕ) (b : IdleTimeoutBody β) :
    (trace polls b).map TimedPoll.now = polls := by
  induction polls generalizing b with
  | nil => rfl
  | cons now polls ih => simp [trace, ih]

/-- The instant from which the timer counts: that of the last call that found a frame, or else the
start. -/
def quietSince (start : ℕ) (calls : List TimedPoll) : ℕ :=
  calls.foldl (fun since call => if call.framed then call.now else since) start

/-- What a call returns, by what the body inside answers and by the instant `since` from which the
timer counts. -/
def answerAt (idle : ℕ) (deadline : Option ℕ) (since now : ℕ) :
    Poll (Option (Except BodyError Frame)) → Poll (Option (Except BodyError Frame))
  | .ready event => .ready event
  | .pending =>
    if nextWake idle deadline since ≤ now then
      if deadline.any (· ≤ now) then .ready (some (.error .requestDeadlineExceeded))
      else .ready (some (.error .upstreamBodyIdleTimeout))
    else .pending

variable {before : List TimedPoll} {b : IdleTimeoutBody β} {since : ℕ}
  (hti : b.timer = nextWake b.idle b.deadline since)

include hti

/-- A step of the trace: what a call returns, and the timer after it. -/
lemma pollFrame_spec (now : ℕ) :
    let call : TimedPoll := ⟨now, (PolledStream.poll b.inner now).2, (b.pollFrame now).2⟩
    call.answer = answerAt b.idle b.deadline since now call.inner ∧
      (b.pollFrame now).1.idle = b.idle ∧ (b.pollFrame now).1.deadline = b.deadline ∧
      (b.pollFrame now).1.timer =
        nextWake b.idle b.deadline (if call.framed then now else since) := by
  dsimp only
  unfold pollFrame
  generalize PolledStream.poll b.inner now = answered
  obtain ⟨inner, answer⟩ := answered
  match answer with
  | .ready (some (.ok frame)) => simp [answerAt, TimedPoll.framed]
  | .ready (some (.error e)) => simp [answerAt, TimedPoll.framed, hti]
  | .ready none => simp [answerAt, TimedPoll.framed, hti]
  | .pending =>
    simp only [answerAt, TimedPoll.framed, hti, Bool.false_eq_true, if_false]
    split_ifs <;> simp

lemma answer_of_trace {polls : List ℕ} {after : List TimedPoll} {call : TimedPoll}
    (ht : trace polls b = before ++ call :: after) :
    call.answer = answerAt b.idle b.deadline (quietSince since before) call.now call.inner := by
  induction polls generalizing b since before with
  | nil => simp [trace] at ht
  | cons now polls ih =>
    obtain ⟨ha, hid, hd, ht'⟩ := pollFrame_spec hti now
    cases before with
    | nil =>
      obtain ⟨rfl, -⟩ := List.cons.inj ht
      exact ha
    | cons first before =>
      obtain ⟨rfl, hr⟩ := List.cons.inj ht
      rw [← hid, ← hd] at ht'
      rw [ih ht' hr, hid, hd]
      rfl

/-! ## The deadline -/

/-- Every call at or after the deadline returns the deadline error or the end of the body. -/
def DeadlineEnforced (deadline : ℕ) (calls : List TimedPoll) : Prop :=
  ∀ call ∈ calls, deadline ≤ call.now →
    call.answer = .ready (some (.error .requestDeadlineExceeded)) ∨ call.answer = .ready none

instance (deadline : ℕ) (calls : List TimedPoll) : Decidable (DeadlineEnforced deadline calls) :=
  inferInstanceAs (Decidable (∀ call ∈ calls, _ → _))

omit hti

lemma answerAt_of_deadline_le {deadline now : ℕ} (h : deadline ≤ now) (idle since : ℕ) :
    answerAt idle (some deadline) since now .pending =
      .ready (some (.error .requestDeadlineExceeded)) := by
  have hw : nextWake idle (some deadline) since ≤ now := (min_le_left _ _).trans h
  simp [answerAt, hw, h]

/-- The calls on a response body with a deadline, which is wrapped at `created` and given its
deadline at `start`. -/
def deadlineTrace (body : β) (idle created deadline start : ℕ) (polls : List ℕ) : List TimedPoll :=
  trace polls ((new body idle created).withDeadline (some deadline) start)

/-- The deadline is enforced on a body that gives no errors of its own exactly if no call at or
after the deadline finds a frame ready. -/
theorem deadline_enforced_iff {body : β} {idle created deadline start : ℕ} {polls : List ℕ}
    (hnoerr : ∀ call ∈ deadlineTrace body idle created deadline start polls,
      ∀ e, call.inner ≠ .ready (some (.error e))) :
    DeadlineEnforced deadline (deadlineTrace body idle created deadline start polls) ↔
      ∀ call ∈ deadlineTrace body idle created deadline start polls,
        deadline ≤ call.now → ∀ frame, call.inner ≠ .ready (some (.ok frame)) := by
  refine forall₃_congr fun call hc hl => ?_
  obtain ⟨before, after, ht⟩ := append_of_mem hc
  have ha : call.answer =
      answerAt idle (some deadline) (quietSince start before) call.now call.inner :=
    answer_of_trace rfl ht
  rw [ha]
  match hinn : call.inner with
  | .ready (some (.ok frame)) => simp [answerAt]
  | .ready (some (.error e)) => exact absurd hinn (hnoerr call hc e)
  | .ready none => simp [answerAt]
  | .pending => simp [answerAt_of_deadline_le hl]

/-- A body that stalls before its deadline of 5 and ends after it, asked at 2, 5 and 6. -/
theorem deadline_enforced_stall :
    DeadlineEnforced 5 (deadlineTrace (⟨[(2, some (.ok (.data [7]))), (6, none)]⟩ : Incoming)
      10 0 5 0 [2, 5, 6]) := by
  have ht : deadlineTrace (⟨[(2, some (.ok (.data [7]))), (6, none)]⟩ : Incoming)
      10 0 5 0 [2, 5, 6] =
      [⟨2, .ready (some (.ok (.data [7]))), .ready (some (.ok (.data [7])))⟩,
        ⟨5, .pending, .ready (some (.error .requestDeadlineExceeded))⟩,
        ⟨6, .ready none, .ready none⟩] := by decide
  exact (deadline_enforced_iff (by simp [ht])).mpr (by simp [ht])

/-- A body with a frame ready at every call: the call at 9 returns it, after the deadline of 5. -/
theorem frame_passes_after_deadline :
    ¬ DeadlineEnforced 5 (deadlineTrace
      (⟨[(0, some (.ok (.data [1]))), (0, some (.ok (.data [2])))]⟩ : Incoming) 10 0 5 0
      [1, 9]) := by
  decide

/-! ## Stalls -/

/-- The body inside had nothing ready at every call of a period that began with a call, ended with
this one, and lasted for the idle timeout. -/
def Stalled (idle : ℕ) (before : List TimedPoll) (call : TimedPoll) : Prop :=
  ∃ early first later, before ++ [call] = early ++ first :: later ∧
    (∀ p ∈ first :: later, p.inner = .pending) ∧ first.now + idle ≤ call.now

/-- Whenever a call of a trace returns the idle-timeout error, the body inside has stalled. -/
def BlamedOnlyIfStalled (idle : ℕ) (calls : List TimedPoll) : Prop :=
  ∀ before call after, calls = before ++ call :: after →
    call.answer = .ready (some (.error .upstreamBodyIdleTimeout)) → Stalled idle before call

/-- The instant of the first call of the run of calls, up to this one, at which the body inside had
nothing ready. -/
def askedSince (before : List TimedPoll) (call : TimedPoll) : ℕ :=
  ((before ++ [call]).rtakeWhile TimedPoll.waiting).head?.elim call.now TimedPoll.now

lemma suffix_rtakeWhile {run calls : List TimedPoll} (hru : run <:+ calls)
    (hw : ∀ p ∈ run, p.waiting = true) : run <:+ calls.rtakeWhile TimedPoll.waiting := by
  obtain ⟨early, rfl⟩ := hru
  refine ⟨early.rtakeWhile TimedPoll.waiting, ?_⟩
  have hr : ∀ p ∈ run.reverse, p.waiting = true := by simpa using hw
  simp [List.rtakeWhile, takeWhile_append_of_pos hr]

lemma stalled_iff {idle : ℕ} {call : TimedPoll}
    (hso : (before ++ [call]).Pairwise (fun p q => p.now ≤ q.now))
    (hc : call.inner = .pending) :
    Stalled idle before call ↔ askedSince before call + idle ≤ call.now := by
  have hw : call.waiting = true := decide_eq_true hc
  have hru := rtakeWhile_concat_pos TimedPoll.waiting before call hw
  constructor
  · rintro ⟨early, first, later, hsp, hpe, hl⟩
    have hs : first :: later <:+ (before ++ [call]).rtakeWhile TimedPoll.waiting :=
      suffix_rtakeWhile ⟨early, hsp.symm⟩ fun p hp => decide_eq_true (hpe p hp)
    have hr := hso.sublist (rtakeWhile_suffix TimedPoll.waiting _).sublist
    unfold askedSince
    generalize (before ++ [call]).rtakeWhile TimedPoll.waiting = run at hs hr
    obtain ⟨front, rfl⟩ := hs
    cases front with
    | nil => simpa using hl
    | cons head front =>
      have hh : head.now ≤ first.now := rel_of_pairwise_cons hr (by simp)
      simp only [cons_append, List.head?_cons, Option.elim_some]
      omega
  · intro hl
    obtain ⟨first, later, hf⟩ : ∃ first later,
        (before ++ [call]).rtakeWhile TimedPoll.waiting = first :: later :=
      exists_cons_of_ne_nil (by simp [hru])
    refine ⟨(before ++ [call]).rdropWhile TimedPoll.waiting, first, later, ?_, ?_, ?_⟩
    · rw [← hf, rdropWhile_append_rtakeWhile]
    · intro p hp
      rw [← hf] at hp
      have hp' : p.waiting = true := mem_rtakeWhile_imp hp
      exact of_decide_eq_true hp'
    · simpa [askedSince, hf] using hl

/-- Without a deadline, a call returns the idle-timeout error exactly if nothing is ready and the
last frame is the idle timeout ago. -/
lemma answerAt_eq_idleTimeout_iff {idle now : ℕ} {inner : Poll (Option (Except BodyError Frame))}
    (hn : ∀ e, inner ≠ .ready (some (.error e))) :
    answerAt idle none since now inner = .ready (some (.error .upstreamBodyIdleTimeout)) ↔
      inner = .pending ∧ since + idle ≤ now := by
  match inner with
  | .ready event => simpa [answerAt] using hn .upstreamBodyIdleTimeout
  | .pending =>
    simp only [answerAt, nextWake, Option.elim_none, Option.any_none, Bool.false_eq_true, if_false]
    split_ifs with h <;> simp [h]

/-- A backend is blamed only if it stalled, exactly if every call that finds nothing ready comes
either within the idle timeout of the last frame, or no sooner than the idle timeout after the
first of the calls in a row that found nothing. -/
theorem stall_blamed_iff {body : β} {idle created : ℕ} {polls : List ℕ}
    (hsorted : polls.Pairwise (· ≤ ·))
    (hnoerr : ∀ call ∈ trace polls (new body idle created),
      ∀ e, call.inner ≠ .ready (some (.error e))) :
    BlamedOnlyIfStalled idle (trace polls (new body idle created)) ↔
      ∀ before call after, trace polls (new body idle created) = before ++ call :: after →
        call.inner = .pending →
        call.now < quietSince created before + idle ∨ askedSince before call + idle ≤ call.now := by
  refine forall₄_congr fun before call after ht => ?_
  have hc : call ∈ trace polls (new body idle created) := by simp [ht]
  have ho : (before ++ [call]).Pairwise (fun p q => p.now ≤ q.now) := by
    have hal := hsorted
    rw [← map_now_trace polls (new body idle created), pairwise_map, ht] at hal
    exact hal.sublist (by simp)
  have ha : call.answer =
      answerAt idle none (quietSince created before) call.now call.inner :=
    answer_of_trace rfl ht
  rw [ha, answerAt_eq_idleTimeout_iff (hnoerr call hc), and_imp]
  refine forall_congr' fun hp => ?_
  rw [stalled_iff ho hp, ← not_lt, or_iff_not_imp_left]

/-- A backend that sends nothing after 1 is asked at 3 and again at 8, and is blamed for it. -/
theorem stall_blamed_silence :
    BlamedOnlyIfStalled 5
      (trace [1, 3, 8] (new (⟨[(1, some (.ok (.data [1])))]⟩ : Incoming) 5 0)) := by
  have ht : trace [1, 3, 8] (new (⟨[(1, some (.ok (.data [1])))]⟩ : Incoming) 5 0) =
      [⟨1, .ready (some (.ok (.data [1]))), .ready (some (.ok (.data [1])))⟩,
        ⟨3, .pending, .pending⟩,
        ⟨8, .pending, .ready (some (.error .upstreamBodyIdleTimeout))⟩] := by decide
  refine (stall_blamed_iff (by decide) (by simp [ht])).mpr ?_
  intro before call after hs hp
  rw [ht] at hs
  match before with
  | [] =>
    obtain ⟨rfl, -⟩ := List.cons.inj hs
    cases hp
  | [a] =>
    simp only [singleton_append, List.cons.injEq] at hs
    obtain ⟨rfl, rfl, -⟩ := hs
    exact .inl (by decide)
  | [a, b] =>
    simp only [cons_append, nil_append, List.cons.injEq] at hs
    obtain ⟨rfl, rfl, rfl, -⟩ := hs
    exact .inr (by decide)
  | a :: b :: c :: before => simp at hs

/-- The client takes the first frame at 1 and reads again at 9, after a pause, when the next frame
has not been handed over yet: the first call after the pause is answered with the idle timeout of
5. -/
theorem pause_blamed_on_backend :
    ¬ BlamedOnlyIfStalled 5 (trace [1, 9]
      (new (⟨[(1, some (.ok (.data [1]))), (10, none)]⟩ : Incoming) 5 0)) := by
  intro h
  have hs := h [⟨1, .ready (some (.ok (.data [1]))), .ready (some (.ok (.data [1])))⟩]
    ⟨9, .pending, .ready (some (.error .upstreamBodyIdleTimeout))⟩ [] (by decide) rfl
  rw [stalled_iff (by decide) rfl] at hs
  revert hs
  decide

end IdleTimeoutBody

end LoadBalancer.Proxy
