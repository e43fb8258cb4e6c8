import Mathlib
import LoadBalancer.Lib.Run

/-!
# Pumps

The bytes of a TCP session are copied by two pumps (`crates/lb-tcp/src/pump.rs`), one for each
direction, that share an `IdleTracker`.  A pump waits for a read, then for its whole chunk to be
written, and races each wait against a timer that fires when the tracker has not been touched for
the idle timeout.  The tracker is touched when a read returns and when `write_all` returns; the
pieces in which the writer accepts a chunk are not seen by it.

A run is a list of timed events, in nanoseconds since the tracker was made.  The source keeps them
in 64 bits, which is enough for 584 years, and they are not truncated here.  A timer fires at its
deadline or later.
-/

namespace LoadBalancer.Tcp

def bufferSize : ℕ := 8 * 1024

inductive Direction
  | toBackend
  | toClient
  deriving DecidableEq

/-- What a pump waits for.  `deadline` is that of the timer it is racing, and `total` are the bytes
copied so far. -/
inductive PumpState
  | reading (deadline total : ℕ)
  /-- In `write_all`, with `remaining` bytes of the chunk not yet accepted. -/
  | writing (deadline chunk remaining total : ℕ)
  /-- After the end of the input; no timer runs. -/
  | shuttingDown (total : ℕ)
  | finished (total : ℕ)
  deriving DecidableEq

namespace PumpState

def deadline : PumpState → Option ℕ
  | reading deadline _ => some deadline
  | writing deadline _ _ _ => some deadline
  | _ => none

/-- The loop of `with_idle_timeout` goes round. -/
def rearm (deadline : ℕ) : PumpState → PumpState
  | reading _ total => reading deadline total
  | writing _ chunk remaining total => writing deadline chunk remaining total
  | state => state

lemma deadline_rearm (t : ℕ) (state : PumpState) :
    (state.rearm t).deadline = state.deadline.map fun _ => t := by
  cases state <;> rfl

end PumpState

inductive PumpError
  | idleTimeout
  | io
  deriving DecidableEq

/-- Both pumps of a session.  The first error ends it. -/
structure Pumps where
  lastNanos : ℕ
  now : ℕ
  pump : Direction → PumpState
  error : Option PumpError

namespace Pumps

def start (idle : ℕ) : Pumps := ⟨0, 0, fun _ => .reading idle 0, none⟩

def enter (s : Pumps) (d : Direction) (state : PumpState) (t : ℕ) : Pumps :=
  { s with now := t, pump := Function.update s.pump d state }

@[simp] lemma pump_enter_self (s : Pumps) (d : Direction) (state : PumpState) (t : ℕ) :
    (s.enter d state t).pump d = state := Function.update_self ..

lemma pump_enter_of_ne (s : Pumps) {d d' : Direction} (h : d' ≠ d) (state : PumpState) (t : ℕ) :
    (s.enter d state t).pump d' = s.pump d' := Function.update_of_ne h ..

def touch (s : Pumps) (t : ℕ) : Pumps := { s with lastNanos := t }

@[simp] lemma pump_touch (s : Pumps) (t : ℕ) : (s.touch t).pump = s.pump := rfl

def fail (s : Pumps) (e : PumpError) (t : ℕ) : Pumps := { s with now := t, error := some e }

end Pumps

inductive PumpEvent
  /-- A read returns `n` bytes, none at the end of the input. -/
  | read (d : Direction) (n t : ℕ)
  /-- The writer accepts `k` bytes of a chunk and leaves `rest`. -/
  | accept (d : Direction) (k rest t : ℕ)
  | timer (d : Direction) (t : ℕ)
  | shutdown (d : Direction) (t : ℕ)
  | ioError (d : Direction) (t : ℕ)
  deriving DecidableEq

namespace PumpEvent

def instant : PumpEvent → ℕ
  | read _ _ t => t
  | accept _ _ _ t => t
  | timer _ t => t
  | shutdown _ t => t
  | ioError _ t => t

def moves : PumpEvent → Bool
  | read _ n _ => n ≠ 0
  | accept .. => true
  | _ => false

def completes : PumpEvent → Bool
  | read .. => true
  | accept _ _ rest _ => rest = 0
  | _ => false

end PumpEvent

/-- What can happen to the pumps of a session that has not ended. -/
inductive PumpStep (idle : ℕ) : Pumps → PumpEvent → Pumps → Prop
  | read {s : Pumps} {d : Direction} {deadline total n t : ℕ} (hrunning : s.error = none)
      (hpump : s.pump d = .reading deadline total) (ht : s.now ≤ t) (hn : 0 < n)
      (hsize : n ≤ bufferSize) :
      PumpStep idle s (.read d n t) ((s.enter d (.writing (t + idle) n n total) t).touch t)
  | endOfInput {s : Pumps} {d : Direction} {deadline total t : ℕ} (hrunning : s.error = none)
      (hpump : s.pump d = .reading deadline total) (ht : s.now ≤ t) :
      PumpStep idle s (.read d 0 t) ((s.enter d (.shuttingDown total) t).touch t)
  /-- `write_all` goes on with the rest of the chunk. -/
  | piece {s : Pumps} {d : Direction} {deadline chunk k rest total t : ℕ}
      (hrunning : s.error = none)
      (hpump : s.pump d = .writing deadline chunk (k + rest) total) (ht : s.now ≤ t) (hk : 0 < k)
      (hrest : 0 < rest) :
      PumpStep idle s (.accept d k rest t) (s.enter d (.writing deadline chunk rest total) t)
  | written {s : Pumps} {d : Direction} {deadline chunk k total t : ℕ} (hrunning : s.error = none)
      (hpump : s.pump d = .writing deadline chunk k total) (ht : s.now ≤ t) (hk : 0 < k) :
      PumpStep idle s (.accept d k 0 t)
        ((s.enter d (.reading (t + idle) (total + chunk)) t).touch t)
  | timedOut {s : Pumps} {d : Direction} {deadline t : ℕ} (hrunning : s.error = none)
      (hpump : (s.pump d).deadline = some deadline) (ht : s.now ≤ t) (hfires : deadline ≤ t)
      (hidle : s.lastNanos + idle ≤ t) : PumpStep idle s (.timer d t) (s.fail .idleTimeout t)
  | rearmed {s : Pumps} {d : Direction} {deadline t : ℕ} (hrunning : s.error = none)
      (hpump : (s.pump d).deadline = some deadline) (ht : s.now ≤ t) (hfires : deadline ≤ t)
      (hactive : t < s.lastNanos + idle) :
      PumpStep idle s (.timer d t) (s.enter d ((s.pump d).rearm (s.lastNanos + idle)) t)
  | shutdown {s : Pumps} {d : Direction} {total t : ℕ} (hrunning : s.error = none)
      (hpump : s.pump d = .shuttingDown total) (ht : s.now ≤ t) :
      PumpStep idle s (.shutdown d t) (s.enter d (.finished total) t)
  | ioError {s : Pumps} {d : Direction} {t : ℕ} (hrunning : s.error = none) (ht : s.now ≤ t)
      (hpump : ∀ total, s.pump d ≠ .finished total) :
      PumpStep idle s (.ioError d t) (s.fail .io t)

/-! ## What the tracker knows -/

def moments (events : List PumpEvent) : List ℕ :=
  (events.filter PumpEvent.moves).map PumpEvent.instant

def latest (events : List PumpEvent) : ℕ := (moments events).getLast?.getD 0

def completed (events : List PumpEvent) : ℕ :=
  ((events.filter PumpEvent.completes).map PumpEvent.instant).getLast?.getD 0

/-- Less than `idle` passes from the start to the first instant and from each to the next. -/
def Live (idle : ℕ) (instants : List ℕ) : Prop :=
  (0 :: instants).IsChain fun t u => u < t + idle

lemma live_snoc {idle : ℕ} {instants : List ℕ} {t : ℕ} :
    Live idle (instants ++ [t]) ↔ Live idle instants ∧ t < instants.getLast?.getD 0 + idle := by
  rw [Live, ← List.cons_append, List.isChain_append]
  simp [Live, List.getLast?_cons]

lemma latest_snoc (events : List PumpEvent) (e : PumpEvent) :
    latest (events ++ [e]) = if e.moves then e.instant else latest events := by
  unfold latest moments
  by_cases h : e.moves = true
  · simp [h]
  · simp [h]

lemma completed_snoc (events : List PumpEvent) (e : PumpEvent) :
    completed (events ++ [e]) = if e.completes then e.instant else completed events := by
  unfold completed
  by_cases h : e.completes = true
  · simp [h]
  · simp [h]

/-- The tracker holds the instant of the last completed transfer, timers are set no later than it
asks for, and bytes moved after it are those of a chunk that is still being written. -/
structure Tracked (idle : ℕ) (events : List PumpEvent) (s : Pumps) : Prop where
  last_eq : s.lastNanos = completed events
  completed_le : completed events ≤ s.now
  latest_le : latest events ≤ s.now
  deadline_le : ∀ d, ∀ t ∈ (s.pump d).deadline, t ≤ s.lastNanos + idle
  waiting : s.error = none → completed events < latest events →
    ∃ d, ((s.pump d).deadline).isSome

namespace Tracked

variable {idle : ℕ} {events : List PumpEvent} {s : Pumps} {e : PumpEvent}

variable (h : Tracked idle events s)

include h

lemma touched (hco : e.completes = true) (ht : s.now ≤ e.instant) {d : Direction}
    {state : PumpState} (hs : ∀ t ∈ state.deadline, t ≤ e.instant + idle) :
    Tracked idle (events ++ [e]) ((s.enter d state e.instant).touch e.instant) := by
  have hc : completed (events ++ [e]) = e.instant := by
    rw [completed_snoc, if_pos hco]
  have hl : latest (events ++ [e]) ≤ e.instant := by
    rw [latest_snoc]
    split_ifs
    · exact le_rfl
    · exact h.latest_le.trans ht
  have hla : s.lastNanos ≤ e.instant := h.last_eq.le.trans (h.completed_le.trans ht)
  refine ⟨hc.symm, hc.le, hl, fun d' t hd' => ?_, fun _ hlt => ?_⟩
  · by_cases hd : d' = d
    · subst hd
      rw [Pumps.pump_touch, Pumps.pump_enter_self] at hd'
      exact hs t hd'
    · rw [Pumps.pump_touch, s.pump_enter_of_ne hd] at hd'
      exact (h.deadline_le d' t hd').trans (Nat.add_le_add_right hla idle)
  · exact absurd hlt (hc ▸ hl.not_gt)

lemma entered (hco : e.completes = false) (ht : s.now ≤ e.instant) {d : Direction}
    {state : PumpState} (hs : ∀ t ∈ state.deadline, t ≤ s.lastNanos + idle)
    (hw : e.moves = true ∨ ((s.pump d).deadline).isSome = true →
      (state.deadline).isSome = true) :
    Tracked idle (events ++ [e]) (s.enter d state e.instant) := by
  have hc : completed (events ++ [e]) = completed events := by
    rw [completed_snoc, hco, if_neg Bool.false_ne_true]
  refine ⟨h.last_eq.trans hc.symm, hc ▸ h.completed_le.trans ht, ?_,
    fun d' t hd' => ?_, fun hr hlt => ?_⟩
  · rw [latest_snoc]
    split_ifs
    · exact le_rfl
    · exact h.latest_le.trans ht
  · by_cases hd : d' = d
    · subst hd
      rw [Pumps.pump_enter_self] at hd'
      exact hs t hd'
    · rw [s.pump_enter_of_ne hd] at hd'
      exact h.deadline_le d' t hd'
  · by_cases hm : e.moves = true
    · refine ⟨d, ?_⟩
      rw [Pumps.pump_enter_self]
      exact hw (Or.inl hm)
    · rw [hc, latest_snoc, if_neg hm] at hlt
      obtain ⟨d', hd'⟩ := h.waiting hr hlt
      refine ⟨d', ?_⟩
      by_cases hd : d' = d
      · subst hd
        rw [Pumps.pump_enter_self]
        exact hw (Or.inr hd')
      · rw [s.pump_enter_of_ne hd]
        exact hd'

lemma failed (hco : e.completes = false) (hm : e.moves = false) (ht : s.now ≤ e.instant)
    (error : PumpError) : Tracked idle (events ++ [e]) (s.fail error e.instant) := by
  have hc : completed (events ++ [e]) = completed events := by
    rw [completed_snoc, hco, if_neg Bool.false_ne_true]
  have hl : latest (events ++ [e]) = latest events := by
    rw [latest_snoc, hm, if_neg Bool.false_ne_true]
  exact ⟨h.last_eq.trans hc.symm, hc ▸ h.completed_le.trans ht,
    hl ▸ h.latest_le.trans ht, h.deadline_le, fun hr => by cases hr⟩

lemma step {s' : Pumps} (hs : PumpStep idle s e s') : Tracked idle (events ++ [e]) s' := by
  cases hs with
  | @read d deadline total n t _ _ ht _ _ =>
    exact h.touched (e := .read d n t) rfl ht fun u hu => (Option.some.inj hu).ge
  | @endOfInput d deadline total t _ _ ht =>
    exact h.touched (e := .read d 0 t) rfl ht fun u hu => by cases hu
  | @piece d deadline chunk k rest total t _ hp ht _ hr =>
    have hc : (PumpEvent.accept d k rest t).completes = false := by
      simpa [PumpEvent.completes] using hr.ne'
    refine h.entered hc ht (fun u hu => h.deadline_le d u ?_) fun _ => rfl
    rw [hp]
    exact hu
  | @written d deadline chunk k total t _ _ ht _ =>
    exact h.touched (e := .accept d k 0 t) rfl ht fun u hu => (Option.some.inj hu).ge
  | @timedOut d deadline t _ _ ht _ _ => exact h.failed (e := .timer d t) rfl rfl ht .idleTimeout
  | @rearmed d deadline t _ hp ht _ _ =>
    refine h.entered (e := .timer d t) rfl ht (fun u hu => ?_) fun _ => ?_
    · rw [PumpState.deadline_rearm, hp] at hu
      exact (Option.some.inj hu).ge
    · rw [PumpState.deadline_rearm, hp]
      rfl
  | @shutdown d total t _ hp ht =>
    refine h.entered (e := .shutdown d t) rfl ht (fun u hu => by cases hu) ?_
    rw [hp]
    simp [PumpEvent.moves, PumpState.deadline]
  | @ioError d t _ ht _ => exact h.failed (e := .ioError d t) rfl rfl ht .io

omit h

lemma of_run (h : Run (PumpStep idle) (.start idle) events s) : Tracked idle events s := by
  induction h with
  | start =>
    refine ⟨rfl, le_rfl, le_rfl, fun d t ht => ?_, fun _ hlt => absurd hlt (lt_irrefl 0)⟩
    obtain rfl : idle = t := Option.some.inj ht
    exact (Nat.zero_add idle).ge
  | next _ hs ih => exact ih.step hs

end Tracked

/-! ## Sessions that are cut -/

/-- Whatever happens next, a session that is live up to then is not ended by the idle timeout. -/
def KeptWhileLive (idle : ℕ) (events : List PumpEvent) (s : Pumps) : Prop :=
  ∀ e s', PumpStep idle s e s' → Live idle (moments events ++ [e.instant]) →
    s'.error ≠ some .idleTimeout

/-- A live session is safe from the idle timeout exactly when no byte has moved since the last
completed read or chunk: pieces of a chunk do not count as activity. -/
theorem live_session_kept_iff {idle : ℕ} {events : List PumpEvent} {s : Pumps}
    (hrun : Run (PumpStep idle) (.start idle) events s) (hrunning : s.error = none)
    (hlive : Live idle (moments events ++ [s.now])) :
    KeptWhileLive idle events s ↔ latest events ≤ completed events := by
  have htr := Tracked.of_run hrun
  obtain ⟨hp, hn⟩ := live_snoc.mp hlive
  constructor
  · intro hk
    by_contra hlt
    rw [not_le] at hlt
    -- the timer of a pump that waits fires while the last piece is still recent
    obtain ⟨d, hd⟩ := htr.waiting hrunning hlt
    obtain ⟨deadline, hde⟩ := Option.isSome_iff_exists.mp hd
    have hle := htr.deadline_le d deadline hde
    have hla := htr.last_eq
    set t := max s.now (s.lastNanos + idle) with ht
    refine hk (.timer d t) _ (.timedOut hrunning hde (le_max_left ..)
      (hle.trans (le_max_right ..)) (le_max_right ..)) (live_snoc.mpr ⟨hp, ?_⟩) rfl
    refine max_lt hn ?_
    rw [hla]
    exact Nat.add_lt_add_right hlt idle
  · intro hle e s' hs hl' he
    obtain ⟨-, hr⟩ := live_snoc.mp hl'
    cases hs with
    | timedOut _ _ _ _ hid =>
      have hl : latest events + idle ≤ s.lastNanos + idle := by
        rw [htr.last_eq]
        exact Nat.add_le_add_right hle idle
      exact absurd hr (hl.trans hid).not_gt
    | _ => simp_all [Pumps.enter, Pumps.touch, Pumps.fail]

/-- A chunk has been read from the backend. -/
theorem live_session_kept_after_read :
    ∃ s, Run (PumpStep 10) (.start 10) [.read .toClient 8 1] s ∧
      KeptWhileLive 10 [.read .toClient 8 1] s := by
  have hr : Run (PumpStep 10) (.start 10) ([] ++ [.read .toClient 8 1]) _ :=
    Run.start.next (.read rfl rfl (by decide) (by decide) (by decide))
  refine ⟨_, hr, (live_session_kept_iff hr rfl ?_).mpr (by decide)⟩
  change Live 10 ([1] ++ [1])
  simp [Live]

/-- The client takes a chunk byte by byte, with pauses of half the idle timeout, and is cut off
before the third byte. -/
theorem slow_client_cut_while_live :
    let events := [.read .toClient 8 1, .accept .toClient 1 7 5, .accept .toClient 1 6 10]
    ∃ s s', Run (PumpStep 10) (.start 10) events s ∧
      PumpStep 10 s (.timer .toClient 11) s' ∧ Live 10 (moments events ++ [11]) ∧
      s'.error = some .idleTimeout := by
  intro events
  let s₁ := ((Pumps.start 10).enter .toClient (.writing 11 8 8 0) 1).touch 1
  let s₂ := s₁.enter .toClient (.writing 11 8 7 0) 5
  let s₃ := s₂.enter .toClient (.writing 11 8 6 0) 10
  have hr : PumpStep 10 (.start 10) (.read .toClient 8 1) s₁ :=
    .read rfl rfl (by decide) (by decide) (by decide)
  have hf : PumpStep 10 s₁ (.accept .toClient 1 7 5) s₂ :=
    .piece rfl rfl (by decide) (by decide) (by decide)
  have hs : PumpStep 10 s₂ (.accept .toClient 1 6 10) s₃ :=
    .piece rfl rfl (by decide) (by decide) (by decide)
  have hc : PumpStep 10 s₃ (.timer .toClient 11) (s₃.fail .idleTimeout 11) :=
    .timedOut rfl rfl (by decide) (by decide) (by decide)
  refine ⟨s₃, _, ((Run.start.next hr).next hf).next hs, hc, ?_, rfl⟩
  change Live 10 ([1, 5, 10] ++ [11])
  simp [Live]

end LoadBalancer.Tcp
