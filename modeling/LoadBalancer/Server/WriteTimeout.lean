import LoadBalancer.Lib.Poll
import LoadBalancer.Lib.Run

/-!
# The write idle timeout (`WriteIdleTimeout`)

Every HTTP connection is wrapped in `WriteIdleTimeout` before a protocol is selected.  The adapter
holds one timer, armed at construction and pushed back by every write that the inner stream
completes; both write calls look at the timer before they look at the inner stream.  Its purpose
is stated in the module that implements it: a slow but steady client is never punished, only a
genuinely stalled one.

A connection is a timed trace of polls.  What the inner stream answers is part of the trace, and
so are the gaps between the polls: the timer keeps running while there is nothing to write, and
that is the only thing that separates what the adapter does from what it is for.
`timed_out_only_when_stuck_iff` says for which traces the two agree.

Reads, flushes and shutdowns go to the inner stream and never look at the timer.
-/

namespace LoadBalancer.Server

open List

/-- The errors a write on the adapter returns: `io::ErrorKind::TimedOut` with the adapter's own
message, or an error of the inner stream, which is passed on. -/
inductive WriteError (ε : Type*)
  | timedOut (message : String)
  | inner (error : ε)
  deriving DecidableEq, Repr

/-- The adapter's two fields besides the stream.  `timer` is the instant at which the `Sleep`
becomes ready; once it has passed the timer stays ready until it is reset. -/
structure WriteIdleTimeout where
  timeout : ℕ
  timer : ℕ
  deriving DecidableEq, Repr

/-- One call of `poll_write` or `poll_write_vectored`: when it is made, and what the inner stream
answers if it is asked. -/
structure WritePoll (ε : Type*) where
  vectored : Bool
  now : ℕ
  inner : Poll (Except ε ℕ)
  deriving DecidableEq, Repr

namespace WriteIdleTimeout

variable {ε : Type*}

def new (now timeout : ℕ) : WriteIdleTimeout :=
  { timeout, timer := now + timeout }

def passed : Poll (Except ε ℕ) → Poll (Except (WriteError ε) ℕ)
  | .pending => .pending
  | .ready result => .ready (result.mapError .inner)

def timedOut : Poll (Except (WriteError ε) ℕ) :=
  .ready (.error (.timedOut "write idle timeout"))

/-- The body that `poll_write` and `poll_write_vectored` share, given the inner stream's answer to
the call of the same name. -/
def pollInner (w : WriteIdleTimeout) (now : ℕ) (inner : Poll (Except ε ℕ)) :
    WriteIdleTimeout × Poll (Except (WriteError ε) ℕ) :=
  if w.timer ≤ now then
    (w, timedOut)
  else
    match inner with
    -- Progress, or an error that will end the connection: this write is no longer stuck.
    | .ready _ => ({ w with timer := now + w.timeout }, passed inner)
    | .pending => (w, passed inner)

def pollWrite (w : WriteIdleTimeout) (now : ℕ) (inner : Poll (Except ε ℕ)) :
    WriteIdleTimeout × Poll (Except (WriteError ε) ℕ) :=
  w.pollInner now inner

def pollWriteVectored (w : WriteIdleTimeout) (now : ℕ) (inner : Poll (Except ε ℕ)) :
    WriteIdleTimeout × Poll (Except (WriteError ε) ℕ) :=
  w.pollInner now inner

def answer (w : WriteIdleTimeout) (p : WritePoll ε) :
    WriteIdleTimeout × Poll (Except (WriteError ε) ℕ) :=
  if p.vectored then w.pollWriteVectored p.now p.inner else w.pollWrite p.now p.inner

lemma passed_ne_timedOut (inner : Poll (Except ε ℕ)) : passed inner ≠ timedOut := by
  cases inner with
  | pending => simp [passed, timedOut]
  | ready result => cases result <;> simp [passed, timedOut, Except.mapError]

end WriteIdleTimeout

open WriteIdleTimeout

variable {ε : Type*}

/-! ## Timed traces -/

/-- A poll together with what it returned. -/
structure AnsweredPoll (ε : Type*) extends WritePoll ε where
  result : Poll (Except (WriteError ε) ℕ)
  deriving DecidableEq

/-- The poll completed a write: the inner stream was asked and was ready, with a count of bytes or
with an error of its own. -/
def AnsweredPoll.completed (o : AnsweredPoll ε) : Bool :=
  match o.result with
  | .pending => false
  | .ready (.error (.timedOut _)) => false
  | .ready _ => true

/-- One poll of a connection.  The state is the adapter and the last instant at which it was
polled; time does not run backwards. -/
def PollStep (s : WriteIdleTimeout × ℕ) (o : AnsweredPoll ε) (s' : WriteIdleTimeout × ℕ) : Prop :=
  s.2 ≤ o.now ∧ s'.2 = o.now ∧ s.1.answer o.toWritePoll = (s'.1, o.result)

/-- The polls of a connection wrapped at `start`, and the adapter after them. -/
def PollTrace (timeout start : ℕ) (polls : List (AnsweredPoll ε)) (s : WriteIdleTimeout × ℕ) :
    Prop :=
  Run PollStep (new start timeout, start) polls s

variable {history : List (AnsweredPoll ε)} {s' : WriteIdleTimeout × ℕ} {o : AnsweredPoll ε}

/-- What one poll does: the timed-out error and nothing else, or the answer of the inner stream
and a timer pushed back if that completed a write. -/
lemma PollStep.cases {s : WriteIdleTimeout × ℕ} (h : PollStep s o s') :
    (s.1.timer ≤ o.now ∧ o.result = timedOut ∧ s'.1 = s.1) ∨
    (o.now < s.1.timer ∧ o.result = passed o.inner ∧
      s'.1 = if o.completed then { s.1 with timer := o.now + s.1.timeout } else s.1) := by
  obtain ⟨-, -, ha⟩ := h
  rw [answer, pollWriteVectored, pollWrite, ite_self] at ha
  unfold pollInner at ha
  by_cases hre : s.1.timer ≤ o.now
  · rw [if_pos hre] at ha
    exact .inl ⟨hre, (Prod.mk.inj ha).2.symm, (Prod.mk.inj ha).1.symm⟩
  · rw [if_neg hre] at ha
    refine .inr ⟨not_le.mp hre, ?_⟩
    cases hinn : o.inner with
    | pending =>
      rw [hinn] at ha
      obtain ⟨hs, hr⟩ := Prod.mk.inj ha
      have ho : o.completed = false := by simp [AnsweredPoll.completed, ← hr, passed]
      exact ⟨hr.symm, by simp [ho, hs]⟩
    | ready result =>
      rw [hinn] at ha
      obtain ⟨hs, hr⟩ := Prod.mk.inj ha
      have hd : o.completed = true := by
        cases result <;> simp [AnsweredPoll.completed, ← hr, passed, Except.mapError]
      exact ⟨hr.symm, by simp [hd, hs]⟩

lemma PollStep.timedOut_iff {s : WriteIdleTimeout × ℕ} (h : PollStep s o s') :
    o.result = timedOut ↔ s.1.timer ≤ o.now := by
  rcases h.cases with ⟨hre, hr, -⟩ | ⟨hw, hr, -⟩
  · exact iff_of_true hr hre
  · refine iff_of_false ?_ (not_le.mpr hw)
    rw [hr]
    exact passed_ne_timedOut o.inner

/-! ## What the timer measures -/

/-- The instant of the last completed write of a history, newest poll first, or the instant of
construction if there was none. -/
def lastCompletion (start : ℕ) : List (AnsweredPoll ε) → ℕ
  | [] => start
  | o :: earlier => if o.completed then o.now else lastCompletion start earlier

/-- The instant of the first poll since the last completed write, for a poll made at `now` after
the given history. -/
def firstSince : List (AnsweredPoll ε) → ℕ → ℕ
  | [], now => now
  | o :: earlier, now => if o.completed then now else firstSince earlier o.now

/-- There is no poll since the last completed write: nothing is waiting to be written. -/
def NothingToWrite (history : List (AnsweredPoll ε)) : Prop :=
  ∀ last ∈ history.head?, last.completed = true

lemma firstSince_of_nothingToWrite (h : NothingToWrite history) (now : ℕ) :
    firstSince history now = now := by
  cases history with
  | nil => rfl
  | cons last earlier => simp [firstSince, h last rfl]

lemma PollTrace.eq_lastCompletion {timeout start : ℕ} {polls : List (AnsweredPoll ε)}
    {s : WriteIdleTimeout × ℕ} (h : PollTrace timeout start polls s) :
    s.1 = { timeout, timer := lastCompletion start polls.reverse + timeout } := by
  induction h with
  | start => rfl
  | @next polls s s' o _ hst ih =>
    rw [reverse_concat]
    rcases hst.cases with ⟨-, hr, hs⟩ | ⟨-, -, hs⟩
    · rw [hs, ih, lastCompletion, if_neg (by simp [AnsweredPoll.completed, hr, timedOut])]
    · rw [hs, lastCompletion]
      split_ifs
      · rw [ih]
      · exact ih

lemma PollTrace.ordered {timeout start : ℕ} {polls : List (AnsweredPoll ε)}
    {s : WriteIdleTimeout × ℕ} (h : PollTrace timeout start polls s) :
    (∀ o ∈ polls.reverse, o.now ≤ s.2) ∧
      polls.reverse.Pairwise fun later earlier => earlier.now ≤ later.now := by
  induction h with
  | start => exact ⟨by simp, .nil⟩
  | @next polls s s' o _ hs ih =>
    obtain ⟨hf, hn, -⟩ := hs
    rw [reverse_concat, hn]
    have hb : ∀ q ∈ polls.reverse, q.now ≤ o.now := fun q hq => (ih.1 q hq).trans hf
    exact ⟨forall_mem_cons.mpr ⟨le_rfl, hb⟩, pairwise_cons.mpr ⟨hb, ih.2⟩⟩

lemma PollTrace.timedOut_iff {timeout start : ℕ} {polls : List (AnsweredPoll ε)}
    {s : WriteIdleTimeout × ℕ} (h : PollTrace timeout start polls s) (hs : PollStep s o s') :
    o.result = timedOut ↔ lastCompletion start polls.reverse + timeout ≤ o.now := by
  rw [hs.timedOut_iff, h.eq_lastCompletion]

/-! ## Stuck writes -/

/-- At `now`, a write has been pending since a poll at least `timeout` earlier, and no write has
completed since that poll. -/
def Stuck (timeout : ℕ) (history : List (AnsweredPoll ε)) (now : ℕ) : Prop :=
  ∃ since q earlier, history = since ++ q :: earlier ∧ q.result = .pending ∧
    (∀ o ∈ since, o.completed = false) ∧ q.now + timeout ≤ now

/-- What the adapter is for, at one poll: the timed-out error is returned only for a stuck write,
and a connection that had nothing to write has its next write passed through. -/
structure PunishesOnlyStuck (timeout : ℕ) (history : List (AnsweredPoll ε)) (o : AnsweredPoll ε) :
    Prop where
  stuck_of_timedOut : o.result = timedOut → Stuck timeout history o.now
  passed_of_nothingToWrite : NothingToWrite history → o.result = passed o.inner

/-- A poll that comes `timeout` or more after the last completed write comes as late after the
first poll since then.  For a poll with nothing waiting before it, that says that it comes within
the timeout. -/
def Prompt (timeout start : ℕ) (history : List (AnsweredPoll ε)) (now : ℕ) : Prop :=
  lastCompletion start history + timeout ≤ now → firstSince history now + timeout ≤ now

lemma firstSince_le {now : ℕ} (hn : ∀ o ∈ history, o.now ≤ now)
    (ho : history.Pairwise fun later earlier => earlier.now ≤ later.now) :
    firstSince history now ≤ now := by
  induction history generalizing now with
  | nil => exact le_rfl
  | cons o earlier ih =>
    obtain ⟨hb, hr⟩ := pairwise_cons.mp ho
    unfold firstSince
    split_ifs
    · exact le_rfl
    · exact (ih hb hr).trans (hn o mem_cons_self)

lemma firstSince_le_of_open {since earlier : List (AnsweredPoll ε)} {q : AnsweredPoll ε} {now : ℕ}
    (ho : (since ++ q :: earlier).Pairwise fun later earlier => earlier.now ≤ later.now)
    (hs : ∀ o ∈ since, o.completed = false) (hq : q.completed = false) :
    firstSince (since ++ q :: earlier) now ≤ q.now := by
  induction since generalizing now with
  | nil =>
    obtain ⟨hb, hr⟩ := pairwise_cons.mp ho
    simp only [nil_append, firstSince, hq]
    exact firstSince_le hb hr
  | cons o since ih =>
    simp only [cons_append, firstSince, hs o mem_cons_self]
    exact ih ho.of_cons fun o' ho' => hs o' (mem_cons_of_mem o ho')

/-- `firstSince` is the instant of a poll before which there was nothing to write, unless there is
nothing to write now. -/
lemma exists_first (now : ℕ) (h : ¬ NothingToWrite history) :
    ∃ since q earlier, history = since ++ q :: earlier ∧ (∀ o ∈ since, o.completed = false) ∧
      q.completed = false ∧ NothingToWrite earlier ∧ firstSince history now = q.now := by
  induction history generalizing now with
  | nil => simp [NothingToWrite] at h
  | cons o rest ih =>
    have ho : o.completed = false := by simpa [NothingToWrite] using h
    by_cases hr : NothingToWrite rest
    · refine ⟨[], o, rest, rfl, by simp, ho, hr, ?_⟩
      simp [firstSince, ho, firstSince_of_nothingToWrite hr]
    · obtain ⟨since, q, earlier, rfl, hs, hq, he, hf⟩ := ih o.now hr
      refine ⟨o :: since, q, earlier, rfl, forall_mem_cons.mpr ⟨ho, hs⟩, hq, he, ?_⟩
      simp [firstSince, ho, hf]

lemma AnsweredPoll.pending_of_open {s : WriteIdleTimeout × ℕ} (hs : PollStep s o s')
    (ho : o.completed = false) (ht : o.result ≠ timedOut) : o.result = .pending := by
  rcases hs.cases with ⟨-, hr, -⟩ | ⟨-, hr, -⟩
  · exact absurd hr ht
  · cases hinn : o.inner with
    | pending => rw [hr, hinn, passed]
    | ready result =>
      rw [hinn] at hr
      cases result <;> simp [AnsweredPoll.completed, hr, passed, Except.mapError] at ho

section

variable {timeout start : ℕ} {polls : List (AnsweredPoll ε)} {s : WriteIdleTimeout × ℕ}

variable {s' : WriteIdleTimeout × ℕ} {o : AnsweredPoll ε}

lemma PunishesOnlyStuck.prompt (ht : PollTrace timeout start polls s) (hst : PollStep s o s')
    (h : PunishesOnlyStuck timeout polls.reverse o) : Prompt timeout start polls.reverse o.now := by
  intro hl
  obtain ⟨since, q, earlier, hsp, hq, hs, hol⟩ := h.stuck_of_timedOut ((ht.timedOut_iff hst).mpr hl)
  have ho := ht.ordered.2
  rw [hsp] at ho ⊢
  have hf : firstSince (since ++ q :: earlier) o.now ≤ q.now :=
    firstSince_le_of_open ho hs (by simp [AnsweredPoll.completed, hq])
  omega

lemma not_timedOut_of_prompt (hpo : 0 < timeout) (ht : PollTrace timeout start polls s)
    (hs : PollStep s o s') (hp : Prompt timeout start polls.reverse o.now)
    (hid : NothingToWrite polls.reverse) : o.result ≠ timedOut := by
  intro hti
  have hl := hp ((ht.timedOut_iff hs).mp hti)
  rw [firstSince_of_nothingToWrite hid] at hl
  omega

/-- For a trace whose polls are all prompt, a poll that times out finds a stuck write: the first
poll since the last completed write had nothing waiting before it, so it was left pending. -/
lemma stuck_of_prompt (hpos : 0 < timeout) (ht : PollTrace timeout start polls s)
    (hst : PollStep s o s') (hp : Prompt timeout start polls.reverse o.now)
    (hb : ∀ before q after, polls = before ++ q :: after →
      Prompt timeout start before.reverse q.now)
    (hti : o.result = timedOut) : Stuck timeout polls.reverse o.now := by
  have hl : firstSince polls.reverse o.now + timeout ≤ o.now := hp ((ht.timedOut_iff hst).mp hti)
  have hw : ¬ NothingToWrite polls.reverse := fun hid =>
    not_timedOut_of_prompt hpos ht hst hp hid hti
  obtain ⟨since, q, earlier, hs, hsi, ho, hid, hf⟩ := exists_first o.now hw
  refine ⟨since, q, earlier, hs, ?_, hsi, hf ▸ hl⟩
  have hpo : polls = earlier.reverse ++ q :: since.reverse := by
    rw [← reverse_reverse polls, hs]
    simp
  obtain ⟨s₁, s₂, he, hq, -⟩ := Run.split (hpo ▸ ht)
  refine AnsweredPoll.pending_of_open hq ho ?_
  exact not_timedOut_of_prompt hpos he hq (hb _ _ _ hpo) (by simpa using hid)

/-- The adapter punishes only stuck writes in exactly the traces whose polls are all prompt. -/
theorem timed_out_only_when_stuck_iff (hpos : 0 < timeout)
    (htrace : PollTrace timeout start polls s) :
    (∀ before o after, polls = before ++ o :: after →
      PunishesOnlyStuck timeout before.reverse o) ↔
    (∀ before o after, polls = before ++ o :: after →
      Prompt timeout start before.reverse o.now) := by
  constructor
  · rintro h before o after rfl
    obtain ⟨s₁, s₂, hb, hs, -⟩ := Run.split htrace
    exact (h before o after rfl).prompt hb hs
  · rintro h before o after rfl
    obtain ⟨s₁, s₂, hb, hs, -⟩ := Run.split htrace
    have hp := h before o after rfl
    constructor
    · refine stuck_of_prompt hpos hb hs hp fun before' q after' hsp => ?_
      refine h before' q (after' ++ o :: after) ?_
      rw [hsp, append_assoc, cons_append]
    · intro hid
      have ht := not_timedOut_of_prompt hpos hb hs hp hid
      rcases hs.cases with ⟨-, hr, -⟩ | ⟨-, hr, -⟩
      · exact absurd hr ht
      · exact hr

end

/-- A poll at `now` of a stream that takes 120 bytes at once, and its result. -/
def pollWritable (now : ℕ) (result : Poll (Except (WriteError Unit) ℕ)) : AnsweredPoll Unit :=
  { vectored := false, now, inner := .ready (.ok 120), result }

/-- A poll at `now` of a stream whose peer has stopped reading, and its result. -/
def pollFull (now : ℕ) (result : Poll (Except (WriteError Unit) ℕ)) : AnsweredPoll Unit :=
  { vectored := true, now, inner := .pending, result }

/-- A connection whose second write stalls: written at 5, pending from 8 on, timed out at 18 with
a timeout of 10. -/
theorem timed_out_only_when_stuck_stalled :
    ∃ polls s, PollTrace 10 0 polls s ∧ pollFull 18 timedOut ∈ polls ∧
      ∀ before o after, polls = before ++ o :: after →
        PunishesOnlyStuck 10 before.reverse o := by
  have hw : PollTrace 10 0 [pollWritable 5 (.ready (.ok 120))] (⟨10, 15⟩, 5) :=
    Run.start.next ⟨by decide, rfl, rfl⟩
  have hp : PollTrace 10 0 [pollWritable 5 (.ready (.ok 120)), pollFull 8 .pending]
      (⟨10, 15⟩, 8) :=
    hw.next ⟨by decide, rfl, rfl⟩
  have ht : PollTrace 10 0
      [pollWritable 5 (.ready (.ok 120)), pollFull 8 .pending, pollFull 18 timedOut]
      (⟨10, 15⟩, 18) :=
    hp.next ⟨by decide, rfl, rfl⟩
  refine ⟨_, _, ht, by simp, ?_⟩
  refine (timed_out_only_when_stuck_iff (by decide) ht).mpr fun before o after hs => ?_
  -- One case for each poll of the trace; only the last comes late, and not after its first poll.
  rcases before with _ | ⟨_, _ | ⟨_, _ | ⟨_, _⟩⟩⟩
  · cases hs
    simp [Prompt, lastCompletion, pollWritable]
  · cases hs
    simp [Prompt, lastCompletion, AnsweredPoll.completed, pollWritable, pollFull]
  · cases hs
    simp [Prompt, firstSince, AnsweredPoll.completed, pollWritable, pollFull]
  · simp at hs

/-- A keep-alive connection: the first response is written at 100, the next one is ready 30 seconds
later.  Nothing was ever pending, yet the second write is answered with the timed-out error. -/
theorem idle_connection_times_out :
    ∃ (before : List (AnsweredPoll Unit)) (o : AnsweredPoll Unit) (s : WriteIdleTimeout × ℕ),
      PollTrace 30000 0 (before ++ [o]) s ∧
      (∀ q ∈ before ++ [o], q.inner = .ready (.ok 120)) ∧ NothingToWrite before.reverse ∧
      o.result = timedOut ∧ ¬ PunishesOnlyStuck 30000 before.reverse o := by
  have hw : PollTrace 30000 0 [pollWritable 100 (.ready (.ok 120))] (⟨30000, 30100⟩, 100) :=
    Run.start.next ⟨by decide, rfl, rfl⟩
  have ht : PollTrace 30000 0
      ([pollWritable 100 (.ready (.ok 120))] ++ [pollWritable 30100 timedOut])
      (⟨30000, 30100⟩, 30100) :=
    hw.next ⟨by decide, rfl, rfl⟩
  have hid : NothingToWrite [pollWritable 100 (.ready (.ok 120))].reverse := by
    simp [NothingToWrite, AnsweredPoll.completed, pollWritable]
  refine ⟨_, _, _, ht, by simp [pollWritable], hid, rfl, fun h => ?_⟩
  exact absurd (h.passed_of_nothingToWrite hid).symm (passed_ne_timedOut _)

end LoadBalancer.Server
