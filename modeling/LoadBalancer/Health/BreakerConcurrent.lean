import LoadBalancer.Health.CircuitBreaker
import LoadBalancer.Lib.Interleaving

/-!
# Circuit breakers under concurrent calls

The breaker has no lock: its state, its two counters, the time it opened, the streak and the time
it closed are separate atomics, and a transition is a compare-exchange on the state followed by
stores to the others.  `BreakerThread` has one program point before each access, and before each
reading of the clock.

The shared state carries three history variables that no call reads: when the current open episode
began, the number of half-open episodes, and how many successes were added in the current one by
calls that found it half open.

Between a compare-exchange and the stores that belong to it, a state call may read the opening time
of an earlier episode, or finish an exchange it prepared in an earlier episode; a success may be
added after the episode it was meant for.  The result on the cooldown here, and that on the
recovery in `BreakerRecovery`, name the schedules in which this does not happen.
-/

namespace LoadBalancer.Health

open Interleaving Function

/-- The breaker, the clock, and the history variables. -/
structure SharedBreaker where
  breaker : CircuitBreaker
  clock : ℕ
  /-- The clock reading at the last transition into `opened`. -/
  trippedAt : ℕ
  /-- The number of transitions into `halfOpen`. -/
  episode : ℕ
  /-- The successes added in the current half-open episode by calls that loaded its state. -/
  added : ℕ

namespace SharedBreaker

def new : SharedBreaker := ⟨.new, 0, 0, 0, 0⟩

variable (s : SharedBreaker)

def store (f : CircuitBreaker → CircuitBreaker) : SharedBreaker := { s with breaker := f s.breaker }

def enterOpened : SharedBreaker :=
  { s.store fun b => { b with state := .opened } with trippedAt := s.clock }

def enterHalfOpen : SharedBreaker :=
  { s.store fun b => { b with state := .halfOpen } with episode := s.episode + 1, added := 0 }

/-- The addition of a success by a call that found the breaker half open in `loadedIn`. -/
def addSuccess (loadedIn : ℕ) : SharedBreaker :=
  { s.store fun b => { b with consecutiveSuccesses := (b.consecutiveSuccesses + 1) % 2 ^ 32 } with
    added := if s.breaker.state = .halfOpen ∧ loadedIn = s.episode then s.added + 1 else s.added }

end SharedBreaker

/-- Where a call is: each constructor is the point before an access to an atomic or to the
clock. -/
inductive BreakerThread
  /-- Time passes: the clock comes to at least `reading`. -/
  | tick (reading : ℕ)
  /-- `state`: before the first load of the state. -/
  | queryLoad
  /-- `state`: the state was open; before the load of `opened_at_nanos`. -/
  | queryOpenedAt
  /-- `state`: before the clock is read. -/
  | queryClock (openedAt : ℕ)
  /-- `state`: before the load of `trip_streak`. -/
  | queryStreak (openedAt now : ℕ)
  /-- `state`: the cooldown is over; before the exchange of open for half-open. -/
  | queryExchange (now : ℕ)
  /-- `state`: before the load that is returned. -/
  | queryResult
  /-- `record_success`: before `consecutive_failures` is cleared. -/
  | successClear
  /-- `record_success`: before the load of the state. -/
  | successLoad
  /-- `record_success`: the state was half-open, in the given episode; before `fetch_add`. -/
  | successAdd (loadedIn : ℕ)
  /-- `record_success`: enough successes; before the exchange of half-open for closed. -/
  | successExchange (loadedIn : ℕ)
  /-- `record_success`: before `consecutive_successes` is cleared. -/
  | successReset (closed : Bool)
  /-- `record_success`: before the clock is read. -/
  | successClock
  /-- `record_success`: before `closed_since_nanos` is stored. -/
  | successStamp (nanos : ℕ)
  /-- `record_failure`: before the load of the state. -/
  | failureLoad
  /-- `record_failure`: the state was closed; before `fetch_add`. -/
  | failureAdd
  /-- `try_trip`: before the exchange of `expected` for open. -/
  | tripExchange (expected : CircuitState)
  /-- `try_trip`: the exchange succeeded; before the clock is read. -/
  | tripClock
  /-- `try_trip`: before `opened_at_nanos` is stored. -/
  | tripOpenedAt (nanos : ℕ)
  /-- `try_trip`: before `consecutive_failures` is cleared. -/
  | tripFailures (nanos : ℕ)
  /-- `try_trip`: before `consecutive_successes` is cleared. -/
  | tripSuccesses (nanos : ℕ)
  /-- `try_trip`: before the load of `closed_since_nanos`. -/
  | tripClosedSince (nanos : ℕ)
  /-- `try_trip`: a new streak; before `trip_streak` is cleared. -/
  | tripStreakReset
  /-- `try_trip`: before `trip_streak` is incremented. -/
  | tripStreakAdd
  deriving DecidableEq

namespace BreakerThread

def next (cfg : BreakerSettings) (s : SharedBreaker) : BreakerThread →
    SharedBreaker × Option BreakerThread
  | tick reading => ({ s with clock := max s.clock reading }, none)
  | queryLoad =>
    if s.breaker.state ≠ .opened then (s, some queryResult) else (s, some queryOpenedAt)
  | queryOpenedAt =>
    if s.breaker.openedAtNanos = notOpened then (s, some queryResult)
    else (s, some (queryClock s.breaker.openedAtNanos))
  | queryClock openedAt => (s, some (queryStreak openedAt s.clock))
  | queryStreak openedAt now =>
    if CircuitBreaker.effectiveCooldown cfg s.breaker.tripStreak ≤ now - openedAt then
      (s, some (queryExchange now))
    else (s, some queryResult)
  | queryExchange _ =>
    (if s.breaker.state = .opened then s.enterHalfOpen else s, some queryResult)
  | queryResult => (s, none)
  | successClear => (s.store fun b => { b with consecutiveFailures := 0 }, some successLoad)
  | successLoad =>
    if s.breaker.state ≠ .halfOpen then (s, none) else (s, some (successAdd s.episode))
  | successAdd loadedIn =>
    (s.addSuccess loadedIn,
      if cfg.halfOpenSuccessesRequired ≤ (s.breaker.consecutiveSuccesses + 1) % 2 ^ 32 then
        some (successExchange loadedIn)
      else none)
  | successExchange _ =>
    if s.breaker.state = .halfOpen then
      (s.store fun b => { b with state := .closed }, some (successReset true))
    else (s, some (successReset false))
  | successReset closed =>
    (s.store fun b => { b with consecutiveSuccesses := 0 },
      if closed then some successClock else none)
  | successClock => (s, some (successStamp (s.clock % 2 ^ 64)))
  | successStamp nanos => (s.store fun b => { b with closedSinceNanos := nanos }, none)
  | failureLoad =>
    match s.breaker.state with
    | .opened => (s, none)
    | .halfOpen => (s, some (tripExchange .halfOpen))
    | .closed => (s, some failureAdd)
  | failureAdd =>
    (s.store fun b => { b with consecutiveFailures := (b.consecutiveFailures + 1) % 2 ^ 32 },
      if cfg.failureThreshold ≤ (s.breaker.consecutiveFailures + 1) % 2 ^ 32 then
        some (tripExchange .closed)
      else none)
  | tripExchange expected =>
    if s.breaker.state = expected then (s.enterOpened, some tripClock) else (s, none)
  | tripClock => (s, some (tripOpenedAt (s.clock % 2 ^ 64)))
  | tripOpenedAt nanos =>
    (s.store fun b => { b with openedAtNanos := nanos }, some (tripFailures nanos))
  | tripFailures nanos =>
    (s.store fun b => { b with consecutiveFailures := 0 }, some (tripSuccesses nanos))
  | tripSuccesses nanos =>
    (s.store fun b => { b with consecutiveSuccesses := 0 }, some (tripClosedSince nanos))
  | tripClosedSince nanos =>
    if cfg.flapStreakReset ≤ nanos - s.breaker.closedSinceNanos then (s, some tripStreakReset)
    else (s, some tripStreakAdd)
  | tripStreakReset => (s.store fun b => { b with tripStreak := 0 }, some tripStreakAdd)
  | tripStreakAdd =>
    (s.store fun b => { b with tripStreak := (b.tripStreak + 1) % 2 ^ 32 }, none)

/-- The points at which calls start, and the passing of time. -/
def starts : BreakerThread → Bool
  | tick _ => true
  | queryLoad => true
  | successClear => true
  | failureLoad => true
  | _ => false

def Step (cfg : BreakerSettings) : Config SharedBreaker BreakerThread → Event BreakerThread →
    Config SharedBreaker BreakerThread → Prop :=
  Interleaving.Step (fun t => t.starts = true) (stepOf (next cfg))

/-! ### Calls without interference -/

section

variable (cfg : BreakerSettings) (s : SharedBreaker)

lemma alone_queryLoad : ∃ s', Alone (stepOf (next cfg)) s queryLoad s' ∧
    s'.breaker = (s.breaker.queryState cfg s.clock).2 := by
  have hr : ∀ s', Alone (stepOf (next cfg)) s' queryResult s' := fun _ => .last rfl
  rw [CircuitBreaker.queryState, CircuitBreaker.maybeTransitionToHalfOpen]
  split_ifs with hs ho hd
  · exact ⟨s, .more (if_pos hs) (hr s), rfl⟩
  · exact ⟨s, .more (if_neg hs) (.more (if_pos ho) (hr s)), rfl⟩
  · exact ⟨s.enterHalfOpen, .more (if_neg hs) (.more (if_neg ho) (.more rfl
      (.more (if_pos hd) (.more (congrArg (·, _) (if_pos (not_not.mp hs)))
        (hr _))))), rfl⟩
  · exact ⟨s, .more (if_neg hs) (.more (if_neg ho) (.more rfl
      (.more (if_neg hd) (hr s)))), rfl⟩

/-- The steps of a success, from the load of the state on. -/
lemma alone_successLoad : ∃ s', Alone (stepOf (next cfg)) s successLoad s' ∧
    s'.breaker = if s.breaker.state ≠ .halfOpen then s.breaker
      else if cfg.halfOpenSuccessesRequired ≤ (s.breaker.consecutiveSuccesses + 1) % 2 ^ 32 then
        { s.breaker with
          state := .closed, consecutiveSuccesses := 0, closedSinceNanos := s.clock % 2 ^ 64 }
      else { s.breaker with
        consecutiveSuccesses := (s.breaker.consecutiveSuccesses + 1) % 2 ^ 32 } := by
  split_ifs with hs hr
  · exact ⟨s, .last (if_pos hs), rfl⟩
  · exact ⟨_, .more (if_neg hs) (.more (congrArg (_, ·) (if_pos hr))
      (.more (if_pos (not_not.mp hs)) (.more rfl (.more rfl (.last rfl))))), rfl⟩
  · exact ⟨_, .more (if_neg hs) (.last (congrArg (_, ·) (if_neg hr))), rfl⟩

lemma alone_successClear : ∃ s', Alone (stepOf (next cfg)) s successClear s' ∧
    s'.breaker = s.breaker.recordSuccess cfg s.clock := by
  obtain ⟨s', ha, hs'⟩ :=
    alone_successLoad cfg (s.store fun b => { b with consecutiveFailures := 0 })
  exact ⟨s', .more rfl ha, hs'⟩

/-- The steps of a trip, from its exchange on. -/
lemma alone_tripExchange (expected : CircuitState) :
    ∃ s', Alone (stepOf (next cfg)) s (tripExchange expected) s' ∧
      s'.breaker = s.breaker.tryTrip cfg expected s.clock := by
  rw [CircuitBreaker.tryTrip, CircuitBreaker.tripped]
  split_ifs with hs hr
  · exact ⟨s, .last (if_neg hs), rfl⟩
  · exact ⟨_, .more (if_pos (not_not.mp hs)) (.more rfl (.more rfl (.more rfl (.more rfl
      (.more (if_pos hr) (.more rfl (.last rfl))))))), rfl⟩
  · exact ⟨_, .more (if_pos (not_not.mp hs)) (.more rfl (.more rfl (.more rfl (.more rfl
      (.more (if_neg hr) (.last rfl)))))), rfl⟩

/-- The steps of a failure that found the breaker closed. -/
lemma alone_failureAdd : ∃ s', Alone (stepOf (next cfg)) s failureAdd s' ∧
    s'.breaker =
      let b := { s.breaker with
        consecutiveFailures := (s.breaker.consecutiveFailures + 1) % 2 ^ 32 }
      if cfg.failureThreshold ≤ (s.breaker.consecutiveFailures + 1) % 2 ^ 32 then
        b.tryTrip cfg .closed s.clock
      else b := by
  split_ifs with ht
  · obtain ⟨s', ha, hs'⟩ := alone_tripExchange cfg (s.store fun b =>
      { b with consecutiveFailures := (b.consecutiveFailures + 1) % 2 ^ 32 }) .closed
    exact ⟨s', .more (congrArg (_, ·) (if_pos ht)) ha, hs'⟩
  · exact ⟨_, .last (congrArg (_, ·) (if_neg ht)), rfl⟩

lemma alone_failureLoad : ∃ s', Alone (stepOf (next cfg)) s failureLoad s' ∧
    s'.breaker = s.breaker.recordFailure cfg s.clock := by
  obtain ⟨b, clock, trippedAt, episode, added⟩ := s
  obtain ⟨failures, successes, state, openedAt, streak, closedSince⟩ := b
  cases state with
  | opened => exact ⟨_, .last rfl, rfl⟩
  | halfOpen =>
    obtain ⟨s', ha, hs'⟩ := alone_tripExchange cfg _ .halfOpen
    exact ⟨s', .more rfl ha, hs'⟩
  | closed =>
    obtain ⟨s', ha, hs'⟩ := alone_failureAdd cfg _
    exact ⟨s', .more rfl ha, hs'⟩

/-- **Calls that nothing disturbs are atomic**: the accesses of each of the three calls, one after
the other, leave the breaker that the call leaves in the sequential model. -/
theorem undisturbed_calls_sequential :
    (∃ s', Alone (stepOf (next cfg)) s successClear s' ∧
      s'.breaker = s.breaker.recordSuccess cfg s.clock) ∧
    (∃ s', Alone (stepOf (next cfg)) s failureLoad s' ∧
      s'.breaker = s.breaker.recordFailure cfg s.clock) ∧
    (∃ s', Alone (stepOf (next cfg)) s queryLoad s' ∧
      s'.breaker = (s.breaker.queryState cfg s.clock).2) :=
  ⟨alone_successClear cfg s, alone_failureLoad cfg s, alone_queryLoad cfg s⟩

end

/-! ## The cooldown -/

/-- A trip that has published the open state and not yet its opening time. -/
def IsPending : BreakerThread → Prop
  | tripClock => True
  | tripOpenedAt _ => True
  | _ => False

/-- A state call that has loaded an opening time and not yet tried its exchange. -/
def IsTimed : BreakerThread → Prop
  | queryClock _ => True
  | queryStreak _ _ => True
  | queryExchange _ => True
  | _ => False

/-- The schedules in which a breaker stays open for its cooldown: no trip succeeds while a state
call is between its load of the opening time and its exchange, and no state call loads the opening
time of an earlier episode because that of the current one is not stored yet.  The clock stays
within 64 bits. -/
def KeepsCooldown (c : Config SharedBreaker BreakerThread) : Event BreakerThread → Prop
  | .spawn _ t => ∀ reading, t = tick reading → reading < 2 ^ 64
  | .step i =>
    (∀ expected, c.threads i = some (tripExchange expected) → c.shared.breaker.state = expected →
      ∀ j, ∀ t ∈ c.threads j, ¬ t.IsTimed) ∧
    (c.threads i = some queryOpenedAt → c.shared.breaker.openedAtNanos ≠ notOpened →
      ∀ j, ∀ t ∈ c.threads j, ¬ t.IsPending)

def Relies (cfg : BreakerSettings) (s : SharedBreaker) : BreakerThread → Prop
  | tick reading => reading < 2 ^ 64
  | queryClock openedAt => s.breaker.state = .opened → s.trippedAt ≤ openedAt
  | queryStreak openedAt now => now ≤ s.clock ∧
    (s.breaker.state = .opened → s.trippedAt ≤ openedAt ∧ s.trippedAt ≤ now)
  | queryExchange now => now ≤ s.clock ∧
    (s.breaker.state = .opened → s.trippedAt + cfg.cooldown ≤ now)
  | tripExchange expected => expected ≠ .opened
  | tripClock => s.breaker.state = .opened
  | tripOpenedAt nanos => s.breaker.state = .opened ∧ s.trippedAt ≤ nanos
  | _ => True

/-- The invariant: the stored opening time is that of the current episode unless a trip is about
to store it, there is at most one such trip, and then no state call is under way that has read an
older time. -/
structure Timely (cfg : BreakerSettings) (c : Config SharedBreaker BreakerThread) : Prop where
  clock_lt : c.shared.clock < 2 ^ 64
  trippedAt_le : c.shared.trippedAt ≤ c.shared.clock
  fresh : c.shared.breaker.state = .opened → (∀ i, ∀ t ∈ c.threads i, ¬ t.IsPending) →
    c.shared.trippedAt ≤ c.shared.breaker.openedAtNanos
  relies : ∀ i, ∀ t ∈ c.threads i, t.Relies cfg c.shared
  apart : Apart c.threads IsPending IsTimed
  unique : ∀ i, ∀ t ∈ c.threads i, t.IsPending → ∀ j, ∀ t' ∈ c.threads j, t'.IsPending → j = i

variable {cfg : BreakerSettings} {c : Config SharedBreaker BreakerThread} {s s' : SharedBreaker}
  {i : ℕ} {t : BreakerThread} {t' : Option BreakerThread}

lemma IsTimed.not_isPending (h : t.IsTimed) : ¬ t.IsPending := by
  cases t <;> first | exact id | exact fun _ => h

variable {e : Event BreakerThread}
  (hbase : ∀ streak, cfg.cooldown ≤ CircuitBreaker.effectiveCooldown cfg streak) (h : Timely cfg c)

include h

lemma Timely.move (hc : s'.clock < 2 ^ 64) (htr : s'.trippedAt ≤ s'.clock)
    (hf : s'.breaker.state = .opened → (∀ q ∈ t', ¬ q.IsPending) →
      (∀ j ≠ i, ∀ q ∈ c.threads j, ¬ q.IsPending) → s'.trippedAt ≤ s'.breaker.openedAtNanos)
    (how : ∀ q ∈ t', q.Relies cfg s') (ho : ∀ j ≠ i, ∀ q ∈ c.threads j, q.Relies cfg s')
    (hpe : ∀ q ∈ t', q.IsPending → ∀ j ≠ i, ∀ r ∈ c.threads j, ¬ r.IsPending ∧ ¬ r.IsTimed)
    (hti : ∀ q ∈ t', q.IsTimed → ∀ j ≠ i, ∀ r ∈ c.threads j, ¬ r.IsPending) :
    Timely cfg ⟨s', update c.threads i t'⟩ where
  clock_lt := hc
  trippedAt_le := htr
  fresh hs hn := hf hs
    (fun q hq => hn i q (mem_update_iff.mpr (Or.inl ⟨rfl, hq⟩)))
    (fun j hne q hq => hn j q (mem_update_iff.mpr (Or.inr ⟨hne, hq⟩)))
  relies := forall_update how ho
  apart := h.apart.update (fun _ hp ht => ht.not_isPending hp)
    (fun q hq hp j hne r hr => (hpe q hq hp j hne r hr).2) hti
  unique j q hq hqp k r hr hrp := by
    obtain ⟨rfl, hq'⟩ | ⟨hne, hq⟩ := mem_update_iff.mp hq
    · obtain ⟨rfl, -⟩ | ⟨hne', hr⟩ := mem_update_iff.mp hr
      · rfl
      · exact absurd hrp (hpe q hq' hqp k hne' r hr).1
    · obtain ⟨-, hr⟩ | ⟨-, hr⟩ := mem_update_iff.mp hr
      · exact absurd hqp (hpe r hr hrp j hne q hq).1
      · exact h.unique j q hq hqp k r hr hrp

omit h

lemma Relies.congr (h : t.Relies cfg s) (hs : s'.breaker.state = s.breaker.state)
    (ht : s'.trippedAt = s.trippedAt) (hc : s.clock ≤ s'.clock) : t.Relies cfg s' := by
  cases t <;> first | trivial | skip
  all_goals unfold Relies at h ⊢
  all_goals simp only [hs, ht] at *
  all_goals first | exact h | exact ⟨h.1.trans hc, h.2⟩

include h

lemma Timely.pending_opened (hi : t ∈ c.threads i) (hp : t.IsPending) :
    c.shared.breaker.state = .opened := by
  have hr := h.relies i t hi
  cases t with
  | tripClock => exact hr
  | tripOpenedAt nanos => exact hr.1
  | _ => exact absurd hp id

/-- While a state call has read the opening time, no trip is about to store one. -/
lemma Timely.not_pending_of_timed (hi : c.threads i = some t) (ht : t.IsTimed) :
    ∀ j, ∀ q ∈ c.threads j, ¬ q.IsPending :=
  fun j q hq hp => h.apart j q hq hp i t hi ht

omit h

lemma Relies.of_idle (h : t.Relies cfg s) (hp : ¬ t.IsPending) (ht : ¬ t.IsTimed)
    (s' : SharedBreaker) : t.Relies cfg s' := by
  cases t <;> simp_all [Relies, IsPending, IsTimed]

/-- A step that concerns neither the state nor the times. -/
structure Calm (cfg : BreakerSettings) (s : SharedBreaker) (t : BreakerThread) (s' : SharedBreaker)
    (t' : Option BreakerThread) : Prop where
  state_eq : s'.breaker.state = s.breaker.state
  openedAt_eq : s'.breaker.openedAtNanos = s.breaker.openedAtNanos
  trippedAt_eq : s'.trippedAt = s.trippedAt
  clock_eq : s'.clock = s.clock
  not_pending : ¬ t.IsPending
  own : ∀ q ∈ t', ¬ q.IsPending ∧ ¬ q.IsTimed ∧ q.Relies cfg s'

include h

lemma Timely.calm (hi : c.threads i = some t) (hca : Calm cfg c.shared t s' t') :
    Timely cfg ⟨s', update c.threads i t'⟩ := by
  obtain ⟨hst, ho, htr, hc, hno, how⟩ := hca
  refine h.move (hc ▸ h.clock_lt) (htr ▸ hc ▸ h.trippedAt_le) ?_
    (fun q hq => (how q hq).2.2) ?_ (fun q hq hp => absurd hp (how q hq).1)
    (fun q hq ht => absurd ht (how q hq).2.1)
  · intro hs _ hn
    rw [htr, ho]
    exact h.fresh (hst ▸ hs) (forall_of_others hi hno hn)
  · intro j _ q hq
    exact (h.relies j q hq).congr hst htr hc.ge

/-- The points at which the steps of a call are calm. -/
def IsCalm : BreakerThread → Prop
  | tick _ | queryOpenedAt | queryClock _ | queryStreak _ _ | queryExchange _ => False
  | successExchange _ | tripExchange _ | tripClock | tripOpenedAt _ => False
  | _ => True

omit h

lemma calm_next (cfg : BreakerSettings) (s : SharedBreaker) (h : t.IsCalm) :
    Calm cfg s t (next cfg s t).1 (next cfg s t).2 := by
  cases t with
  -- Where the call goes on depends on what it read.
  | queryLoad | successLoad | successAdd | successReset | failureAdd | tripClosedSince =>
    rw [next]
    split_ifs <;> exact ⟨rfl, rfl, rfl, rfl, id, by simp [IsPending, IsTimed, Relies]⟩
  | failureLoad =>
    rw [next]
    cases s.breaker.state <;> exact ⟨rfl, rfl, rfl, rfl, id, by simp [IsPending, IsTimed, Relies]⟩
  | successClear | successClock | tripFailures | tripSuccesses | tripStreakReset =>
    exact ⟨rfl, rfl, rfl, rfl, id, by simp [next, IsPending, IsTimed, Relies]⟩
  -- The last step of a call.
  | queryResult | successStamp | tripStreakAdd => exact ⟨rfl, rfl, rfl, rfl, id, by simp [next]⟩
  | _ => exact absurd h id

include h

lemma Timely.leave (hst : s'.breaker.state ≠ .opened)
    (htr : s'.trippedAt = c.shared.trippedAt) (hc : s'.clock = c.shared.clock)
    (hn : ∀ j, ∀ q ∈ c.threads j, ¬ q.IsPending)
    (ho : ∀ q ∈ t', ¬ q.IsPending ∧ ¬ q.IsTimed ∧ q.Relies cfg s') :
    Timely cfg ⟨s', update c.threads i t'⟩ := by
  refine h.move (hc ▸ h.clock_lt) (htr ▸ hc ▸ h.trippedAt_le)
    (fun hs => absurd hs hst) (fun q hq => (ho q hq).2.2) ?_
    (fun q hq hp => absurd hp (ho q hq).1) (fun q hq ht => absurd ht (ho q hq).2.1)
  intro j _ q hq
  have hr := h.relies j q hq
  cases q with
  | queryClock openedAt => exact fun hs => absurd hs hst
  | queryStreak | queryExchange => exact ⟨hc ▸ hr.1, fun hs => absurd hs hst⟩
  | _ => exact hr.of_idle (hn j _ hq) id s'

/-- A step of a state call on its way to the exchange: the shared state stays, and nobody else is
about to store an opening time. -/
lemma Timely.query {t' : BreakerThread} (hn : ∀ j, ∀ q ∈ c.threads j, ¬ q.IsPending)
    (hpe : ¬ t'.IsPending) (hre : t'.Relies cfg c.shared) :
    Timely cfg ⟨c.shared, update c.threads i (some t')⟩ := by
  refine h.move h.clock_lt h.trippedAt_le (fun hs _ _ => h.fresh hs hn) ?_
    (fun j _ q hq => h.relies j q hq) ?_ fun q _ _ j _ r hr => hn j r hr
  · intro q hq
    exact Option.some.inj hq ▸ hre
  · intro q hq hp
    exact absurd hp (Option.some.inj hq ▸ hpe)

lemma Timely.tick {reading : ℕ} (hi : c.threads i = some (.tick reading)) :
    Timely cfg ⟨{ c.shared with clock := max c.shared.clock reading },
      update c.threads i none⟩ := by
  have hr : reading < 2 ^ 64 := h.relies i _ hi
  refine h.move (max_lt h.clock_lt hr) (le_max_of_le_left h.trippedAt_le) ?_
    (fun q hq => by cases hq) ?_ (fun q hq => by cases hq) fun q hq => by cases hq
  · intro hs _ hn
    exact h.fresh hs (forall_of_others (I := fun q => ¬ q.IsPending) hi id hn)
  · intro j _ q hq
    exact (h.relies j q hq).congr rfl rfl (le_max_left _ _)

/-- A trip whose exchange succeeds while no state call has read an opening time and no other trip
is about to store one. -/
lemma Timely.trip (hn : ∀ j, ∀ q ∈ c.threads j, ¬ q.IsPending)
    (hqu : ∀ j, ∀ q ∈ c.threads j, ¬ q.IsTimed) :
    Timely cfg ⟨c.shared.enterOpened, update c.threads i (some tripClock)⟩ := by
  refine h.move h.clock_lt le_rfl (fun _ ho => absurd trivial (ho _ rfl)) ?_ ?_ ?_ ?_
  · intro q hq
    exact Option.some.inj hq ▸ rfl
  · intro j _ q hq
    exact (h.relies j q hq).of_idle (hn j q hq) (hqu j q hq) _
  · intro _ _ _ j _ r hr
    exact ⟨hn j r hr, hqu j r hr⟩
  · intro _ _ _ j _ r hr
    exact hn j r hr

include hbase

lemma Timely.step (hok : KeepsCooldown c (.step i)) (hi : c.threads i = some t) :
    Timely cfg ⟨(next cfg c.shared t).1, update c.threads i (next cfg c.shared t).2⟩ := by
  by_cases hc : t.IsCalm
  · exact h.calm hi (calm_next cfg _ hc)
  have hre := h.relies i t hi
  cases t with
  | tick reading => exact h.tick hi
  | queryOpenedAt =>
    rw [next]
    split_ifs with ho
    · exact h.calm hi ⟨rfl, rfl, rfl, rfl, id, by simp [IsPending, IsTimed, Relies]⟩
    · have hn := hok.2 hi ho
      exact h.query hn id fun hs => h.fresh hs hn
  | queryClock openedAt =>
    have hn := h.not_pending_of_timed hi trivial
    exact h.query hn id ⟨le_rfl, fun hs => ⟨hre hs, h.trippedAt_le⟩⟩
  | queryStreak openedAt now =>
    have hn := h.not_pending_of_timed hi trivial
    obtain ⟨hcl, htr⟩ := hre
    rw [next]
    split_ifs with hd
    · refine h.query hn id ⟨hcl, fun hs => ?_⟩
      have hle := (hbase _).trans hd
      have := htr hs
      omega
    · exact h.calm hi ⟨rfl, rfl, rfl, rfl, id, by simp [IsPending, IsTimed, Relies]⟩
  | queryExchange now =>
    have hn := h.not_pending_of_timed hi trivial
    rw [next]
    split_ifs with hst
    · refine h.leave (by simp [SharedBreaker.enterHalfOpen, SharedBreaker.store]) rfl rfl hn ?_
      simp [IsPending, IsTimed, Relies]
    · exact h.calm hi ⟨rfl, rfl, rfl, rfl, id, by simp [IsPending, IsTimed, Relies]⟩
  | successExchange loadedIn =>
    rw [next]
    split_ifs with hst
    · have hn : ∀ j, ∀ q ∈ c.threads j, ¬ q.IsPending := by
        intro j q hq hp
        have ho := h.pending_opened hq hp
        rw [hst] at ho
        cases ho
      refine h.leave (by simp [SharedBreaker.store]) rfl rfl hn ?_
      simp [IsPending, IsTimed, Relies]
    · exact h.calm hi ⟨rfl, rfl, rfl, rfl, id, by simp [IsPending, IsTimed, Relies]⟩
  | tripExchange expected =>
    rw [next]
    split_ifs with hst
    · -- the exchange succeeds: no state call has read an opening time, and no other trip is on
      have hn : ∀ j, ∀ q ∈ c.threads j, ¬ q.IsPending := fun j q hq hp =>
        hre (hst.symm.trans (h.pending_opened hq hp))
      exact h.trip hn (hok.1 expected hi hst)
    · exact h.calm hi ⟨rfl, rfl, rfl, rfl, id, fun q hq => by cases hq⟩
  | tripClock =>
    have hm : c.shared.clock % 2 ^ 64 = c.shared.clock := Nat.mod_eq_of_lt h.clock_lt
    refine h.move h.clock_lt h.trippedAt_le (fun _ how => absurd trivial (how _ rfl)) ?_
      (fun j _ q hq => h.relies j q hq) ?_ ?_
    · intro q hq
      cases hq
      exact ⟨hre, hm.symm ▸ h.trippedAt_le⟩
    · intro _ _ _ j hj r hr
      exact ⟨fun hp => hj (h.unique i _ hi trivial j r hr hp), h.apart i _ hi trivial j r hr⟩
    · intro q hq ht
      cases hq
      exact absurd ht id
  | tripOpenedAt nanos =>
    refine h.move h.clock_lt h.trippedAt_le (fun _ _ _ => hre.2) ?_
      (fun j _ q hq => (h.relies j q hq).congr rfl rfl le_rfl) ?_ ?_
    · intro q hq
      exact Option.some.inj hq ▸ trivial
    · intro q hq hp
      cases hq
      exact absurd hp id
    · intro q hq ht
      cases hq
      exact absurd ht id
  | _ => exact absurd trivial hc

omit hbase

lemma Timely.spawn (hok : KeepsCooldown c (.spawn i t)) (hf : c.threads i = none)
    (hst : t.starts = true) :
    Timely cfg { c with threads := update c.threads i (some t) } := by
  have ho : ¬ t.IsPending ∧ ¬ t.IsTimed ∧ t.Relies cfg c.shared := by
    cases t with
    | tick reading => exact ⟨id, id, hok reading rfl⟩
    | queryLoad | successClear | failureLoad => exact ⟨id, id, trivial⟩
    | _ => cases hst
  refine h.move h.clock_lt h.trippedAt_le ?_ (fun q hq => Option.some.inj hq ▸ ho.2.2)
    (fun j _ q hq => h.relies j q hq) (fun q hq hp => absurd hp (Option.some.inj hq ▸ ho.1))
    (fun q hq ht => absurd ht (Option.some.inj hq ▸ ho.2.1))
  intro hs _ hn
  refine h.fresh hs fun j q hq => ?_
  refine hn j ?_ q hq
  rintro rfl
  rw [hf] at hq
  cases hq

omit h

include hbase

lemma timely_of_run {events : List (Event BreakerThread)}
    (hr : Run (fun c e c' => KeepsCooldown c e ∧ Step cfg c e c') (idle .new) events c) :
    Timely cfg c := by
  refine config_invariant (I := Timely cfg) ?_ ?_ ?_ hr
  · refine ⟨by decide, le_rfl, (fun h => by cases h), ?_, ?_, ?_⟩
    all_goals
      intro i t ht
      cases ht
  · exact fun c i t hok hf hs h => h.spawn hok hf hs
  · intro c i t s' t' hok hi hst h
    have hn := h.step hbase hok hi
    rwa [show next cfg c.shared t = (s', t') from hst] at hn

omit hbase

/-- Only an exchange of a state call leads from open to half-open. -/
lemma exists_queryExchange (hb : s.breaker.state = .opened)
    (ha : (next cfg s t).1.breaker.state = .halfOpen) : ∃ now, t = queryExchange now := by
  cases t <;>
    grind [next, SharedBreaker.store, SharedBreaker.enterOpened, SharedBreaker.addSuccess]

/-- **The cooldown.**  In every run that keeps trips and state calls apart, and with a cooldown
that no streak makes shorter, the breaker goes half open no earlier than the base cooldown after
the trip: both by the clock and by the reading the state call took. -/
theorem opened_for_cooldown
    (hbase : ∀ streak, cfg.cooldown ≤ CircuitBreaker.effectiveCooldown cfg streak)
    {events : List (Event BreakerThread)}
    (hrun : Run (fun c e c' => KeepsCooldown c e ∧ Step cfg c e c') (idle .new) events c)
    {e : Event BreakerThread} {c' : Config SharedBreaker BreakerThread} (hstep : Step cfg c e c')
    (hbefore : c.shared.breaker.state = .opened) (hafter : c'.shared.breaker.state = .halfOpen) :
    ∃ i now, e = .step i ∧ c.threads i = some (queryExchange now) ∧
      c.shared.trippedAt + cfg.cooldown ≤ now ∧ now ≤ c.shared.clock := by
  have ht := timely_of_run hbase hrun
  cases e with
  | spawn i t =>
    obtain ⟨-, -, rfl⟩ := hstep
    rw [hbefore] at hafter
    cases hafter
  | step i =>
    obtain ⟨t, s', t', hi, hn, rfl⟩ := hstep
    have hs : (next cfg c.shared t).1.breaker.state = .halfOpen := by
      rw [show next cfg c.shared t = (s', t') from hn]
      exact hafter
    obtain ⟨now, rfl⟩ := exists_queryExchange hbefore hs
    obtain ⟨hc, hd⟩ := ht.relies i _ hi
    exact ⟨i, now, rfl, hi, hd hbefore, hc⟩

def soloInRange (_ : Config SharedBreaker BreakerThread) (e : Event BreakerThread) : Bool :=
  e.thread = 0 && match e with
    | .spawn _ (tick reading) => reading < 2 ^ 64
    | _ => true

lemma thread_of_soloInRange {c : Config SharedBreaker BreakerThread} (h : soloInRange c e = true) :
    e.thread = 0 :=
  of_decide_eq_true (Bool.and_eq_true_iff.mp h).1

lemma keepsCooldown_of_solo (hs : Solo c) (h : soloInRange c e = true) : KeepsCooldown c e := by
  cases e with
  | spawn i t =>
    rintro reading rfl
    exact of_decide_eq_true (Bool.and_eq_true_iff.mp h).2
  | step i =>
    obtain rfl : i = 0 := thread_of_soloInRange h
    refine ⟨fun expected h₀ _ j t ht => ?_, fun h₀ _ j t ht => ?_⟩
    all_goals
      rw [hs.thread_eq h₀ ht]
      exact id

def stepsOf (i n : ℕ) : List (Event BreakerThread) := List.replicate n (.step i)

/-- A new call of thread `i` and its first `n` steps. -/
def call (i : ℕ) (t : BreakerThread) (n : ℕ) : List (Event BreakerThread) :=
  .spawn i t :: stepsOf i n

/-- One call after the other: a trip at 5, and a state call at 15. -/
theorem opened_for_cooldown_sequential :
    ∃ events c c', Run (fun c e c' => KeepsCooldown c e ∧ Step (quickSettings 10 60 1) c e c')
        (idle .new) events c ∧ Step (quickSettings 10 60 1) c (.step 0) c' ∧
      c.shared.breaker.state = .opened ∧ c'.shared.breaker.state = .halfOpen ∧
      ∃ now, c.shared.trippedAt + 10 ≤ now ∧ now ≤ c.shared.clock := by
  have he : ((exec starts soloInRange (next (quickSettings 10 60 1)) (idle .new)
      [call 0 (tick 5) 1, call 0 failureLoad 9, call 0 (tick 15) 1,
        call 0 queryLoad 4].flatten).any fun c =>
      c.shared.breaker.state = .opened ∧
        (execEvent starts soloInRange (next (quickSettings 10 60 1)) c (.step 0)).any fun c' =>
          c'.shared.breaker.state = .halfOpen) = true := by decide +kernel
  obtain ⟨c, c', hso, hs, hb, ha⟩ := exists_step_of_exec (fun _ h => h) (fun _ _ h => h) he
  have hr : Run (fun c e c' => KeepsCooldown c e ∧ Step (quickSettings 10 60 1) c e c')
      (idle .new) _ c :=
    (run_solo (fun _ _ => thread_of_soloInRange) hso).mono
      fun _ _ _ h => ⟨keepsCooldown_of_solo h.1 h.2.1, h.2.2⟩
  obtain ⟨-, now, -, -, hd⟩ := opened_for_cooldown (fun _ => le_rfl) hr hs hb ha
  exact ⟨_, c, c', hr, hs, hb, ha, now, hd⟩

/-- The breaker trips at 1 and goes half open at 11.  It fails again, and the call that trips it
pauses after its exchange.  A state call finds it open, reads the opening time of the first trip
and lets traffic through at once. -/
theorem stale_opening_time :
    ∃ events c c', Run (Step (quickSettings 10 60 1)) (idle .new) events c ∧
      Step (quickSettings 10 60 1) c (.step 0) c' ∧
      c.shared.breaker.state = .opened ∧ c'.shared.breaker.state = .halfOpen ∧
      c.shared.trippedAt = 11 ∧ c.shared.clock = 11 ∧
      ¬ c.shared.trippedAt + (quickSettings 10 60 1).cooldown ≤ c.shared.clock := by
  have he : ((exec starts (fun _ _ => true) (next (quickSettings 10 60 1)) (idle .new)
      [call 0 (tick 1) 1, call 0 failureLoad 9, call 0 (tick 11) 1, call 0 queryLoad 6,
        call 1 failureLoad 2, call 0 queryLoad 4].flatten).any fun c =>
      (c.shared.breaker.state = .opened ∧ c.shared.trippedAt = 11 ∧ c.shared.clock = 11) ∧
        (execEvent starts (fun _ _ => true) (next (quickSettings 10 60 1)) c (.step 0)).any
          fun c' => c'.shared.breaker.state = .halfOpen) = true := by decide +kernel
  obtain ⟨c, c', hr, hs, ⟨hb, ht, hc⟩, ha⟩ :=
    exists_step_of_exec (fun _ h => h) (fun _ _ _ => True.intro) he
  refine ⟨_, c, c', run_of_scheduled hr, hs, hb, ha, ht, hc, ?_⟩
  rw [ht, hc]
  decide

end BreakerThread

end LoadBalancer.Health
