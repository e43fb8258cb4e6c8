import LoadBalancer.Health.CircuitBreaker
import LoadBalancer.Lib.Run

/-!
# Sequential runs of a circuit breaker

What a breaker is for can be said about the list of its calls alone: how many failures in a row it
holds, when the last trip was, how many successes came since the breaker went half open
(`failuresInARow`, `trippedAt`, `successesInARow`), and how many trips came since the last long
healthy stretch (`tripsInARow`).  `referenceNext` is the automaton these numbers define.

The moves are those of the automaton, as long as the clock stays below the value that stands for
"not opened".  The streak of trips need not be right: the source measures `flap_streak_reset` from
the last closing also when the breaker has been open since.

Histories are listed latest first.
-/

namespace LoadBalancer.Health

open List

inductive BreakerCall
  | recordSuccess
  | recordFailure
  | state
  deriving DecidableEq

structure Observed where
  call : BreakerCall
  now : ℕ
  before : CircuitState
  after : CircuitState

namespace Observed

def IsTrip (o : Observed) : Prop := o.before ≠ .opened ∧ o.after = .opened

instance (o : Observed) : Decidable o.IsTrip := inferInstanceAs (Decidable (_ ∧ _))

end Observed

namespace CircuitBreaker

def apply (cfg : BreakerSettings) (b : CircuitBreaker) (call : BreakerCall) (now : ℕ) :
    CircuitBreaker :=
  match call with
  | .recordSuccess => b.recordSuccess cfg now
  | .recordFailure => b.recordFailure cfg now
  | .state => (b.queryState cfg now).2

def Step (cfg : BreakerSettings) (b : CircuitBreaker) (o : Observed) (b' : CircuitBreaker) : Prop :=
  b.apply cfg o.call o.now = b' ∧ o.before = b.state ∧ o.after = b'.state

/-- Everything a call can do to a breaker. -/
inductive Move (cfg : BreakerSettings) (b : CircuitBreaker) :
    BreakerCall → ℕ → CircuitBreaker → Prop
  | trip {now : ℕ} (h : b.state = .halfOpen ∨
      b.state = .closed ∧ cfg.failureThreshold ≤ (b.consecutiveFailures + 1) % 2 ^ 32) :
      Move cfg b .recordFailure now (b.tripped cfg now)
  | countFailure {now : ℕ} (hstate : b.state = .closed)
      (h : ¬ cfg.failureThreshold ≤ (b.consecutiveFailures + 1) % 2 ^ 32) :
      Move cfg b .recordFailure now
        { b with consecutiveFailures := (b.consecutiveFailures + 1) % 2 ^ 32 }
  | lateFailure {now : ℕ} (hstate : b.state = .opened) : Move cfg b .recordFailure now b
  | clearFailures {now : ℕ} (hstate : b.state ≠ .halfOpen) :
      Move cfg b .recordSuccess now { b with consecutiveFailures := 0 }
  | countSuccess {now : ℕ} (hstate : b.state = .halfOpen)
      (h : ¬ cfg.halfOpenSuccessesRequired ≤ (b.consecutiveSuccesses + 1) % 2 ^ 32) :
      Move cfg b .recordSuccess now { b with
        consecutiveFailures := 0
        consecutiveSuccesses := (b.consecutiveSuccesses + 1) % 2 ^ 32 }
  | close {now : ℕ} (hstate : b.state = .halfOpen)
      (h : cfg.halfOpenSuccessesRequired ≤ (b.consecutiveSuccesses + 1) % 2 ^ 32) :
      Move cfg b .recordSuccess now { b with
        consecutiveFailures := 0
        consecutiveSuccesses := 0
        state := .closed
        closedSinceNanos := now % 2 ^ 64 }
  | halfOpen {now : ℕ} (hstate : b.state = .opened) (hopened : b.openedAtNanos ≠ notOpened)
      (h : effectiveCooldown cfg b.tripStreak ≤ now - b.openedAtNanos) :
      Move cfg b .state now { b with state := .halfOpen }
  | stay {now : ℕ} (h : b.state = .opened → b.openedAtNanos ≠ notOpened →
      ¬ effectiveCooldown cfg b.tripStreak ≤ now - b.openedAtNanos) : Move cfg b .state now b

/-- **Inversion.**  A call makes one of these moves. -/
lemma move_apply (cfg : BreakerSettings) (b : CircuitBreaker) (call : BreakerCall) (now : ℕ) :
    Move cfg b call now (b.apply cfg call now) := by
  cases call with
  | recordSuccess =>
    by_cases hs : b.state = .halfOpen
    · by_cases h : cfg.halfOpenSuccessesRequired ≤ (b.consecutiveSuccesses + 1) % 2 ^ 32
      · have heq : b.apply cfg .recordSuccess now = _ := (if_neg (not_not.mpr hs)).trans (if_pos h)
        exact heq ▸ .close hs h
      · have heq : b.apply cfg .recordSuccess now = _ := (if_neg (not_not.mpr hs)).trans (if_neg h)
        exact heq ▸ .countSuccess hs h
    · have heq : b.apply cfg .recordSuccess now = _ := if_pos hs
      exact heq ▸ .clearFailures hs
  | recordFailure =>
    obtain ⟨failures, successes, state, openedAt, streak, closedSince⟩ := b
    cases state with
    | opened => exact .lateFailure rfl
    | halfOpen => exact .trip (Or.inl rfl)
    | closed =>
      by_cases h : cfg.failureThreshold ≤ (failures + 1) % 2 ^ 32
      · have heq : apply cfg ⟨failures, successes, .closed, openedAt, streak, closedSince⟩
            .recordFailure now = _ := if_pos h
        exact heq ▸ .trip (Or.inr ⟨rfl, h⟩)
      · have heq : apply cfg ⟨failures, successes, .closed, openedAt, streak, closedSince⟩
            .recordFailure now = _ := if_neg h
        exact heq ▸ .countFailure rfl h
  | state =>
    unfold apply queryState maybeTransitionToHalfOpen
    dsimp only
    split_ifs with hs ho h
    · exact .stay fun hne => absurd hne hs
    · exact .stay fun _ hne => absurd ho hne
    · exact .halfOpen (not_not.mp hs) ho h
    · exact .stay fun _ _ => h

lemma closed_apply {cfg : BreakerSettings} {b : CircuitBreaker} {call : BreakerCall} {now : ℕ}
    (hca : call ≠ .recordFailure) (hc : b.state = .closed) :
    (b.apply cfg call now).state = .closed := by
  have hm := move_apply cfg b call now
  generalize b.apply cfg call now = b' at hm ⊢
  cases hm with
  | trip | countFailure | lateFailure => exact absurd rfl hca
  | countSuccess hs | close hs => exact absurd (hc.symm.trans hs) (by decide)
  | halfOpen hs => exact absurd (hc.symm.trans hs) (by decide)
  | clearFailures | stay => exact hc

lemma closed_of_run {cfg : BreakerSettings} {b₀ b : CircuitBreaker} {events : List Observed}
    (hcl : b₀.state = .closed) (hr : Run (Step cfg) b₀ events b)
    (hc : ∀ o ∈ events, o.call ≠ .recordFailure) : b.state = .closed := by
  induction hr with
  | start => exact hcl
  | next _ hstep ih =>
    rw [← hstep.1]
    exact closed_apply (hc _ (by simp)) (ih fun o ho => hc o (mem_append_left _ ho))

lemma exists_run_of_calls (cfg : BreakerSettings) (b₀ : CircuitBreaker) (now : ℕ)
    (calls : List BreakerCall) :
    ∃ events : List Observed, events.map Observed.call = calls ∧
      Run (Step cfg) b₀ events (calls.foldl (fun b call => b.apply cfg call now) b₀) := by
  induction calls using List.reverseRecOn with
  | nil => exact ⟨[], rfl, .start⟩
  | append_singleton calls call ih =>
    obtain ⟨events, hc, hr⟩ := ih
    rw [foldl_concat]
    set b := calls.foldl (fun b call => b.apply cfg call now) b₀
    refine ⟨events ++ [⟨call, now, b.state, (b.apply cfg call now).state⟩], ?_, ?_⟩
    · rw [map_append, hc, map_singleton]
    · exact hr.next ⟨rfl, rfl, rfl⟩

end CircuitBreaker

/-! ## What the history says -/

def closedSince : List Observed → ℕ
  | [] => 0
  | o :: earlier =>
    if o.before ≠ .closed ∧ o.after = .closed then o.now else closedSince earlier

def trippedAt : List Observed → Option ℕ
  | [] => none
  | o :: earlier => if o.IsTrip then some o.now else trippedAt earlier

def failuresInARow : List Observed → ℕ
  | [] => 0
  | o :: earlier =>
    if o.before ≠ .closed ∨ o.after ≠ .closed then 0
    else match o.call with
    | .recordSuccess => 0
    | .recordFailure => failuresInARow earlier + 1
    | .state => failuresInARow earlier

def successesInARow : List Observed → ℕ
  | [] => 0
  | o :: earlier =>
    if o.before ≠ .halfOpen ∨ o.after ≠ .halfOpen then 0
    else match o.call with
    | .recordSuccess => successesInARow earlier + 1
    | _ => successesInARow earlier

/-- The trips since the last one that ended a closed stretch of at least `reset`, that one
included; all trips if there was none. -/
def tripsInARow (reset : ℕ) : List Observed → ℕ
  | [] => 0
  | o :: earlier =>
    if o.IsTrip then
      if o.before = .closed ∧ closedSince earlier + reset ≤ o.now then 1
      else tripsInARow reset earlier + 1
    else tripsInARow reset earlier

/-- The automaton: the state after a call, given the calls before it. -/
def referenceNext (cfg : BreakerSettings) (earlier : List Observed) (streak : ℕ)
    (before : CircuitState) (call : BreakerCall) (now : ℕ) : CircuitState :=
  match before, call with
  | .closed, .recordFailure =>
    if failuresInARow earlier + 1 = max cfg.failureThreshold 1 then .opened else .closed
  | .opened, .state =>
    if (trippedAt earlier).any fun t =>
      t + CircuitBreaker.effectiveCooldown cfg streak ≤ now then .halfOpen else .opened
  | .halfOpen, .recordFailure => .opened
  | .halfOpen, .recordSuccess =>
    if successesInARow earlier + 1 = max cfg.halfOpenSuccessesRequired 1 then .closed
    else .halfOpen
  | state, _ => state

lemma mem_of_trippedAt {t : ℕ} : ∀ {history : List Observed}, trippedAt history = some t →
    ∃ o ∈ history, o.now = t
  | [], h => by cases h
  | o :: earlier, h => by
    rw [trippedAt] at h
    split_ifs at h
    · exact ⟨o, mem_cons_self, Option.some.inj h⟩
    · obtain ⟨o', ho', hn⟩ := mem_of_trippedAt h
      exact ⟨o', mem_cons_of_mem _ ho', hn⟩

lemma closedSince_le {now : ℕ} : ∀ {history : List Observed}, (∀ o ∈ history, o.now ≤ now) →
    closedSince history ≤ now
  | [], _ => Nat.zero_le _
  | o :: earlier, h => by
    rw [forall_mem_cons] at h
    rw [closedSince]
    split_ifs
    · exact h.1
    · exact closedSince_le h.2

/-! ## The automaton -/

namespace CircuitBreaker

/-- The counters of the breaker are those of the history. -/
structure Tracks (cfg : BreakerSettings) (b : CircuitBreaker) (history : List Observed) : Prop where
  failures : b.consecutiveFailures = if b.state = .closed then failuresInARow history else 0
  failures_lt : b.consecutiveFailures < max cfg.failureThreshold 1
  successes : b.consecutiveSuccesses = if b.state = .halfOpen then successesInARow history else 0
  successes_lt : b.consecutiveSuccesses < max cfg.halfOpenSuccessesRequired 1
  opened : b.state = .opened →
    trippedAt history = some b.openedAtNanos ∧ b.openedAtNanos < notOpened

variable {cfg : BreakerSettings} {b b' : CircuitBreaker} {history : List Observed} {o : Observed}

lemma tracks_new (cfg : BreakerSettings) : Tracks cfg new [] :=
  ⟨rfl, lt_max_of_lt_right one_pos, rfl, lt_max_of_lt_right one_pos, fun h => by cases h⟩

variable {events : List Observed} (h : Tracks cfg b history) (hstep : Step cfg b o b')

include h

lemma Tracks.threshold_iff :
    cfg.failureThreshold ≤ (b.consecutiveFailures + 1) % 2 ^ 32 ↔
      b.consecutiveFailures + 1 = max cfg.failureThreshold 1 := by
  have hlt := h.failures_lt
  have hb := cfg.failureThreshold_lt
  rw [Nat.mod_eq_of_lt (by omega)]
  omega

lemma Tracks.succ_failures : (b.consecutiveFailures + 1) % 2 ^ 32 = b.consecutiveFailures + 1 := by
  have hlt := h.failures_lt
  have hb := cfg.failureThreshold_lt
  exact Nat.mod_eq_of_lt (by omega)

lemma Tracks.required_iff :
    cfg.halfOpenSuccessesRequired ≤ (b.consecutiveSuccesses + 1) % 2 ^ 32 ↔
      b.consecutiveSuccesses + 1 = max cfg.halfOpenSuccessesRequired 1 := by
  have hlt := h.successes_lt
  have hb := cfg.halfOpenSuccessesRequired_lt
  rw [Nat.mod_eq_of_lt (by omega)]
  omega

lemma Tracks.succ_successes :
    (b.consecutiveSuccesses + 1) % 2 ^ 32 = b.consecutiveSuccesses + 1 := by
  have hlt := h.successes_lt
  have hb := cfg.halfOpenSuccessesRequired_lt
  exact Nat.mod_eq_of_lt (by omega)

include hstep

lemma Tracks.step (hn : o.now < notOpened) : Tracks cfg b' (o :: history) := by
  obtain ⟨call, now, before, after⟩ := o
  obtain ⟨ha, rfl, rfl⟩ := hstep
  have hf := h.failures
  have hsu := h.successes
  cases ha ▸ move_apply cfg b call now with
  | trip hw =>
    have hne : b.state ≠ .opened := by rcases hw with h | ⟨h, -⟩ <;> simp [h]
    refine ⟨rfl, lt_max_of_lt_right one_pos, rfl, lt_max_of_lt_right one_pos, fun _ => ?_⟩
    have hm : now % 2 ^ 64 = now := Nat.mod_eq_of_lt (hn.trans (by decide))
    refine ⟨?_, by rwa [tripped, hm]⟩
    rw [trippedAt, if_pos ⟨hne, rfl⟩, tripped, hm]
  | countFailure hs hw =>
    rw [h.threshold_iff] at hw
    have hlt := h.failures_lt
    refine ⟨?_, ?_, ?_, h.successes_lt, fun ho => by simp [hs] at ho⟩
    · rw [if_pos hs] at hf
      dsimp only
      rw [h.succ_failures, if_pos hs, failuresInARow, hf]
      simp [hs]
    · simp only [h.succ_failures]
      omega
    · simpa [hs] using hsu
  | lateFailure hs =>
    refine ⟨?_, h.failures_lt, ?_, h.successes_lt, fun ho => ?_⟩
    · simpa [hs] using hf
    · simpa [hs] using hsu
    · simpa [trippedAt, Observed.IsTrip, hs] using h.opened ho
  | clearFailures hs =>
    refine ⟨?_, lt_max_of_lt_right one_pos, ?_, h.successes_lt, fun ho => ?_⟩
    · simp [failuresInARow]
    · simpa [hs] using hsu
    · simp only at ho
      simpa [trippedAt, Observed.IsTrip, ho] using h.opened ho
  | countSuccess hs hw =>
    rw [h.required_iff] at hw
    have hlt := h.successes_lt
    refine ⟨?_, lt_max_of_lt_right one_pos, ?_, ?_, fun ho => by simp [hs] at ho⟩
    · simp [hs]
    · rw [if_pos hs] at hsu
      dsimp only
      rw [h.succ_successes, if_pos hs, successesInARow, hsu]
      simp [hs]
    · simp only [h.succ_successes]
      omega
  | close hs hw =>
    refine ⟨?_, lt_max_of_lt_right one_pos, rfl, lt_max_of_lt_right one_pos, fun h => by cases h⟩
    simp [failuresInARow, hs]
  | halfOpen hs ho hw =>
    refine ⟨?_, h.failures_lt, ?_, h.successes_lt, fun h => by cases h⟩
    · simpa [hs] using hf
    · simp only [hs] at hsu
      simpa [successesInARow, hs] using hsu
  | stay hw =>
    refine ⟨?_, h.failures_lt, ?_, h.successes_lt, fun ho => ?_⟩
    · rw [hf]
      cases b.state <;> simp [failuresInARow]
    · rw [hsu]
      cases b.state <;> simp [successesInARow]
    · simpa [trippedAt, Observed.IsTrip, ho] using h.opened ho

/-- **One call moves as the automaton does.** -/
lemma Tracks.reference (hc : ∀ o' ∈ history, o'.now ≤ o.now) :
    o.after = referenceNext cfg history b.tripStreak o.before o.call o.now := by
  obtain ⟨call, now, before, after⟩ := o
  obtain ⟨ha, rfl, rfl⟩ := hstep
  have hf := h.failures
  have hsu := h.successes
  cases ha ▸ move_apply cfg b call now with
  | trip hw =>
    rcases hw with hs | ⟨hs, hw⟩
    · rw [hs]
      rfl
    · rw [h.threshold_iff, hf, if_pos hs] at hw
      rw [hs, referenceNext, if_pos hw]
      rfl
  | countFailure hs hw =>
    rw [h.threshold_iff, hf, if_pos hs] at hw
    dsimp only
    rw [hs, referenceNext, if_neg hw]
  | lateFailure hs =>
    rw [hs]
    rfl
  | clearFailures hs =>
    dsimp only
    cases hca : b.state with
    | halfOpen => exact absurd hca hs
    | closed => rfl
    | opened => rfl
  | countSuccess hs hw =>
    rw [h.required_iff, hsu, if_pos hs] at hw
    dsimp only
    rw [hs, referenceNext, if_neg hw]
  | close hs hw =>
    rw [h.required_iff, hsu, if_pos hs] at hw
    rw [hs, referenceNext, if_pos hw]
  | halfOpen hs ho hw =>
    obtain ⟨ht, -⟩ := h.opened hs
    obtain ⟨o', ho', heq⟩ := mem_of_trippedAt ht
    have hle : b.openedAtNanos ≤ now := heq ▸ hc o' ho'
    have hd : b.openedAtNanos + effectiveCooldown cfg b.tripStreak ≤ now := by omega
    rw [hs, referenceNext, ht, Option.any_some, if_pos (decide_eq_true hd)]
  | stay hw =>
    dsimp only
    cases hs : b.state with
    | closed => rfl
    | halfOpen => rfl
    | opened =>
      obtain ⟨ht, hlt⟩ := h.opened hs
      have hd := hw hs hlt.ne
      rw [referenceNext, ht, Option.any_some, if_neg]
      rw [decide_eq_true_iff]
      omega

lemma Tracks.ignores (ho : o.before = .opened) (hca : o.call ≠ .state) : b' = b := by
  obtain ⟨ha, hb, -⟩ := hstep
  rw [hb] at ho
  have hz : b.consecutiveFailures = 0 := by rw [h.failures, ho, if_neg (by decide)]
  cases hc : o.call with
  | state => exact absurd hc hca
  | recordFailure =>
    rw [← ha, hc, apply, recordFailure, ho]
  | recordSuccess =>
    rw [← ha, hc]
    have heq : b.recordSuccess cfg o.now = { b with consecutiveFailures := 0 } :=
      if_pos (by simp [ho])
    rw [apply, heq, ← hz]

omit hstep h

lemma tracks_of_run (hru : Run (Step cfg) new events b)
    (hr : ∀ o ∈ events, o.now < notOpened) :
    Tracks cfg b events.reverse := by
  induction hru with
  | start => exact tracks_new cfg
  | next _ hs ih =>
    rw [forall_mem_append, forall_mem_singleton] at hr
    rw [reverse_append]
    exact (ih hr.1).step hs hr.2

lemma le_now_of_pairwise (hc : ((events ++ [o]).map fun o => o.now).Pairwise (· ≤ ·)) :
    ∀ o' ∈ events.reverse, o'.now ≤ o.now := by
  rw [map_append, pairwise_append] at hc
  intro o' ho'
  exact hc.2.2 _ (mem_map_of_mem (mem_reverse.mp ho')) _ (mem_singleton_self _)

/-- **The breaker refines the automaton.**  After any run in which the clock does not go back, and
with its readings below `NOT_OPENED`, the next call moves as the history says; while the breaker
is open a success or a failure changes nothing at all. -/
theorem breaker_refines_reference {events : List Observed} (hrun : Run (Step cfg) new events b)
    (hstep : Step cfg b o b') (hclock : ((events ++ [o]).map fun o => o.now).Pairwise (· ≤ ·))
    (hrange : ∀ o ∈ events, o.now < notOpened) :
    o.after = referenceNext cfg events.reverse b.tripStreak o.before o.call o.now ∧
      (o.before = .opened → o.call ≠ .state → b' = b) := by
  have ht := tracks_of_run hrun hrange
  exact ⟨ht.reference hstep (le_now_of_pairwise hclock), ht.ignores hstep⟩

/-- A trip, and the first state call after the cooldown. -/
theorem breaker_refines_reference_recovery :
    ∃ b b', Run (Step (quickSettings 10 60 1)) new [⟨.recordFailure, 5, .closed, .opened⟩] b ∧
      Step (quickSettings 10 60 1) b ⟨.state, 15, .opened, .halfOpen⟩ b' ∧
      referenceNext (quickSettings 10 60 1) [⟨.recordFailure, 5, .closed, .opened⟩] b.tripStreak
        .opened .state 15 = .halfOpen := by
  have hr : Run (Step (quickSettings 10 60 1)) new
      ([] ++ [⟨.recordFailure, 5, .closed, .opened⟩]) _ := Run.start.next ⟨rfl, rfl, rfl⟩
  have hstep : Step (quickSettings 10 60 1) (new.apply (quickSettings 10 60 1) .recordFailure 5)
      ⟨.state, 15, .opened, .halfOpen⟩ _ := ⟨rfl, rfl, rfl⟩
  exact ⟨_, _, hr, hstep, (breaker_refines_reference hr hstep (by decide) (by decide)).1.symm⟩

/-- A trip at the reading that stands for "not opened": the breaker stays open for good. -/
theorem opened_at_sentinel_never_recovers :
    ∃ b b', Run (Step (quickSettings 10 60 1)) new
        [⟨.recordFailure, 2 ^ 64 - 1, .closed, .opened⟩] b ∧
      Step (quickSettings 10 60 1) b ⟨.state, 2 ^ 64 + 9, .opened, .opened⟩ b' ∧
      referenceNext (quickSettings 10 60 1) [⟨.recordFailure, 2 ^ 64 - 1, .closed, .opened⟩]
        b.tripStreak .opened .state (2 ^ 64 + 9) = .halfOpen := by
  have hr : Run (Step (quickSettings 10 60 1)) new
      ([] ++ [⟨.recordFailure, 2 ^ 64 - 1, .closed, .opened⟩]) _ := Run.start.next ⟨rfl, rfl, rfl⟩
  exact ⟨_, _, hr, ⟨rfl, rfl, rfl⟩, by decide⟩

/-! ## The streak of trips -/

/-- The call comes before the clock and the streak wrap around, and if it is a failure of a
half-open breaker, less than `flap_streak_reset` after the breaker last became closed. -/
def InTime (cfg : BreakerSettings) (b : CircuitBreaker) (o : Observed) : Prop :=
  o.now < 2 ^ 64 ∧ b.tripStreak + 1 < 2 ^ 32 ∧
    (o.call = .recordFailure → b.state = .halfOpen →
      o.now < b.closedSinceNanos + cfg.flapStreakReset)

/-- The streak and the time of the last closing are those of the history. -/
structure TracksStreak (cfg : BreakerSettings) (b : CircuitBreaker) (history : List Observed) :
    Prop where
  closedSince_eq : b.closedSinceNanos = closedSince history
  streak_eq : b.tripStreak = tripsInARow cfg.flapStreakReset history

lemma TracksStreak.of_quiet (h : TracksStreak cfg b history)
    (hc : b'.closedSinceNanos = b.closedSinceNanos) (hs : b'.tripStreak = b.tripStreak)
    (hn : ¬ (o.before ≠ .closed ∧ o.after = .closed)) (ht : ¬ o.IsTrip) :
    TracksStreak cfg b' (o :: history) where
  closedSince_eq := by rw [hc, h.closedSince_eq, closedSince, if_neg hn]
  streak_eq := by rw [hs, h.streak_eq, tripsInARow, if_neg ht]

lemma TracksStreak.step (h : TracksStreak cfg b history) (ht : InTime cfg b o)
    (hstep : Step cfg b o b') (hcl : ∀ o' ∈ history, o'.now ≤ o.now) :
    TracksStreak cfg b' (o :: history) := by
  obtain ⟨call, now, before, after⟩ := o
  obtain ⟨ha, rfl, rfl⟩ := hstep
  obtain ⟨hn, hst, hla⟩ := ht
  have hle : b.closedSinceNanos ≤ now := h.closedSince_eq ▸ closedSince_le hcl
  have hm : now % 2 ^ 64 = now := Nat.mod_eq_of_lt hn
  cases ha ▸ move_apply cfg b call now with
  | trip hw =>
    have hne : b.state ≠ .opened := by rcases hw with h | ⟨h, -⟩ <;> simp [h]
    have hd : cfg.flapStreakReset ≤ now - b.closedSinceNanos ↔
        b.closedSinceNanos + cfg.flapStreakReset ≤ now := by omega
    refine ⟨?_, ?_⟩
    · rw [closedSince, if_neg (fun hc => by cases hc.2)]
      exact h.closedSince_eq
    · rw [tripsInARow, if_pos ⟨hne, rfl⟩, ← h.closedSince_eq, ← h.streak_eq, tripped]
      simp only [hm, hd]
      by_cases hl : b.closedSinceNanos + cfg.flapStreakReset ≤ now
      · -- a half-open breaker would be late
        have hs : b.state = .closed := by
          rcases hw with hs | ⟨hs, -⟩
          · exact absurd (hla rfl hs) (not_lt.mpr hl)
          · exact hs
        rw [if_pos hl, if_pos ⟨hs, hl⟩]
        rfl
      · rw [if_neg hl, if_neg fun hc => hl hc.2, Nat.mod_eq_of_lt hst]
  | close hs hw =>
    refine ⟨?_, ?_⟩
    · rw [closedSince, if_pos ⟨by simp [hs], rfl⟩]
      exact hm
    · rw [tripsInARow, if_neg (fun hc => by cases hc.2)]
      exact h.streak_eq
  | countFailure | lateFailure | clearFailures | countSuccess | halfOpen | stay =>
    exact h.of_quiet rfl rfl (by simp) (by simp [Observed.IsTrip])

lemma tracksStreak_of_run (hr : Run (fun b o b' => InTime cfg b o ∧ Step cfg b o b') new events b)
    (hc : (events.map fun o => o.now).Pairwise (· ≤ ·)) :
    TracksStreak cfg b events.reverse := by
  induction hr with
  | start => exact ⟨rfl, rfl⟩
  | @next events b b' o _ hs ih =>
    have hle := le_now_of_pairwise hc
    rw [map_append, pairwise_append] at hc
    rw [reverse_append]
    exact (ih hc.1).step hs.1 hs.2 hle

/-- **The streak.**  As long as no half-open breaker fails later than `flap_streak_reset` after it
last became closed, the streak is the number of trips since the last long healthy stretch, and
each trip of a half-open breaker adds one to it. -/
theorem streak_counts_trips {events : List Observed}
    (hrun : Run (fun b o b' => InTime cfg b o ∧ Step cfg b o b') new events b)
    (hclock : (events.map fun o => o.now).Pairwise (· ≤ ·)) :
    b.tripStreak = tripsInARow cfg.flapStreakReset events.reverse ∧
      ∀ o b', InTime cfg b o → Step cfg b o b' → (∀ o' ∈ events, o'.now ≤ o.now) →
        o.before = .halfOpen → o.after = .opened → b'.tripStreak = b.tripStreak + 1 := by
  have ht := tracksStreak_of_run hrun hclock
  refine ⟨ht.streak_eq, fun o b' hti hstep hle hb ha => ?_⟩
  have htr : o.IsTrip := ⟨by simp [hb], ha⟩
  have hn := ht.step hti hstep fun o' ho' => hle o' (mem_reverse.mp ho')
  rw [hn.streak_eq, tripsInARow, if_pos htr, if_neg (by simp [hb]), ht.streak_eq]

/-- Two trips in a row, the second out of half-open. -/
theorem streak_counts_trips_twice :
    ∃ b, Run (fun b o b' =>
        InTime (quickSettings 10 60 1) b o ∧ Step (quickSettings 10 60 1) b o b') new
        [⟨.recordFailure, 5, .closed, .opened⟩, ⟨.state, 15, .opened, .halfOpen⟩,
          ⟨.recordFailure, 16, .halfOpen, .opened⟩] b ∧ b.tripStreak = 2 := by
  have hr : Run (fun b o b' => InTime (quickSettings 10 60 1) b o ∧
      Step (quickSettings 10 60 1) b o b') new ([] ++ [⟨.recordFailure, 5, .closed, .opened⟩] ++
        [⟨.state, 15, .opened, .halfOpen⟩] ++ [⟨.recordFailure, 16, .halfOpen, .opened⟩]) _ :=
    ((Run.start.next ⟨⟨by decide, by decide, fun _ h => by cases h⟩, rfl, rfl, rfl⟩).next
      ⟨⟨by decide, by decide, fun h => by cases h⟩, rfl, rfl, rfl⟩).next
      ⟨⟨by decide, by decide, fun _ _ => by decide⟩, rfl, rfl, rfl⟩
  exact ⟨_, hr, (streak_counts_trips hr (by decide)).1⟩

/-- A breaker trips after 58 seconds, is let through again 5 seconds later and fails at once.  It
has not been closed since the first trip, yet 63 seconds have passed since it last became closed:
the second trip starts a new streak. -/
theorem half_open_failure_resets_streak :
    ∃ b, Run (Step (quickSettings 5000000000 60000000000 1)) new
        [⟨.recordFailure, 58000000000, .closed, .opened⟩,
          ⟨.state, 63000000000, .opened, .halfOpen⟩,
          ⟨.recordFailure, 63000000000, .halfOpen, .opened⟩] b ∧
      b.tripStreak = 1 ∧
      tripsInARow 60000000000 [⟨.recordFailure, 63000000000, .halfOpen, .opened⟩,
        ⟨.state, 63000000000, .opened, .halfOpen⟩,
        ⟨.recordFailure, 58000000000, .closed, .opened⟩] = 2 := by
  have hr : Run (Step (quickSettings 5000000000 60000000000 1)) new
      ([] ++ [⟨.recordFailure, 58000000000, .closed, .opened⟩] ++
        [⟨.state, 63000000000, .opened, .halfOpen⟩] ++
        [⟨.recordFailure, 63000000000, .halfOpen, .opened⟩]) _ :=
    ((Run.start.next ⟨rfl, rfl, rfl⟩).next ⟨rfl, rfl, rfl⟩).next ⟨rfl, rfl, rfl⟩
  exact ⟨_, hr, by decide, by decide⟩

end CircuitBreaker

end LoadBalancer.Health
