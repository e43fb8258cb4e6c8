import LoadBalancer.Balancer.Strategies
import LoadBalancer.Core.Membership
import LoadBalancer.Lib.Interleaving

/-!
# TCP sessions

`handle_connection` (`crates/lb-tcp/src/session.rs`) serves one client: it asks the limiters,
dials up to two backends one after the other, and relays bytes until both directions have ended.
Sessions run side by side over one pool, next to the health checks, name lookups and operators that
also write to it.

A dial is counted in the pool by the guard that `track_active` returns.  The guard is a variable of
the loop body, so it is dropped when the body is left, also by the `break` of a dial that succeeded.
What the limiters, the balancer and a breaker answer and how a dial ends is left open: a step allows
every answer.
-/

namespace LoadBalancer.Tcp

open LoadBalancer.Core Interleaving

inductive ConnectionOutcome
  | rateLimited
  | noBackend
  | connectFailed
  | completed (bytesToBackend bytesToClient : ℕ)
  | aborted
  deriving DecidableEq

/-- Where a session is in `handle_connection`. -/
inductive SessionPoint
  | arrived
  /-- In `refresh_circuit_state`, with the backends still to be looked at. -/
  | refreshing (ids : List BackendId)
  /-- At the head of the loop. -/
  | choosing (attempt : ℕ) (tried : List BackendId)
  | chosen (attempt : ℕ) (tried : List BackendId) (id : BackendId)
  /-- The pool knows the backend. -/
  | located (attempt : ℕ) (tried : List BackendId) (id : BackendId)
  | dialing (attempt : ℕ) (tried : List BackendId) (id : BackendId) (guard : Option StateRef)
  /-- `establish` has returned; the breaker is told. -/
  | reporting (connected : Bool) (attempt : ℕ) (tried : List BackendId) (id : BackendId)
    (guard : Option StateRef)
  /-- At the end of the loop body. -/
  | leaving (connected : Bool) (attempt : ℕ) (tried : List BackendId) (id : BackendId)
    (guard : Option StateRef)
  /-- The two pumps are running. -/
  | relaying (id : BackendId)
  | returned (outcome : ConnectionOutcome)
  /-- Not a session: another task, about to write to the pool. -/
  | writing (e : PoolEvent)

namespace SessionPoint

def nextAttempt (attempt : ℕ) (tried : List BackendId) : SessionPoint :=
  if attempt = 0 then choosing 1 tried else returned .connectFailed

/-- Sessions come in and pool events happen at any time; refreshes list `id`. -/
def Starts (id : BackendId) : SessionPoint → Prop
  | arrived => True
  | writing e => e.Keeps id
  | _ => False

def guard : SessionPoint → Option StateRef
  | dialing _ _ _ guard => guard
  | reporting _ _ _ _ guard => guard
  | leaving _ _ _ _ guard => guard
  | _ => none

def dialed : SessionPoint → Option BackendId
  | dialing _ _ id _ => some id
  | reporting _ _ _ id _ => some id
  | leaving _ _ _ id _ => some id
  | _ => none

/-- The session is dialing the backend or connected to it. -/
def Uses (id : BackendId) (q : SessionPoint) : Prop := q.dialed = some id ∨ q = relaying id

end SessionPoint

open SessionPoint in
inductive SessionStep : BackendPool → SessionPoint → BackendPool → Option SessionPoint → Prop
  | limited {p : BackendPool} : SessionStep p arrived p (some (returned .rateLimited))
  | admitted {p : BackendPool} : SessionStep p arrived p (some (refreshing p.allBackendIds))
  | refreshed {p : BackendPool} {id : BackendId} {ids : List BackendId} (isOpen : Bool)
      (nanos : ℕ) :
      SessionStep p (refreshing (id :: ids)) (p.setCircuitOpen id isOpen nanos)
        (some (refreshing ids))
  | withoutBreaker {p : BackendPool} {id : BackendId} {ids : List BackendId} :
      SessionStep p (refreshing (id :: ids)) p (some (refreshing ids))
  | begin {p : BackendPool} : SessionStep p (refreshing []) p (some (choosing 0 []))
  | pickedNone {p : BackendPool} {attempt : ℕ} {tried : List BackendId} :
      SessionStep p (choosing attempt tried) p (some (returned .noBackend))
  | picked {p : BackendPool} {attempt : ℕ} {tried : List BackendId} (id : BackendId) :
      SessionStep p (choosing attempt tried) p (some (chosen attempt (tried ++ [id]) id))
  | missing {p : BackendPool} {attempt : ℕ} {tried : List BackendId} {id : BackendId}
      (h : p.backend id = none) :
      SessionStep p (chosen attempt tried id) p (some (nextAttempt attempt tried))
  | found {p : BackendPool} {attempt : ℕ} {tried : List BackendId} {id : BackendId}
      (h : (p.backend id).isSome) :
      SessionStep p (chosen attempt tried id) p (some (located attempt tried id))
  | tracked {p : BackendPool} {attempt : ℕ} {tried : List BackendId} {id : BackendId} :
      SessionStep p (located attempt tried id) (p.trackActive id).1
        (some (dialing attempt tried id (p.trackActive id).2))
  | dialed {p : BackendPool} {attempt : ℕ} {tried : List BackendId} {id : BackendId}
      {guard : Option StateRef} (connected : Bool) :
      SessionStep p (dialing attempt tried id guard) p
        (some (reporting connected attempt tried id guard))
  | reported {p : BackendPool} {connected : Bool} {attempt : ℕ} {tried : List BackendId}
      {id : BackendId} {guard : Option StateRef} (isOpen : Bool) (nanos : ℕ) :
      SessionStep p (reporting connected attempt tried id guard)
        (p.setCircuitOpen id isOpen nanos)
        (some (leaving connected attempt tried id guard))
  | unreported {p : BackendPool} {connected : Bool} {attempt : ℕ} {tried : List BackendId}
      {id : BackendId} {guard : Option StateRef} :
      SessionStep p (reporting connected attempt tried id guard) p
        (some (leaving connected attempt tried id guard))
  /-- The guard is dropped, whether the dial succeeded or not. -/
  | left {p : BackendPool} {connected : Bool} {attempt : ℕ} {tried : List BackendId}
      {id : BackendId} {guard : Option StateRef} :
      SessionStep p (leaving connected attempt tried id guard) (p.releaseActive guard)
        (some (if connected then relaying id else nextAttempt attempt tried))
  | transferred {p : BackendPool} {id : BackendId} :
      SessionStep p (relaying id) p (some (relaying id))
  | completed {p : BackendPool} {id : BackendId} (bytesToBackend bytesToClient : ℕ) :
      SessionStep p (relaying id) p
        (some (returned (.completed bytesToBackend bytesToClient)))
  | aborted {p : BackendPool} {id : BackendId} :
      SessionStep p (relaying id) p (some (returned .aborted))
  | ended {p : BackendPool} {outcome : ConnectionOutcome} :
      SessionStep p (returned outcome) p none
  | written {p : BackendPool} {e : PoolEvent} : SessionStep p (writing e) (e.apply p) none

/-! ## What the pool counts -/

namespace SessionPoint

def holds (r : StateRef) (q : SessionPoint) : ℕ := if q.guard = some r then 1 else 0

/-- A session holds a guard for the state of `id` exactly while it dials `id`. -/
structure Sound (id : BackendId) (r : StateRef) (q : SessionPoint) : Prop where
  dialed_iff : q.dialed = some id ↔ q.guard = some r
  keeps : ∀ e, q = writing e → e.Keeps id

/-- Points of a session outside an attempt. -/
def Idle : SessionPoint → Prop
  | dialing .. => False
  | reporting .. => False
  | leaving .. => False
  | writing _ => False
  | _ => True

variable {id : BackendId} {r : StateRef} {q q' : SessionPoint}

lemma idle_nextAttempt (attempt : ℕ) (tried : List BackendId) :
    (nextAttempt attempt tried).Idle := by
  unfold nextAttempt
  split_ifs
  · trivial
  · trivial

lemma Idle.dialed_guard_eq (h : q.Idle) : q.dialed = none ∧ q.guard = none := by
  cases q with
  | dialing | reporting | leaving => cases h
  | _ => exact ⟨rfl, rfl⟩

lemma Idle.holds_eq (h : q.Idle) : q.holds r = 0 := by
  rw [holds, h.dialed_guard_eq.2, if_neg (Option.some_ne_none r).symm]

lemma Idle.sound (h : q.Idle) : q.Sound id r := by
  obtain ⟨hd, hg⟩ := h.dialed_guard_eq
  refine ⟨?_, ?_⟩
  · rw [hd, hg]
    simp
  · rintro e rfl
    cases h

lemma Sound.of_same (h : q.Sound id r) (hd : q'.dialed = q.dialed)
    (hg : q'.guard = q.guard) (hw : ∀ e, q' ≠ writing e) : q'.Sound id r := by
  refine ⟨?_, fun e he => absurd he (hw e)⟩
  rw [hd, hg]
  exact h.dialed_iff

lemma sound_of_starts (h : q.Starts id) : q.holds r = 0 ∧ q.Sound id r := by
  cases q with
  | arrived => exact ⟨Idle.holds_eq trivial, Idle.sound trivial⟩
  | writing e =>
    refine ⟨by simp [holds, guard], ⟨by simp [dialed, guard], fun e' he => ?_⟩⟩
    cases he
    exact h
  | _ => cases h

end SessionPoint

open SessionPoint in
lemma counts_idle {p : BackendPool} {q : SessionPoint} {id : BackendId} {r : StateRef} {rest : ℕ}
    (hp : p.Counts id r rest) (hq : q.Idle) :
    p.Counts id r (rest + (some q).elim 0 (holds r)) ∧ ∀ q' ∈ some q, q'.Sound id r := by
  rw [Option.elim_some, hq.holds_eq, add_zero]
  refine ⟨hp, fun q' hq' => ?_⟩
  cases hq'
  exact hq.sound

open SessionPoint in
/-- **One step** keeps the count of a state that stays in the pool. -/
lemma SessionStep.counts {p p' : BackendPool} {q : SessionPoint} {q' : Option SessionPoint}
    {id : BackendId} {r : StateRef} {rest : ℕ} (h : SessionStep p q p' q')
    (hp : p.Counts id r (rest + q.holds r)) (hq : q.Sound id r) :
    p'.Counts id r (rest + q'.elim 0 (holds r)) ∧ ∀ q'' ∈ q', q''.Sound id r := by
  cases h with
  | refreshed isOpen nanos =>
    exact counts_idle (hp.setEjectionFlag _ isOpen .circuitOpen nanos) trivial
  | missing hn => exact counts_idle hp (idle_nextAttempt _ _)
  | @tracked attempt tried id' =>
    refine ⟨hp.trackActive id', fun q'' hq'' => ?_⟩
    cases hq''
    refine ⟨?_, fun e he => by cases he⟩
    change some id' = some id ↔ (p.trackActive id').2 = some r
    rw [Option.some_inj, hp.guard_iff]
  | reported isOpen nanos =>
    refine ⟨hp.setEjectionFlag _ isOpen .circuitOpen nanos, fun q'' hq'' => ?_⟩
    cases hq''
    exact hq.of_same rfl rfl fun e he => by cases he
  | dialed | unreported =>
    refine ⟨hp, fun q'' hq'' => ?_⟩
    cases hq''
    exact hq.of_same rfl rfl fun e he => by cases he
  | @left connected attempt tried id' guard =>
    refine counts_idle hp.releaseActive ?_
    cases connected with
    | true => trivial
    | false => exact idle_nextAttempt attempt tried
  | limited | admitted | withoutBreaker | begin | pickedNone | picked | found | transferred
  | completed | aborted => exact counts_idle hp trivial
  | ended => exact ⟨hp, fun q'' hq'' => by cases hq''⟩
  | @written e => exact ⟨hp.apply (hq.keeps e rfl), fun q'' hq'' => by cases hq''⟩

abbrev SessionRun (id : BackendId) (pool : BackendPool) : List (Event SessionPoint) →
    Config BackendPool SessionPoint → Prop :=
  Run (Interleaving.Step (SessionPoint.Starts id) SessionStep) (idle pool)

section

variable {backends : List Backend} {fraction : Option ℚ} {id : BackendId}
  {events : List (Event SessionPoint)} {c : Config BackendPool SessionPoint}

/-- **Every run.**  The pool counts the sessions that are dialing the backend. -/
lemma activeCount_eq_dialing (hid : id ∈ backends.map fun b => b.id)
    (hr : SessionRun id (.withMaxEjectedFraction backends fraction) events c) :
    (∃ S : Finset ℕ, ∀ i ∉ S, c.threads i = none) ∧
      c.shared.activeCount id = population (fun q => q.dialed = some id) c.threads := by
  obtain ⟨r, hini⟩ := BackendPool.exists_counts_withMaxEjectedFraction hid fraction
  obtain ⟨⟨S, hS, hc⟩, hs⟩ := ledger_with (J := fun p n => p.Counts id r n) hini
    (fun q hq => SessionPoint.sound_of_starts hq)
    (fun p q p' q' rest hp hq h => h.counts hp hq) hr
  refine ⟨⟨S, hS⟩, ?_⟩
  rw [hc.activeCount_eq, population_congr fun i q hq => (hs i q hq).dialed_iff,
    population_eq_held hS]
  rfl

lemma exists_run_dialing (p : BackendPool) (id : BackendId) (hid : (p.backend id).isSome) :
    ∃ events, SessionRun id p events ⟨(p.trackActive id).1, Function.update (fun _ => none) 0
      (some (.dialing 0 [id] id (p.trackActive id).2))⟩ := by
  have hr : ∀ (ids : List BackendId) (events : List (Event SessionPoint)),
      SessionRun id p events ⟨p, Function.update (fun _ => none) 0 (some (.refreshing ids))⟩ →
      ∃ events', SessionRun id p events' ⟨p, Function.update (fun _ => none) 0
        (some (.refreshing []))⟩ := by
    intro ids
    induction ids with
    | nil => exact fun events h => ⟨events, h⟩
    | cons _ ids ih => exact fun events h => ih _ (h.next (step_only .withoutBreaker))
  have ha : SessionRun id p _ ⟨p, Function.update (fun _ => none) 0 (some .arrived)⟩ :=
    Run.start.next (spawn_only trivial)
  obtain ⟨events, hru⟩ := hr _ _ (ha.next (step_only .admitted))
  exact ⟨_, (((hru.next (step_only .begin)).next (step_only (.picked id))).next
    (step_only (.found hid))).next (step_only .tracked)⟩

/-- The count is right exactly while no session is connected to the backend: a connection that is
in use is not counted. -/
theorem active_count_counts_sessions_iff (hid : id ∈ backends.map fun b => b.id)
    (hrun : SessionRun id (.withMaxEjectedFraction backends fraction) events c) :
    c.shared.activeCount id = population (SessionPoint.Uses id) c.threads ↔
      ∀ i, c.threads i ≠ some (.relaying id) := by
  obtain ⟨⟨S, hS⟩, hc⟩ := activeCount_eq_dialing hid hrun
  have hu : population (SessionPoint.Uses id) c.threads
      = population (fun q => q.dialed = some id) c.threads
        + population (fun q => q = .relaying id) c.threads := by
    refine population_or hS fun q hd hr => ?_
    rw [hr] at hd
    cases hd
  rw [hc, hu, left_eq_add, population_eq_zero_iff hS]
  constructor
  · intro h i hi
    exact h i _ hi rfl
  · rintro h i q hq rfl
    exact h i hq

/-- One session is dialing. -/
theorem active_count_counts_sessions_dialing :
    let pool := BackendPool.new [⟨"a", "10.0.0.1:80", 1, none, 0⟩, ⟨"b", "10.0.0.2:80", 1, none, 0⟩]
    ∃ events c, SessionRun "a" pool events c ∧ c.shared.activeCount "a" = 1 ∧
      c.shared.activeCount "a" = population (SessionPoint.Uses "a") c.threads := by
  intro pool
  obtain ⟨events, hr⟩ := exists_run_dialing pool "a" (by decide)
  refine ⟨events, _, hr, by decide, (active_count_counts_sessions_iff (by decide) hr).mpr ?_⟩
  intro i
  by_cases hi : i = 0
  · subst hi
    simp
  · simp [hi]

/-- A session is connected to `a`, and least connections still prefers `a`. -/
theorem connected_session_not_counted :
    let pool := BackendPool.new [⟨"a", "10.0.0.1:80", 1, none, 0⟩, ⟨"b", "10.0.0.2:80", 1, none, 0⟩]
    ∃ events c, SessionRun "a" pool events c ∧ c.threads 0 = some (.relaying "a") ∧
      population (SessionPoint.Uses "a") c.threads = 1 ∧ c.shared.activeCount "a" = 0 ∧
      Balancer.LeastConnections.pickExcluding c.shared [] = some "a" := by
  intro pool
  obtain ⟨events, hd⟩ := exists_run_dialing pool "a" (by decide)
  have hdi := hd.next (step_only (.dialed true))
  have hr : SessionRun "a" pool _ ⟨_, Function.update (fun _ => none) 0
      (some (.relaying "a"))⟩ := (hdi.next (step_only .unreported)).next (step_only .left)
  refine ⟨_, _, hr, rfl, ?_, by decide, by decide⟩
  have hs : {i | ∃ q ∈ Function.update (fun _ => none) 0 (some (SessionPoint.relaying "a")) i,
      q.Uses "a"} = {0} := by
    ext i
    by_cases hi : i = 0
    · simp [hi, SessionPoint.Uses]
    · simp [hi]
  exact (congrArg Set.ncard hs).trans (Set.ncard_singleton 0)

end

end LoadBalancer.Tcp
