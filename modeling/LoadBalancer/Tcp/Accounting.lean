import LoadBalancer.Proxy.Accounting
import LoadBalancer.Server.DnsRuntime
import LoadBalancer.Tcp.Session

/-!
# What is recorded about dials

`handle_connection` (`crates/lb-tcp/src/session.rs`) as the list of what one session does to the
objects that it shares with others, in the order of the source.  What the limiters, the balancer and
the pool answer and what becomes of a dial are inputs; the backends that were tried are known to the
balancer only, so they do not show.

A session keeps its book as a request does: after each dial the breaker, the outlier detector and
the counters of the backend are told once.
-/

namespace LoadBalancer.Tcp

open LoadBalancer.Core LoadBalancer.Health LoadBalancer.Proxy Bookkeeping List

/-! ## A session and its effects -/

inductive SessionCounter
  | connectionsTotal
  | ratelimitRejectedLocal
  | ratelimitRejectedCluster
  deriving DecidableEq

inductive SessionEffect
  | count (counter : SessionCounter)
  /-- The gauge of active connections goes up. -/
  | opened
  /-- It goes down when the session ends. -/
  | closed
  | refresh (id : BackendId)
  | trackActive (id : BackendId)
  | releaseActive (id : BackendId)
  | establish (id : BackendId)
  | countBackend (id : BackendId) (counter : BackendCounter)
  | balancerLatency (id : BackendId) (elapsed : ℕ)
  | balancerOutcome (id : BackendId) (success : Bool)
  | outlierOutcome (id : BackendId) (success : Bool)
  | recordSuccess (id : BackendId)
  | recordFailure (id : BackendId)
  | syncCircuit (id : BackendId)
  deriving DecidableEq

/-- What a round of the loop is told by its surroundings. -/
structure DialInputs where
  pick : Option BackendId
  /-- The pool still has the backend. -/
  known : Bool
  /-- `establish` returns a stream. -/
  established : Bool
  elapsed : ℕ
  /-- The backend has counters. -/
  counted : Bool
  breaker : Option BreakerSettings
  /-- The connections that are being dialed when the stream is there. -/
  inFlight : ℕ

structure SessionInputs where
  /-- The listener's own rate limiter allows the connection. -/
  allowed : Bool
  /-- The answer of the cluster, if there is one. -/
  cluster : Option Bool
  /-- The backends of the pool that have a breaker. -/
  refreshed : List BackendId
  /-- The pool has an outlier detector. -/
  outlier : Bool
  dials : ℕ → DialInputs
  /-- The bytes that were relayed, if both directions have ended cleanly. -/
  relayed : Option (ℕ × ℕ)

inductive Round
  | noBackend
  | again
  | connected
  deriving DecidableEq

section

variable (outlier : Bool) (inp : DialInputs)

/-- What the breaker is told about a connection: it can be there and still count as a failure. -/
def establishedOutcome (id : BackendId) (breaker : BreakerSettings) : SessionEffect :=
  if CircuitBreaker.exceedsLatencyThreshold breaker inp.elapsed ||
      CircuitBreaker.exceedsConcurrencyThreshold breaker inp.inFlight then .recordFailure id
  else .recordSuccess id

def recordDial (id : BackendId) : List SessionEffect :=
  List.flatten [
    if inp.counted then
      [.countBackend id (if inp.established then .requestsSuccess else .requestsFailure)]
    else [],
    [.balancerLatency id inp.elapsed, .balancerOutcome id inp.established],
    if outlier then [.outlierOutcome id inp.established] else [],
    inp.breaker.elim [] fun breaker =>
      [if inp.established then establishedOutcome inp id breaker else .recordFailure id,
        .syncCircuit id]]

def dialRound : List SessionEffect × Round :=
  match inp.pick with
  | none => ([], .noBackend)
  | some id =>
    if !inp.known then ([], .again)
    else (.trackActive id :: .establish id :: (recordDial outlier inp id ++ [.releaseActive id]),
      if inp.established then .connected else .again)

end

def relay (relayed : Option (ℕ × ℕ)) : ConnectionOutcome :=
  relayed.elim .aborted fun bytes => .completed bytes.1 bytes.2

def connect (inputs : SessionInputs) : List SessionEffect × ConnectionOutcome :=
  match dialRound inputs.outlier (inputs.dials 0) with
  | (effects, .noBackend) => (effects, .noBackend)
  | (effects, .connected) => (effects, relay inputs.relayed)
  | (effects, .again) =>
    match dialRound inputs.outlier (inputs.dials 1) with
    | (effects', .noBackend) => (effects ++ effects', .noBackend)
    | (effects', .connected) => (effects ++ effects', relay inputs.relayed)
    | (effects', .again) => (effects ++ effects', .connectFailed)

def handleConnection (inputs : SessionInputs) : List SessionEffect × ConnectionOutcome :=
  let start : List SessionEffect := [.count .connectionsTotal, .opened]
  if !inputs.allowed then (start ++ [.count .ratelimitRejectedLocal, .closed], .rateLimited)
  else if inputs.cluster = some false then
    (start ++ [.count .ratelimitRejectedCluster, .closed], .rateLimited)
  else
    let handled := connect inputs
    (start ++ inputs.refreshed.map .refresh ++ handled.1 ++ [.closed], handled.2)

/-! ## The book of a session -/

def SessionEffect.entry : SessionEffect → Option (Entry BackendId Note)
  | establish id => some (.call id)
  | countBackend id counter => some (.note id (.counter counter))
  | outlierOutcome id success => some (.note id (.outlier success))
  | recordSuccess id => some (.note id (.breaker true))
  | recordFailure id => some (.note id (.breaker false))
  | _ => none

def DialInputs.LooksUp (inp : DialInputs) (maps : BackendMaps) : Prop :=
  ∀ id ∈ inp.pick, inp.breaker = maps.breakers id ∧ inp.counted = maps.counters id

lemma entries_recordDial (outlier : Bool) (inp : DialInputs) (id : BackendId) :
    ∃ healthy, (recordDial outlier inp id).filterMap SessionEffect.entry
      = (callNotes inp.counted outlier inp.breaker
          (if inp.established then .requestsSuccess else .requestsFailure) inp.established
          healthy).map (.note id) := by
  have hb : ∃ healthy, (inp.breaker.elim [] fun breaker =>
      [if inp.established then establishedOutcome inp id breaker else .recordFailure id,
        .syncCircuit id]).filterMap SessionEffect.entry
      = (inp.breaker.elim [] fun _ => [Note.breaker healthy]).map (.note id) := by
    cases inp.breaker with
    | none => exact ⟨true, rfl⟩
    | some breaker =>
      simp only [Option.elim_some, establishedOutcome]
      split_ifs
      · exact ⟨false, rfl⟩
      · exact ⟨true, rfl⟩
      · exact ⟨false, rfl⟩
  obtain ⟨healthy, hb⟩ := hb
  refine ⟨healthy, ?_⟩
  rw [recordDial]
  simp only [flatten_cons, flatten_nil, append_nil, filterMap_append, hb]
  cases inp.counted <;> cases outlier <;> rfl

variable {maps : BackendMaps} {inputs : SessionInputs} (h : ∀ n, (inputs.dials n).LooksUp maps)

lemma kept_dialRound (outlier : Bool) {inp : DialInputs} (h : inp.LooksUp maps) :
    Kept (maps.Accounted outlier)
      ((dialRound outlier inp).1.filterMap SessionEffect.entry) := by
  unfold dialRound
  cases hp : inp.pick with
  | none => exact .nil
  | some id =>
    dsimp only
    by_cases hk : (!inp.known) = true
    · rw [if_pos hk]
      exact .nil
    · rw [if_neg hk]
      obtain ⟨hb, hc⟩ := h id hp
      obtain ⟨healthy, he⟩ := entries_recordDial outlier inp id
      have hen : SessionEffect.entry (.establish id) = some (.call id) := rfl
      have hr : [SessionEffect.releaseActive id].filterMap SessionEffect.entry = [] := rfl
      rw [filterMap_cons_none rfl, filterMap_cons_some hen, filterMap_append,
        he, hr, append_nil, hb, hc]
      exact .single (maps.accounted_callNotes id outlier _ _ healthy)

include h

lemma kept_connect :
    Kept (maps.Accounted inputs.outlier)
      ((connect inputs).1.filterMap SessionEffect.entry) := by
  have hr : ∀ n, Kept (maps.Accounted inputs.outlier)
      ((dialRound inputs.outlier (inputs.dials n)).1.filterMap SessionEffect.entry) :=
    fun n => kept_dialRound inputs.outlier (h n)
  have hf := hr 0
  have hs := hr 1
  unfold connect
  generalize dialRound inputs.outlier (inputs.dials 0) = first at hf
  generalize dialRound inputs.outlier (inputs.dials 1) = second at hs
  obtain ⟨effects, _ | _ | _⟩ := first
  · exact hf
  · have hb : Kept (maps.Accounted inputs.outlier)
        ((effects ++ second.1).filterMap SessionEffect.entry) := by
      rw [filterMap_append]
      exact hf.append hs
    obtain ⟨effects', _ | _ | _⟩ := second <;> exact hb
  · exact hf

/-- **Every session.**  The book of a session is kept, whatever answers it gets. -/
lemma kept_handleConnection :
    Kept (maps.Accounted inputs.outlier)
      ((handleConnection inputs).1.filterMap SessionEffect.entry) := by
  have hr : (inputs.refreshed.map SessionEffect.refresh).filterMap SessionEffect.entry
      = [] := by
    rw [filterMap_eq_nil_iff]
    intro e he
    obtain ⟨id, -, rfl⟩ := mem_map.mp he
    rfl
  have hc : [SessionEffect.closed].filterMap SessionEffect.entry = [] := rfl
  have hs : [SessionEffect.count .connectionsTotal, .opened].filterMap SessionEffect.entry
      = [] := rfl
  unfold handleConnection
  split_ifs
  · exact .nil
  · exact .nil
  · rw [filterMap_append, filterMap_append, filterMap_append, hs, hr, hc, append_nil]
    exact kept_connect h

omit h

/-- The tables of a listener, in which requests and sessions look their backends up. -/
def wiredMaps {c : Server.ListenerCore} (h : c.Wired) : BackendMaps where
  breakers id := (c.circuitBreakers.find id).map (·.settings)
  counters := c.backendMetrics.contains
  counted id hid := by
    rw [Option.isSome_map, BackendMap.find, Option.isSome_map] at hid
    exact h.counted id hid

/-- The tables of a listener after any rounds of its DNS poller. -/
def listenerMaps (scaled : HealthCheckConfig → ℕ → ℕ)
    (l : ListenerConfig SocketAddr ListenerSettings)
    (previous : Option Server.PreviousListenerState) (nanos : ℕ) (dns : DnsDiscoveryConfig)
    (rounds : List Server.DnsRound) : BackendMaps :=
  wiredMaps (Server.wired_polls scaled dns
    (Server.wired_buildListenerCore scaled l previous nanos) rounds).1

/-- **Every attempt is accounted for once.**  Each call is followed, before the next, by one record
for the breaker of the backend that was called, one for its counters and one for the outlier
detector of its pool, and there are no other records. -/
theorem attempts_accounted_once (maps : BackendMaps) :
    (∀ (s : ProxySettings) (req : HttpRequest) (inputs : RequestInputs),
      (∀ n, (inputs.attempts n).LooksUp maps) →
      Kept (maps.Accounted inputs.outlier)
        ((handleInner s req inputs).1.filterMap Effect.entry)) ∧
    (∀ inputs : SessionInputs, (∀ n, (inputs.dials n).LooksUp maps) →
      Kept (maps.Accounted inputs.outlier)
        ((handleConnection inputs).1.filterMap SessionEffect.entry)) :=
  ⟨fun s req _ h => kept_handleInner s req h, fun _ h => kept_handleConnection h⟩

/-! ### Two dials -/

def allCounted : BackendMaps where
  breakers _ := some (onceSettings 10 10)
  counters _ := true
  counted _ _ := rfl

def twoDials : SessionInputs where
  allowed := true
  cluster := none
  refreshed := ["a", "b"]
  outlier := true
  dials n :=
    { pick := some (if n = 0 then "a" else "b")
      known := true
      established := decide (n ≠ 0)
      elapsed := 5
      counted := true
      breaker := some (onceSettings 10 10)
      inFlight := 1 }
  relayed := some (3, 4)

theorem attempts_accounted_once_two_dials :
    (∀ n, (twoDials.dials n).LooksUp allCounted) ∧
      (handleConnection twoDials).1.filterMap SessionEffect.entry =
        [.call "a", .note "a" (.counter .requestsFailure), .note "a" (.outlier false),
          .note "a" (.breaker false), .call "b", .note "b" (.counter .requestsSuccess),
          .note "b" (.outlier true), .note "b" (.breaker true)] ∧
      Kept (allCounted.Accounted true)
        ((handleConnection twoDials).1.filterMap SessionEffect.entry) := by
  have hl : ∀ n, (twoDials.dials n).LooksUp allCounted := fun n id _ => ⟨rfl, rfl⟩
  exact ⟨hl, rfl, (attempts_accounted_once allCounted).2 twoDials hl⟩

end LoadBalancer.Tcp
