import Mathlib

/-!
# Circuit breakers

A `CircuitBreaker` (`crates/lb-healthcheck/src/circuit_breaker.rs`) takes a backend out after
repeated failures.  It trips from `closed` to `opened`, lets probing traffic through once a
cooldown is over (`halfOpen`), and closes again after enough successes.  Each trip lengthens the
next cooldown, until the breaker has stayed closed for a while.

Clock readings are in nanoseconds since the breaker's creation and are arguments of the calls;
a call reads the clock at most once.  The cooldown that belongs to a streak of trips is computed
in floating point by the source and is a function of the settings here.
-/

namespace LoadBalancer.Health

inductive CircuitState
  | closed
  | opened
  | halfOpen
  deriving DecidableEq, Repr

/-- `NOT_OPENED`, the value of `opened_at_nanos` before the first trip. -/
def notOpened : ℕ := 2 ^ 64 - 1

/-- What a breaker is configured with; times are in nanoseconds. -/
structure BreakerSettings where
  failureThreshold : ℕ
  failureThreshold_lt : failureThreshold < 2 ^ 32
  cooldown : ℕ
  halfOpenSuccessesRequired : ℕ
  halfOpenSuccessesRequired_lt : halfOpenSuccessesRequired < 2 ^ 32
  /-- The cooldown after so many trips in a row. -/
  scaledCooldown : ℕ → ℕ
  flapStreakReset : ℕ
  unhealthyLatency : Option ℕ
  unhealthyRequestCount : Option ℕ

/-- A breaker that trips at the first failure, has the same cooldown after every trip, and starts
a new streak after `reset`. -/
def quickSettings (cooldown reset : ℕ) (required : Fin (2 ^ 32)) : BreakerSettings where
  failureThreshold := 1
  failureThreshold_lt := by decide
  cooldown := cooldown
  halfOpenSuccessesRequired := required
  halfOpenSuccessesRequired_lt := required.isLt
  scaledCooldown := fun _ => cooldown
  flapStreakReset := reset
  unhealthyLatency := none
  unhealthyRequestCount := none

instance : Inhabited BreakerSettings := ⟨quickSettings 0 0 1⟩

def onceSettings (cooldown reset : ℕ) : BreakerSettings := quickSettings cooldown reset 1

def thirdFailureSettings : BreakerSettings :=
  { quickSettings 1000 0 1 with failureThreshold := 3, failureThreshold_lt := by decide }

/-- The atomics of a breaker. -/
structure CircuitBreaker where
  consecutiveFailures : ℕ
  consecutiveSuccesses : ℕ
  state : CircuitState
  openedAtNanos : ℕ
  tripStreak : ℕ
  closedSinceNanos : ℕ
  deriving DecidableEq, Repr

namespace CircuitBreaker

def new : CircuitBreaker where
  consecutiveFailures := 0
  consecutiveSuccesses := 0
  state := .closed
  openedAtNanos := notOpened
  tripStreak := 0
  closedSinceNanos := 0

instance : Inhabited CircuitBreaker := ⟨new⟩

variable (cfg : BreakerSettings) (b : CircuitBreaker)

def exceedsLatencyThreshold (latency : ℕ) : Bool :=
  cfg.unhealthyLatency.any fun threshold => threshold ≤ latency

def exceedsConcurrencyThreshold (inFlight : ℕ) : Bool :=
  cfg.unhealthyRequestCount.any fun threshold => threshold ≤ inFlight

/-- The cooldown after a streak of trips. -/
def effectiveCooldown (tripStreak : ℕ) : ℕ := cfg.scaledCooldown (max tripStreak 1)

/-- An open breaker whose cooldown is over goes half open. -/
def maybeTransitionToHalfOpen (now : ℕ) : CircuitBreaker :=
  if b.state ≠ .opened then b
  else if b.openedAtNanos = notOpened then b
  else if effectiveCooldown cfg b.tripStreak ≤ now - b.openedAtNanos then
    { b with state := .halfOpen }
  else b

/-- The call `state`, which may move the breaker before it answers. -/
def queryState (now : ℕ) : CircuitState × CircuitBreaker :=
  let b := b.maybeTransitionToHalfOpen cfg now
  (b.state, b)

def recordSuccess (now : ℕ) : CircuitBreaker :=
  let b := { b with consecutiveFailures := 0 }
  if b.state ≠ .halfOpen then b
  else
    let successes := (b.consecutiveSuccesses + 1) % 2 ^ 32
    if cfg.halfOpenSuccessesRequired ≤ successes then
      { b with
        state := .closed
        consecutiveSuccesses := 0
        closedSinceNanos := now % 2 ^ 64 }
    else { b with consecutiveSuccesses := successes }

/-- What a successful trip stores. -/
def tripped (now : ℕ) : CircuitBreaker :=
  let nanos := now % 2 ^ 64
  let streak := if cfg.flapStreakReset ≤ nanos - b.closedSinceNanos then 0 else b.tripStreak
  { b with
    state := .opened
    openedAtNanos := nanos
    consecutiveFailures := 0
    consecutiveSuccesses := 0
    tripStreak := (streak + 1) % 2 ^ 32 }

/-- A trip, if the state is still the expected one. -/
def tryTrip (expected : CircuitState) (now : ℕ) : CircuitBreaker :=
  if b.state ≠ expected then b else b.tripped cfg now

def recordFailure (now : ℕ) : CircuitBreaker :=
  match b.state with
  | .opened => b
  | .halfOpen => b.tryTrip cfg .halfOpen now
  | .closed =>
    let failures := (b.consecutiveFailures + 1) % 2 ^ 32
    let b := { b with consecutiveFailures := failures }
    if cfg.failureThreshold ≤ failures then b.tryTrip cfg .closed now else b

end CircuitBreaker

end LoadBalancer.Health
