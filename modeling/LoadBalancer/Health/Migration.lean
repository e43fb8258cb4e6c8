import LoadBalancer.Health.BreakerRun

/-!
# Breakers that move to another listener

A breaker keeps its times as nanoseconds since its creation.  A reload captures the breakers of a
listener (`snapshot`) and makes new ones of them with new settings (`from_snapshot`); the instant of
creation is captured as well, so the times keep their meaning.  Clock readings are nanoseconds of
the process's clock here.
-/

namespace LoadBalancer.Health

structure CircuitBreakerSnapshot where
  creation : ℕ
  atomics : CircuitBreaker
  deriving DecidableEq

structure ClockedBreaker where
  creation : ℕ
  settings : BreakerSettings
  atomics : CircuitBreaker
  deriving Inhabited

namespace ClockedBreaker

def new (settings : BreakerSettings) (now : ℕ) : ClockedBreaker := ⟨now, settings, .new⟩

def fromSnapshot (settings : BreakerSettings) (s : CircuitBreakerSnapshot) : ClockedBreaker :=
  ⟨s.creation, settings, s.atomics⟩

def snapshot (b : ClockedBreaker) : CircuitBreakerSnapshot := ⟨b.creation, b.atomics⟩

/-- A call; `duration_since` is zero for a reading before the creation. -/
def apply (b : ClockedBreaker) (call : BreakerCall) (now : ℕ) : ClockedBreaker :=
  { b with atomics := b.atomics.apply b.settings call (now - b.creation) }

/-- The states a breaker goes through, one for each call. -/
def transitions (b : ClockedBreaker) : List (BreakerCall × ℕ) → List CircuitState
  | [] => []
  | (call, now) :: rest => (b.apply call now).atomics.state :: (b.apply call now).transitions rest

def withSettings (b : ClockedBreaker) (settings : BreakerSettings) : ClockedBreaker :=
  { b with settings := settings }

end ClockedBreaker

end LoadBalancer.Health
