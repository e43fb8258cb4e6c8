import LoadBalancer.Core.BackendMap
import LoadBalancer.Lib.Float64

/-!
# Outlier detection

An `OutlierDetector` (`crates/lb-healthcheck/src/outlier.rs`) counts the outcomes of each backend
of a pool; a recurring round compares them.  Here are the counters and who has them; the rounds are
in `Health.OutlierRounds`.
-/

namespace LoadBalancer.Health

open LoadBalancer.Core

/-- The settings of a detector. -/
structure OutlierConfig where
  minVolume : ℕ
  minHosts : ℕ
  stddevFactor : Float64
  ejectTicks : ℕ

/-- The counters of a backend in the current window. -/
structure BackendCounts where
  successes : ℕ
  total : ℕ
  flagged : Bool
  cooldownTicksRemaining : ℕ
  deriving DecidableEq

def BackendCounts.new : BackendCounts := ⟨0, 0, false, 0⟩

instance : Inhabited BackendCounts := ⟨.new⟩

/-- The counters by backend. -/
structure OutlierDetector where
  config : OutlierConfig
  counts : BackendMap BackendCounts

namespace OutlierDetector

def new (ids : List BackendId) (config : OutlierConfig) : OutlierDetector where
  config := config
  counts := .collect (ids.map fun id => (id, .new))

variable (d : OutlierDetector)

/-- Counters for the live backends only; those that stay keep theirs. -/
def reconcile (live : List BackendId) : OutlierDetector :=
  { d with counts := d.counts.reconcile live fun _ => .new }

def tracks (id : BackendId) : Bool := d.counts.contains id

/-- Counts an outcome, if the backend is tracked. -/
def recordOutcome (id : BackendId) (success : Bool) : OutlierDetector :=
  match d.counts.get id with
  | none => d
  | some r =>
    { d with counts.arena := d.counts.arena.modify r fun c =>
        { c with
          total := (c.total + 1) % 2 ^ 32
          successes := if success then (c.successes + 1) % 2 ^ 32 else c.successes } }

/-- The verdict of the last round. -/
def isOutlier (id : BackendId) : Bool :=
  (d.counts.get id).any fun r => (d.counts.arena.read r).flagged

end OutlierDetector

end LoadBalancer.Health
