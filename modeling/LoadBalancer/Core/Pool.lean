import LoadBalancer.Lib.Arena
import LoadBalancer.Lib.Table

/-!
# Backend pools

A `BackendPool` (`crates/lb-core/src/pool.rs`) knows the backends of one listener and which of them
may be picked.  Four flags exclude a backend: failed health checks, an open circuit, an ejection as
an outlier, and an operator's drain.  A backend found by DNS is set apart until its first probe,
and priorities form tiers of which only the best is used.

Each backend has one `BackendState`, shared by pointer between the pool's list and its map and kept
when a DNS answer names the backend again.  Here such a pointer is a reference into the pool's
`Arena`.  Calls are sequential; readings of the pool's stopwatch are arguments, and the share of
backends that may be ejected is a rational number.
-/

namespace LoadBalancer.Core

abbrev BackendId := String

/-- An address in text form; the pool only compares addresses. -/
abbrev SocketAddr := String

structure Backend where
  id : BackendId
  address : SocketAddr
  weight : ℕ
  serverName : Option String
  priority : ℕ
  deriving DecidableEq, Inhabited

structure BackendState where
  id : BackendId
  backend : Backend
  activeHealthy : Bool
  circuitOpen : Bool
  manuallyDrained : Bool
  outlierEjected : Bool
  activeConns : ℕ
  awaitingFirstProbe : Bool
  becameEligibleNanos : ℕ
  eligibilityGeneration : ℕ
  deriving DecidableEq, Inhabited

namespace BackendState

def fresh (awaitingFirstProbe : Bool) (b : Backend) : BackendState where
  id := b.id
  backend := b
  activeHealthy := true
  circuitOpen := false
  manuallyDrained := false
  outlierEjected := false
  activeConns := 0
  awaitingFirstProbe := awaitingFirstProbe
  becameEligibleNanos := 0
  eligibilityGeneration := 0

def passesFlags (s : BackendState) : Bool :=
  s.activeHealthy && !s.circuitOpen && !s.manuallyDrained && !s.outlierEjected

def isConfirmed (s : BackendState) : Bool := s.passesFlags && !s.awaitingFirstProbe

def priority (s : BackendState) : ℕ := s.backend.priority

end BackendState

abbrev StateRef := ℕ

structure PoolState where
  order : List BackendId
  ordered : List StateRef
  states : Table BackendId StateRef
  tiered : Bool

structure BackendPool where
  arena : Arena BackendState
  inner : PoolState
  maxEjectedFraction : Option ℚ
  version : ℕ

def hasSeveralTiers (states : List BackendState) : Bool :=
  match states.map BackendState.priority with
  | [] => false
  | first :: rest => rest.any fun p => p ≠ first

/-! ## Building the membership -/

/-- The loop that both `from_backends` and `apply_resolved` run over a list of backends; they
differ in where the state of a backend comes from. -/
def collect (slot : Arena BackendState → Backend → StateRef × Arena BackendState) :
    List Backend → Arena BackendState → List StateRef × Arena BackendState
  | [], m => ([], m)
  | b :: rest, m =>
    let (r, m) := slot m b
    let (refs, m) := collect slot rest m
    (r :: refs, m)

def PoolState.build (m : Arena BackendState) (backends : List Backend) (refs : List StateRef) :
    PoolState where
  order := backends.map fun b => b.id
  ordered := refs
  states := ((backends.map fun b => b.id).zip refs).foldl (fun t x => t.insert x.1 x.2) ∅
  tiered := hasSeveralTiers (refs.map m.read)

namespace BackendPool

/-- The slots of `from_backends`: startup backends need no first probe. -/
def startupSlot (m : Arena BackendState) (b : Backend) : StateRef × Arena BackendState :=
  m.alloc (.fresh false b)

def withMaxEjectedFraction (backends : List Backend) (maxEjectedFraction : Option ℚ) :
    BackendPool :=
  let (refs, m) := collect startupSlot backends .empty
  { arena := m
    inner := .build m backends refs
    maxEjectedFraction := maxEjectedFraction
    version := 0 }

def new (backends : List Backend) : BackendPool := withMaxEjectedFraction backends none

variable (p : BackendPool)

def members : List BackendState := p.inner.ordered.map p.arena.read

def modify (r : StateRef) (f : BackendState → BackendState) : BackendPool :=
  { p with arena := p.arena.modify r f }

def backend (id : BackendId) : Option Backend :=
  (p.inner.states.get id).map fun r => (p.arena.read r).backend

/-- The flags an operator is shown, each `false` for an unknown id. -/
def shownFlag (flag : BackendState → Bool) (id : BackendId) : Bool :=
  (p.inner.states.get id).any fun r => flag (p.arena.read r)

def isActiveHealthy (id : BackendId) : Bool := p.shownFlag BackendState.activeHealthy id

def isCircuitOpen (id : BackendId) : Bool := p.shownFlag BackendState.circuitOpen id

def isManuallyDrained (id : BackendId) : Bool := p.shownFlag BackendState.manuallyDrained id

def isOutlierEjected (id : BackendId) : Bool := p.shownFlag BackendState.outlierEjected id

def isAwaitingFirstProbe (id : BackendId) : Bool := p.shownFlag BackendState.awaitingFirstProbe id

def allBackendIds : List BackendId := p.inner.order

/-! ## Load -/

def activeCount (id : BackendId) : ℕ :=
  (p.inner.states.get id).elim 0 fun r => (p.arena.read r).activeConns

def eligibilityGeneration (id : BackendId) : ℕ :=
  (p.inner.states.get id).elim 0 fun r => (p.arena.read r).eligibilityGeneration

/-- Counts a request as in flight.  The guard that is returned holds the state it was counted
in, if the backend is known. -/
def trackActive (id : BackendId) : BackendPool × Option StateRef :=
  match p.inner.states.get id with
  | none => (p, none)
  | some r => (p.modify r fun s => { s with activeConns := s.activeConns + 1 }, some r)

/-- Drops a guard: the count goes down in the state the guard holds, whether or not a refresh has
dropped the backend since. -/
def releaseActive (guard : Option StateRef) : BackendPool :=
  match guard with
  | none => p
  | some r => p.modify r fun s => { s with activeConns := s.activeConns - 1 }

/-! ## Flags -/

/-- `nanos` is the pool's stopwatch. -/
def stampIfBecameEligible (r : StateRef) (before : Bool) (nanos : ℕ) : BackendPool :=
  if !before && (p.arena.read r).isConfirmed then
    p.modify r fun s => { s with
      becameEligibleNanos := max (nanos % 2 ^ 64) 1
      eligibilityGeneration := (s.eligibilityGeneration + 1) % 2 ^ 64 }
  else p

def setActiveHealthy (id : BackendId) (healthy : Bool) (nanos : ℕ) : BackendPool :=
  match p.inner.states.get id with
  | none => p
  | some r =>
    let before := (p.arena.read r).isConfirmed
    (p.modify r fun s => { s with
      activeHealthy := healthy
      awaitingFirstProbe := false }).stampIfBecameEligible r before nanos

def markAwaitingFirstProbe (id : BackendId) : BackendPool :=
  match p.inner.states.get id with
  | none => p
  | some r => p.modify r fun s => { s with awaitingFirstProbe := true }

def setManuallyDrained (id : BackendId) (drained : Bool) (nanos : ℕ) : BackendPool :=
  match p.inner.states.get id with
  | none => p
  | some r =>
    let before := (p.arena.read r).isConfirmed
    (p.modify r fun s => { s with
      manuallyDrained := drained }).stampIfBecameEligible r before nanos

end BackendPool

/-- The two flags that count as an ejection. -/
inductive EjectionFlag
  | circuitOpen
  | outlierEjected
  deriving DecidableEq

namespace EjectionFlag

def load : EjectionFlag → BackendState → Bool
  | circuitOpen, s => s.circuitOpen
  | outlierEjected, s => s.outlierEjected

def store : EjectionFlag → Bool → BackendState → BackendState
  | circuitOpen, value, s => { s with circuitOpen := value }
  | outlierEjected, value, s => { s with outlierEjected := value }

end EjectionFlag

namespace BackendPool

variable (p : BackendPool)

/-- Whether one more ejection would pass the configured share of the pool. -/
def exceedsEjectionCeiling (id : BackendId) : Bool :=
  match p.maxEjectedFraction, p.inner.states.get id with
  | some maxFraction, some r =>
    if (p.arena.read r).circuitOpen || (p.arena.read r).outlierEjected then false
    else if p.inner.order.length = 0 then false
    else
      let currentlyEjected := (p.inner.states.entries.filter fun item =>
        (p.arena.read item.2).circuitOpen || (p.arena.read item.2).outlierEjected).length
      maxFraction < ((currentlyEjected + 1 : ℕ) : ℚ) / (p.inner.order.length : ℚ)
  | _, _ => false

def storeEjectionFlag (id : BackendId) (value : Bool) (flag : EjectionFlag) : BackendPool :=
  match p.inner.states.get id with
  | none => p
  | some r =>
    if !value || p.maxEjectedFraction.isNone || flag.load (p.arena.read r) then
      p.modify r (flag.store value)
    else if p.exceedsEjectionCeiling id then p
    else p.modify r (flag.store true)

def setEjectionFlag (id : BackendId) (value : Bool) (flag : EjectionFlag) (nanos : ℕ) :
    BackendPool :=
  match p.inner.states.get id with
  | none => p.storeEjectionFlag id value flag
  | some r =>
    let before := (p.arena.read r).isConfirmed
    (p.storeEjectionFlag id value flag).stampIfBecameEligible r before nanos

def setCircuitOpen (id : BackendId) (isOpen : Bool) (nanos : ℕ) : BackendPool :=
  p.setEjectionFlag id isOpen .circuitOpen nanos

def setOutlierEjected (id : BackendId) (ejected : Bool) (nanos : ℕ) : BackendPool :=
  p.setEjectionFlag id ejected .outlierEjected nanos

/-! ## Membership -/

/-- The slots of `apply_resolved`: a backend the pool knows keeps its state. -/
def resolvedSlot (m : Arena BackendState) (b : Backend) : StateRef × Arena BackendState :=
  match p.inner.states.get b.id with
  | some existing => (existing, m.modify existing fun s => { s with backend := b })
  | none => m.alloc (.fresh true b)

def sortById (backends : List Backend) : List Backend :=
  backends.insertionSort fun a b => a.id ≤ b.id

def resolvedSetUnchanged (backends : List Backend) : Bool :=
  if p.inner.order.length ≠ backends.length then false
  else
    let newSorted := sortById backends
    let prevSorted := sortById (p.inner.order.filterMap fun id => p.backend id)
    (newSorted.zip prevSorted).all fun x => x.1 = x.2

def applyResolved (backends : List Backend) : BackendPool :=
  if p.resolvedSetUnchanged backends then p
  else
    let (refs, m) := collect p.resolvedSlot backends p.arena
    { p with arena := m, inner := .build m backends refs, version := (p.version + 1) % 2 ^ 64 }

/-! ## Who may be picked -/

def activeTier : Option ℕ :=
  if !p.inner.tiered then none
  else
    let confirmedExists := p.members.any BackendState.isConfirmed
    ((p.members.filter fun s => s.passesFlags && (!s.awaitingFirstProbe || !confirmedExists)).map
      BackendState.priority).min?

def isEligible (id : BackendId) : Bool :=
  match p.inner.states.get id with
  | none => false
  | some r =>
    let s := p.arena.read r
    if !s.passesFlags then false
    else
      let eligible := !s.awaitingFirstProbe || !p.members.any BackendState.isConfirmed
      eligible && p.activeTier.all fun tier => s.priority = tier

def eligibleMap {R : Type} (f : BackendState → R) : List R :=
  let confirmed := p.members.filter BackendState.isConfirmed
  let eligible :=
    if confirmed.isEmpty then p.members.filter BackendState.passesFlags else confirmed
  let eligible :=
    if p.inner.tiered then
      match (eligible.map BackendState.priority).min? with
      | some best => eligible.filter fun s => s.priority = best
      | none => eligible
    else eligible
  eligible.map f

def eligibleBackends : List BackendId := p.eligibleMap fun s => s.id

def eligibleWithWeights : List (BackendId × ℕ) := p.eligibleMap fun s => (s.id, s.backend.weight)

end BackendPool

end LoadBalancer.Core
