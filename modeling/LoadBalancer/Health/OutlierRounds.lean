import LoadBalancer.Core.Drained
import LoadBalancer.Health.Outlier

/-!
# Rounds of the outlier detector

A round (`OutlierDetector::recompute`, `crates/lb-healthcheck/src/outlier.rs`) takes the counts of
all backends, starts them again at zero and judges the backends with enough requests, if there are
enough of these.  A flagged backend that is not judged is let go after a number of rounds.  The
pool has a flag of its own for each, which the detector asks it to set and clear; the ceiling on
ejections may refuse to set it.

Whether the rate of a backend is below the cutoff is a parameter `below`, any predicate of the
counts of the round.  The order in which a round goes through the backends is that of a hash map,
and the ceiling makes it matter; a round is given the order.
-/

namespace LoadBalancer.Health

open LoadBalancer.Core List

structure Tally where
  id : BackendId
  successes : ℕ
  total : ℕ
  deriving DecidableEq

abbrev BelowCutoff := List Tally → BackendId → Bool

/-- A detector and the pool it ejects from. -/
structure OutlierSystem where
  detector : OutlierDetector
  pool : BackendPool

namespace OutlierConfig

variable (config : OutlierConfig)

def rated (tallies : List Tally) : List Tally := tallies.filter fun t => config.minVolume ≤ t.total

def active (tallies : List Tally) : Bool := config.minHosts ≤ (config.rated tallies).length

def judges (tallies : List Tally) (id : BackendId) : Bool :=
  config.active tallies && (config.rated tallies).any fun t => t.id = id

/-- Rounds that a flag outlives. -/
def countdown : ℕ := max config.ejectTicks 1

end OutlierConfig

namespace BackendCounts

def clear (c : BackendCounts) : BackendCounts := { c with successes := 0, total := 0 }

def judge (config : OutlierConfig) (flagged : Bool) (c : BackendCounts) : BackendCounts :=
  { c with
    flagged := flagged
    cooldownTicksRemaining := if flagged then config.countdown else 0 }

def tick (c : BackendCounts) : BackendCounts :=
  { c with cooldownTicksRemaining := c.cooldownTicksRemaining - 1 }

end BackendCounts

namespace OutlierDetector

variable (d : OutlierDetector)

def update (id : BackendId) (f : BackendCounts → BackendCounts) : OutlierDetector :=
  { d with counts := d.counts.update id f }

def snapshot (order : List BackendId) : List Tally :=
  order.filterMap fun id => (d.counts.find id).map fun c => ⟨id, c.successes, c.total⟩

def clear (order : List BackendId) : OutlierDetector :=
  order.foldl (fun d id => d.update id BackendCounts.clear) d

/-- The round in this order judges the backend. -/
def judgesIn (order : List BackendId) (id : BackendId) : Bool :=
  d.config.judges (d.snapshot order) id

end OutlierDetector

namespace OutlierSystem

def start (config : OutlierConfig) (backends : List Backend) (maxEjectedFraction : Option ℚ) :
    OutlierSystem where
  detector := .new (backends.map fun b => b.id) config
  pool := .withMaxEjectedFraction backends maxEjectedFraction

def takeTurn (below : BelowCutoff) (tallies : List Tally) (nanos : BackendId → ℕ)
    (s : OutlierSystem) (id : BackendId) : OutlierSystem :=
  match s.detector.counts.find id with
  | none => s
  | some c =>
    if s.detector.config.judges tallies id then
      { detector := s.detector.update id (.judge s.detector.config (below tallies id))
        pool := s.pool.setOutlierEjected id (below tallies id) (nanos id) }
    else if c.flagged then
      if c.cooldownTicksRemaining ≤ 1 then
        { detector := s.detector.update id fun c => { c.tick with flagged := false }
          pool := s.pool.setOutlierEjected id false (nanos id) }
      else { s with detector := s.detector.update id .tick }
    else s

def recomputeUpTo (below : BelowCutoff) (order : List BackendId) (nanos : BackendId → ℕ)
    (s : OutlierSystem) (turns : List BackendId) : OutlierSystem :=
  turns.foldl (takeTurn below (s.detector.snapshot order) nanos)
    { s with detector := s.detector.clear order }

def recompute (below : BelowCutoff) (order : List BackendId) (nanos : BackendId → ℕ)
    (s : OutlierSystem) : OutlierSystem :=
  s.recomputeUpTo below order nanos order

end OutlierSystem

inductive OutlierEvent
  | recordOutcome (id : BackendId) (success : Bool)
  | recompute (order : List BackendId) (nanos : BackendId → ℕ)
  | refresh (backends : List Backend)
  | call (e : PoolEvent)

/-- The call writes no outlier flag and changes no membership. -/
def LeavesOutliers : PoolEvent → Prop
  | .setOutlierEjected .. => False
  | .applyResolved _ => False
  | _ => True

namespace OutlierEvent

/-- A round goes once through the backends of the detector, a refresh is given to both, and no one
else writes the flags. -/
def Step (below : BelowCutoff) (s : OutlierSystem) : OutlierEvent → OutlierSystem → Prop
  | recordOutcome id success, s' =>
    { s with detector := s.detector.recordOutcome id success } = s'
  | recompute order nanos, s' =>
    order.Perm s.detector.counts.inner.keys ∧ s.recompute below order nanos = s'
  | refresh backends, s' =>
    ⟨s.detector.reconcile (backends.map fun b => b.id), s.pool.applyResolved backends⟩ = s'
  | call e, s' => LeavesOutliers e ∧ { s with pool := e.apply s.pool } = s'

def isRound : OutlierEvent → Bool
  | recompute .. => true
  | _ => false

/-- The event neither judges the backend nor drops it. -/
def Spares (id : BackendId) (s : OutlierSystem) : OutlierEvent → Prop
  | recompute order _ => s.detector.judgesIn order id = false
  | refresh backends => id ∈ backends.map fun b => b.id
  | _ => True

end OutlierEvent

/-! ## The three things kept for a backend -/

/-- The detector's flag and its countdown. -/
structure Ejection where
  flagged : Bool
  remaining : ℕ
  deriving DecidableEq

def BackendCounts.ejection (c : BackendCounts) : Ejection := ⟨c.flagged, c.cooldownTicksRemaining⟩

namespace OutlierDetector

variable {d : OutlierDetector}

def ejection (d : OutlierDetector) (id : BackendId) : Option Ejection :=
  (d.counts.find id).map BackendCounts.ejection

lemma isOutlier_eq (d : OutlierDetector) (id : BackendId) :
    d.isOutlier id = (d.ejection id).any Ejection.flagged := by
  rw [ejection, BackendMap.find, Option.any_map, Option.any_map]
  rfl

lemma tracks_iff {id : BackendId} : d.tracks id = true ↔ (d.ejection id).isSome = true := by
  rw [ejection, Option.isSome_map]
  exact BackendMap.contains_iff_find

variable {f : BackendCounts → BackendCounts}

lemma ejection_update (hd : d.counts.Sound) {F : Ejection → Ejection}
    (hf : ∀ c, (f c).ejection = F c.ejection) (id id' : BackendId) :
    (d.update id f).ejection id' = if id' = id then (d.ejection id').map F else d.ejection id' := by
  rw [ejection, update, hd.find_update, ejection]
  split_ifs
  · rw [Option.map_map, Option.map_map]
    exact congrArg (Option.map · _) (funext hf)
  · rfl

lemma ejection_update_of_ignores (hd : d.counts.Sound) (hf : ∀ c, (f c).ejection = c.ejection)
    (id id' : BackendId) : (d.update id f).ejection id' = d.ejection id' := by
  rw [ejection_update hd (F := fun e => e) hf, Option.map_id', ite_self]

lemma recordOutcome_eq (d : OutlierDetector) (id : BackendId) (success : Bool) :
    d.recordOutcome id success = d.update id fun c =>
      { c with
        total := (c.total + 1) % 2 ^ 32
        successes := if success then (c.successes + 1) % 2 ^ 32 else c.successes } := by
  unfold recordOutcome update BackendMap.update
  cases d.counts.get id <;> rfl

lemma clear_spec : ∀ (order : List BackendId) {d : OutlierDetector}, d.counts.Sound →
    (d.clear order).config = d.config ∧ (d.clear order).counts.Sound ∧
      (d.clear order).counts.inner = d.counts.inner ∧
      ∀ id, (d.clear order).ejection id = d.ejection id
  | [], _, hd => ⟨rfl, hd, rfl, fun _ => rfl⟩
  | id' :: order, d, hd => by
    obtain ⟨hc, hs, hinn, he⟩ := clear_spec order (d := d.update id' .clear) (hd.update id' _)
    refine ⟨hc, hs, hinn.trans (BackendMap.inner_update ..), fun id => ?_⟩
    exact (he id).trans (ejection_update_of_ignores hd (f := .clear) (fun _ => rfl) id' id)

end OutlierDetector

section

variable {p : BackendPool} {id : BackendId} {ejected : Bool}

lemma flagPart_outlierEjected : FlagPart BackendState.outlierEjected :=
  ⟨fun _ _ => rfl, fun _ _ _ => rfl⟩

lemma isOutlierEjected_eq (p : BackendPool) (id : BackendId) :
    p.isOutlierEjected id = (p.part BackendState.outlierEjected id).any fun ejected => ejected :=
  p.shownFlag_eq_part _ id

lemma part_setOutlierEjected_self (hp : p.Indexed)
    (h : p.part BackendState.outlierEjected id = some ejected) (value : Bool)
    (nanos : ℕ) :
    (p.setOutlierEjected id value nanos).part BackendState.outlierEjected id
      = some (value && (ejected || !p.exceedsEjectionCeiling id)) := by
  by_cases hr : p.Refuses .outlierEjected value id
  · have hpa := hr
    obtain ⟨rfl, hl, he⟩ := hpa
    obtain rfl : ejected = false := Option.some.inj (h.symm.trans hl)
    rw [he]
    exact (BackendPool.part_setEjectionFlag_of_refuses flagPart_outlierEjected hr ..).trans h
  · have hs := hp.part_setEjectionFlag flagPart_outlierEjected (F := fun _ => value)
      (fun _ => rfl) hr nanos id
    rw [if_pos rfl, h] at hs
    refine hs.trans (congrArg some ?_)
    cases value with
    | false => rfl
    | true =>
      cases ejected with
      | true => rfl
      | false =>
        have he : p.exceedsEjectionCeiling id = false :=
          Bool.eq_false_of_not_eq_true fun he => hr ⟨rfl, h, he⟩
        rw [he]
        rfl

lemma part_setOutlierEjected_of_ne (hp : p.Indexed) {id' : BackendId} (hne : id ≠ id')
    (value : Bool) (nanos : ℕ) :
    (p.setOutlierEjected id' value nanos).part BackendState.outlierEjected id
      = p.part BackendState.outlierEjected id :=
  hp.part_setEjectionFlag_of_ne flagPart_outlierEjected (F := fun _ => value) (fun _ => rfl) hne
    nanos

lemma part_outlierEjected_apply (hp : p.Indexed) {e : PoolEvent} (he : LeavesOutliers e)
    (id : BackendId) :
    (e.apply p).part BackendState.outlierEjected id = p.part BackendState.outlierEjected id := by
  cases e with
  | setActiveHealthy id' verdict nanos =>
    refine (hp.part_setActiveHealthy flagPart_outlierEjected (F := fun x => x) (fun _ => rfl)
      id' nanos id).trans ?_
    rw [Option.map_id', ite_self]
  | markAwaitingFirstProbe id' =>
    refine (hp.part_markAwaitingFirstProbe (g := BackendState.outlierEjected) (F := fun x => x)
      (fun _ => rfl) id' id).trans ?_
    rw [Option.map_id', ite_self]
  | setManuallyDrained id' drained nanos =>
    refine (hp.part_setManuallyDrained flagPart_outlierEjected (F := fun x => x) (fun _ => rfl)
      id' nanos id).trans ?_
    rw [Option.map_id', ite_self]
  | setCircuitOpen id' isOpen nanos =>
    exact hp.part_setEjectionFlag_of_ignores flagPart_outlierEjected (fun _ => rfl) id' nanos id
  | setOutlierEjected | applyResolved => exact he.elim

end

/-! ## Turns -/

/-- What a turn makes of the detector's flag and countdown.  `verdict` is that of the round, if the
backend is judged. -/
def Ejection.afterTurn (config : OutlierConfig) (verdict : Option Bool) (e : Ejection) : Ejection :=
  match verdict with
  | some below => ⟨below, if below then config.countdown else 0⟩
  | none => if e.flagged then ⟨decide (1 < e.remaining), e.remaining - 1⟩ else e

/-- What a turn makes of the pool's flag.  `refuses` is whether the ceiling admits no further
ejection. -/
def Ejection.poolFlagAfter (verdict : Option Bool) (e : Ejection) (ejected refuses : Bool) : Bool :=
  match verdict with
  | some below => below && (ejected || !refuses)
  | none => if e.flagged && decide (e.remaining ≤ 1) then false else ejected

def verdictOf (below : BelowCutoff) (config : OutlierConfig) (tallies : List Tally)
    (id : BackendId) : Option Bool :=
  if config.judges tallies id then some (below tallies id) else none

/-- Detector and pool have the same backends, and a backend is ejected only while it is flagged. -/
structure Coupled (config : OutlierConfig) (s : OutlierSystem) : Prop where
  config_eq : s.detector.config = config
  sound : s.detector.counts.Sound
  listing : s.pool.Listing
  same : ∀ id, (s.detector.ejection id).isSome = true ↔ id ∈ s.pool.inner.states
  covered : ∀ id, s.pool.part BackendState.outlierEjected id = some true →
    (s.detector.ejection id).any Ejection.flagged = true

structure Shows (s : OutlierSystem) (id : BackendId) (e : Ejection) (ejected : Bool) : Prop where
  detector : s.detector.ejection id = some e
  pool : s.pool.part BackendState.outlierEjected id = some ejected

/-- Other backends than `id` are left alone. -/
structure LeavesOthers (id : BackendId) (s s' : OutlierSystem) : Prop where
  detector : ∀ id', id' ≠ id → s'.detector.ejection id' = s.detector.ejection id'
  pool : ∀ id', id' ≠ id →
    s'.pool.part BackendState.outlierEjected id' = s.pool.part BackendState.outlierEjected id'

lemma OutlierSystem.states_takeTurn (below : BelowCutoff) (tallies : List Tally)
    (nanos : BackendId → ℕ) (s : OutlierSystem) (id : BackendId) :
    (s.takeTurn below tallies nanos id).pool.inner.states = s.pool.inner.states := by
  have hp : ∀ value, (s.pool.setOutlierEjected id value (nanos id)).inner
      = s.pool.inner := fun value => (BackendPool.FlagCall.setEjectionFlag ..).flagWrite.inner_eq
  unfold takeTurn
  cases s.detector.counts.find id with
  | none => rfl
  | some c =>
    dsimp only
    split_ifs
    · exact congrArg PoolState.states (hp _)
    · exact congrArg PoolState.states (hp _)
    · rfl
    · rfl

section

variable {config : OutlierConfig} {s : OutlierSystem} {id : BackendId} {e : Ejection}
  {ejected : Bool}

variable {s' : OutlierSystem} {ev : OutlierEvent} {below : BelowCutoff} {order : List BackendId}
  (h : Coupled config s) (hshows : Shows s id e ejected) (hstep : ev.Step below s s')

include h

lemma Coupled.exists_shows (hid : id ∈ s.pool.inner.states) :
    ∃ e ejected, Shows s id e ejected := by
  obtain ⟨e, he⟩ := Option.isSome_iff_exists.mp ((h.same id).mpr hid)
  obtain ⟨r, hr⟩ := AList.exists_get_of_mem hid
  refine ⟨e, (s.pool.arena.read r).outlierEjected, he, ?_⟩
  rw [BackendPool.part, hr]
  rfl

omit h

lemma Shows.mem_states (h : Shows s id e ejected) : id ∈ s.pool.inner.states := by
  obtain ⟨r, hg, -⟩ := Option.map_eq_some_iff.mp h.pool
  exact AList.mem_of_get_eq_some hg

lemma Shows.isOutlier (h : Shows s id e ejected) : s.detector.isOutlier id = e.flagged := by
  rw [OutlierDetector.isOutlier_eq, h.detector, Option.any_some]

lemma Shows.isOutlierEjected (h : Shows s id e ejected) :
    s.pool.isOutlierEjected id = ejected := by
  rw [isOutlierEjected_eq, h.pool, Option.any_some]

include h hshows

/-- **A write to one backend**, in the detector and in the pool. -/
lemma Coupled.write {f : BackendCounts → BackendCounts} {F : Ejection → Ejection}
    (hf : ∀ c, (f c).ejection = F c.ejection) {p : BackendPool} {ejected' : Bool}
    (hw : BackendPool.FlagWrite s.pool p)
    (hs : p.part BackendState.outlierEjected id = some ejected')
    (hot : ∀ id', id' ≠ id → p.part BackendState.outlierEjected id' =
      s.pool.part BackendState.outlierEjected id')
    (hc : ejected' = true → (F e).flagged = true) :
    Coupled config ⟨s.detector.update id f, p⟩ ∧
      Shows ⟨s.detector.update id f, p⟩ id (F e) ejected' ∧
      LeavesOthers id s ⟨s.detector.update id f, p⟩ := by
  have he := OutlierDetector.ejection_update h.sound hf id
  have how : (s.detector.update id f).ejection id = some (F e) := by
    rw [he id, if_pos rfl, hshows.detector]
    rfl
  have ho : ∀ id', id' ≠ id →
      (s.detector.update id f).ejection id' = s.detector.ejection id' :=
    fun id' hne => (he id').trans (if_neg hne)
  refine ⟨⟨h.config_eq, h.sound.update id f, hw.listing h.listing, fun id' => ?_,
    fun id' hej => ?_⟩, ⟨how, hs⟩, ho, hot⟩
  · rw [hw.inner_eq, ← h.same id']
    by_cases hid : id' = id
    · rw [hid, how, hshows.detector]
      exact iff_of_true rfl rfl
    · rw [ho id' hid]
  · by_cases hid : id' = id
    · subst hid
      rw [how]
      exact hc (Option.some.inj (hs.symm.trans hej))
    · rw [ho id' hid]
      exact h.covered id' ((hot id' hid).symm.trans hej)

lemma Coupled.takeTurn (below : BelowCutoff) (tallies : List Tally) (nanos : BackendId → ℕ) :
    Coupled config (s.takeTurn below tallies nanos id) ∧
      Shows (s.takeTurn below tallies nanos id) id
        (e.afterTurn config (verdictOf below config tallies id))
        (e.poolFlagAfter (verdictOf below config tallies id) ejected
          (s.pool.exceedsEjectionCeiling id)) ∧
      LeavesOthers id s (s.takeTurn below tallies nanos id) := by
  obtain ⟨c, hfi, hc⟩ := Option.map_eq_some_iff.mp hshows.detector
  have hind := h.listing.indexed
  unfold OutlierSystem.takeTurn verdictOf
  rw [hfi, h.config_eq]
  dsimp only
  by_cases hj : config.judges tallies id = true
  · -- judged: both flags are written
    rw [if_pos hj, if_pos hj]
    exact h.write hshows (F := fun _ => ⟨below tallies id, _⟩) (fun _ => rfl)
      (BackendPool.FlagCall.setEjectionFlag ..).flagWrite
      (part_setOutlierEjected_self hind hshows.pool _ _)
      (fun id' hne => part_setOutlierEjected_of_ne hind hne _ _)
      fun he => (Bool.and_eq_true_iff.mp he).1
  · rw [if_neg hj, if_neg hj]
    have hfl : c.flagged = e.flagged := congrArg Ejection.flagged hc
    have hr : c.cooldownTicksRemaining = e.remaining := congrArg Ejection.remaining hc
    rw [hfl, hr, Ejection.afterTurn, Ejection.poolFlagAfter]
    by_cases hf : e.flagged = true
    · rw [if_pos hf, if_pos hf, hf, Bool.true_and]
      by_cases hl : e.remaining ≤ 1
      · -- the countdown ends: both flags are cleared
        rw [if_pos hl, if_pos (decide_eq_true hl), decide_eq_false (Nat.not_lt.mpr hl)]
        exact h.write hshows (F := fun e => ⟨false, e.remaining - 1⟩) (fun _ => rfl)
          (BackendPool.FlagCall.setEjectionFlag ..).flagWrite
          (part_setOutlierEjected_self hind hshows.pool _ _)
          (fun id' hne => part_setOutlierEjected_of_ne hind hne _ _)
          fun he => absurd he Bool.false_ne_true
      · rw [if_neg hl, if_neg (by rwa [decide_eq_true_eq]), decide_eq_true (Nat.lt_of_not_le hl)]
        have ht := h.write hshows (f := .tick) (F := fun e => ⟨e.flagged, e.remaining - 1⟩)
          (fun _ => rfl) (.refl s.pool) hshows.pool (fun _ _ => rfl) fun _ => hf
        rwa [hf] at ht
    · rw [Bool.eq_false_of_not_eq_true hf]
      exact ⟨h, hshows, fun _ _ => rfl, fun _ _ => rfl⟩

/-! ## Rounds -/

omit h hshows

lemma Coupled.takeTurns_others (below : BelowCutoff) (tallies : List Tally)
    (nanos : BackendId → ℕ) : ∀ (turns : List BackendId) {s : OutlierSystem},
      Coupled config s → (∀ id' ∈ turns, id' ∈ s.pool.inner.states) →
        Coupled config (turns.foldl (OutlierSystem.takeTurn below tallies nanos) s) ∧
          (turns.foldl (OutlierSystem.takeTurn below tallies nanos) s).pool.inner.states
            = s.pool.inner.states ∧
          ∀ id ∉ turns, ∀ e ejected, Shows s id e ejected →
            Shows (turns.foldl (OutlierSystem.takeTurn below tallies nanos) s) id e ejected
  | [], _, h, _ => ⟨h, rfl, fun _ _ _ _ hshows => hshows⟩
  | id' :: turns, s, h, ht => by
    rw [forall_mem_cons] at ht
    obtain ⟨e', ejected', hs'⟩ := h.exists_shows ht.1
    obtain ⟨htu, -, hl⟩ := h.takeTurn hs' below tallies nanos
    have hs := OutlierSystem.states_takeTurn below tallies nanos s id'
    obtain ⟨hc, hsa, ho⟩ := takeTurns_others below tallies nanos turns htu
      (hs ▸ ht.2)
    refine ⟨hc, hsa.trans hs, fun id hid e ejected hshows => ?_⟩
    obtain ⟨hne, hid⟩ := not_or.mp (mt mem_cons.mpr hid)
    exact ho id hid e ejected
      ⟨(hl.detector id hne).trans hshows.detector, (hl.pool id hne).trans hshows.pool⟩

include h

lemma Coupled.clear (order : List BackendId) :
    Coupled config { s with detector := s.detector.clear order } ∧
      ∀ id e ejected, Shows s id e ejected →
        Shows { s with detector := s.detector.clear order } id e ejected := by
  obtain ⟨hc, hs, -, he⟩ := OutlierDetector.clear_spec order h.sound
  refine ⟨⟨hc.trans h.config_eq, hs, h.listing, fun id => ?_, fun id => ?_⟩,
    fun id e ejected hshows => ⟨(he id).trans hshows.detector, hshows.pool⟩⟩
  · rw [he id]
    exact h.same id
  · rw [he id]
    exact h.covered id

lemma Coupled.mem_order_iff (ho : order.Perm s.detector.counts.inner.keys) (id : BackendId) :
    id ∈ order ↔ id ∈ s.pool.inner.states := by
  rw [ho.mem_iff, ← h.same id, ← OutlierDetector.tracks_iff]
  exact BackendMap.contains_iff.symm

lemma Coupled.recompute (below : BelowCutoff) (ho : order.Perm s.detector.counts.inner.keys)
    (nanos : BackendId → ℕ) : Coupled config (s.recompute below order nanos) :=
  ((h.clear order).1.takeTurns_others below _ nanos order
    fun id => (h.mem_order_iff ho id).mp).1

include hshows

/-- **A round**, seen by one backend: it takes its turn once, and the ceiling counts in the pool as
the turns before it left it. -/
lemma Coupled.shows_recompute (below : BelowCutoff)
    (ho : order.Perm s.detector.counts.inner.keys) (nanos : BackendId → ℕ)
    {turns rest : List BackendId} (hs : order = turns ++ id :: rest) :
    Shows (s.recompute below order nanos) id
      (e.afterTurn config (verdictOf below config (s.detector.snapshot order) id))
      (e.poolFlagAfter (verdictOf below config (s.detector.snapshot order) id) ejected
        ((s.recomputeUpTo below order nanos turns).pool.exceedsEjectionCeiling id)) := by
  obtain ⟨hcl, hc⟩ := h.clear order
  have hn : (turns ++ id :: rest).Nodup := hs ▸ ho.nodup_iff.mpr s.detector.counts.inner.keys_nodup
  have hm : ∀ id' ∈ turns ++ id :: rest, id' ∈ s.pool.inner.states :=
    fun id' hid' => (h.mem_order_iff ho id').mp (hs ▸ hid')
  rw [forall_mem_append, forall_mem_cons] at hm
  rw [nodup_append, nodup_cons] at hn
  -- the turns before, the turn of the backend, the turns after
  obtain ⟨hb, hst, hot⟩ := hcl.takeTurns_others below (s.detector.snapshot order)
    nanos turns hm.1
  have hfi : id ∉ turns := fun hid => hn.2.2 id hid id mem_cons_self rfl
  have hsh' := hot id hfi e ejected (hc id e ejected hshows)
  obtain ⟨ht, how, -⟩ := hb.takeTurn hsh' below (s.detector.snapshot order) nanos
  have hs' := (OutlierSystem.states_takeTurn below (s.detector.snapshot order) nanos
    (turns.foldl (OutlierSystem.takeTurn below (s.detector.snapshot order) nanos)
      { s with detector := s.detector.clear order }) id).trans hst
  obtain ⟨-, -, ha⟩ := ht.takeTurns_others below (s.detector.snapshot order) nanos
    rest (hs' ▸ hm.2.2)
  have hf := ha id hn.2.1.1 _ _ how
  rw [← foldl_cons, ← foldl_append, ← hs] at hf
  exact hf

/-! ## Runs -/

omit h hshows

lemma Coupled.start (config : OutlierConfig) (backends : List Backend)
    (maxEjectedFraction : Option ℚ) :
    Coupled config (.start config backends maxEjectedFraction) where
  config_eq := rfl
  sound := .collect _
  listing := BackendPool.listing_withMaxEjectedFraction backends maxEjectedFraction
  same id := by
    have hl := BackendPool.listing_withMaxEjectedFraction backends maxEjectedFraction
    have ht : (OutlierDetector.new (backends.map fun b => b.id) config).tracks id = true ↔
        id ∈ backends.map fun b => b.id := by
      refine (BackendMap.contains_collect _).trans ?_
      rw [map_map]
      exact iff_of_eq (congrArg (id ∈ ·) (map_id _))
    rw [← OutlierDetector.tracks_iff]
    exact ht.trans ⟨hl.indexed.listed id, hl.known id⟩
  covered id he := by
    obtain ⟨r, hg, hr⟩ := Option.map_eq_some_iff.mp he
    obtain ⟨b, -, hf⟩ := BackendPool.exists_fresh_of_get hg
    have hr : ((BackendPool.withMaxEjectedFraction backends maxEjectedFraction).arena.read
      r).outlierEjected = true := hr
    rw [hf] at hr
    cases hr

include h

lemma Coupled.recordOutcome (id' : BackendId) (success : Bool) :
    Coupled config { s with detector := s.detector.recordOutcome id' success } ∧
      ∀ id, (s.detector.recordOutcome id' success).ejection id = s.detector.ejection id := by
  have he : ∀ id, (s.detector.recordOutcome id' success).ejection id
      = s.detector.ejection id := by
    intro id
    rw [OutlierDetector.recordOutcome_eq]
    refine OutlierDetector.ejection_update_of_ignores h.sound ?_ id' id
    exact fun _ => rfl
  refine ⟨⟨?_, ?_, h.listing, fun id => ?_, fun id => ?_⟩, he⟩
  · rw [OutlierDetector.recordOutcome_eq]
    exact h.config_eq
  · rw [OutlierDetector.recordOutcome_eq]
    exact h.sound.update id' _
  · rw [he id]
    exact h.same id
  · rw [he id]
    exact h.covered id

lemma Coupled.call {e : PoolEvent} (he : LeavesOutliers e) :
    Coupled config { s with pool := e.apply s.pool } := by
  have hw : BackendPool.FlagWrite s.pool (e.apply s.pool) := by
    refine .apply ?_
    cases e with
    | applyResolved backends => exact he.elim
    | _ => rfl
  refine ⟨h.config_eq, h.sound, hw.listing h.listing, fun id => ?_, fun id hej => ?_⟩
  · rw [hw.inner_eq]
    exact h.same id
  · rw [part_outlierEjected_apply h.listing.indexed he] at hej
    exact h.covered id hej

lemma ejection_reconcile (live : List BackendId) (id : BackendId) :
    (s.detector.reconcile live).ejection id
      = if id ∈ live then some ((s.detector.ejection id).getD ⟨false, 0⟩) else none := by
  rw [OutlierDetector.ejection, OutlierDetector.reconcile, h.sound.find_reconcile,
    OutlierDetector.ejection]
  split_ifs
  · cases s.detector.counts.find id <;> rfl
  · rfl

lemma Coupled.refresh (backends : List Backend) :
    Coupled config ⟨s.detector.reconcile (backends.map fun b => b.id),
      s.pool.applyResolved backends⟩ := by
  have hl := h.listing.applyResolved backends
  have hm : ∀ id, id ∈ (s.pool.applyResolved backends).inner.states ↔
      id ∈ backends.map fun b => b.id := fun id =>
    (Iff.intro (hl.known id) (hl.indexed.listed id)).trans
      (h.listing.indexed.mem_order_applyResolved backends id)
  refine ⟨h.config_eq, h.sound.reconcile _ _, hl, fun id => ?_, fun id he => ?_⟩
  · rw [ejection_reconcile h, hm id]
    split_ifs with hid
    · exact iff_of_true rfl hid
    · exact iff_of_false Bool.false_ne_true hid
  · have hid : id ∈ backends.map fun b => b.id := by
      obtain ⟨r, hg, -⟩ := Option.map_eq_some_iff.mp he
      exact (hm id).mp (AList.mem_of_get_eq_some hg)
    rw [ejection_reconcile h, if_pos hid]
    by_cases hk : id ∈ s.pool.inner.states
    · -- a backend that stays keeps both
      rw [h.listing.indexed.part_applyResolved flagPart_outlierEjected.describe hk
        hid] at he
      have hc := h.covered id he
      cases hej : s.detector.ejection id with
      | none =>
        rw [hej] at hc
        cases hc
      | some e =>
        rw [hej] at hc
        exact hc
    · obtain ⟨b, -, hf⟩ := h.listing.indexed.part_applyResolved_new
        flagPart_outlierEjected.describe hk he
      cases hf

include hstep

lemma Coupled.step : Coupled config s' := by
  cases ev with
  | recordOutcome id success =>
    obtain rfl := hstep
    exact (h.recordOutcome id success).1
  | recompute order nanos =>
    obtain ⟨ho, rfl⟩ := hstep
    exact h.recompute below ho nanos
  | refresh backends =>
    obtain rfl := hstep
    exact h.refresh backends
  | call e =>
    obtain ⟨he, rfl⟩ := hstep
    exact h.call he

include hshows

lemma Coupled.shows_step (hs : ev.Spares id s) (hr : ev.isRound = false) :
    Shows s' id e ejected := by
  cases ev with
  | recordOutcome id' success =>
    obtain rfl := hstep
    exact ⟨((h.recordOutcome id' success).2 id).trans hshows.detector, hshows.pool⟩
  | recompute order nanos => cases hr
  | refresh backends =>
    obtain rfl := hstep
    have hid : id ∈ backends.map fun b => b.id := hs
    refine ⟨?_, ?_⟩
    · rw [ejection_reconcile h, if_pos hid, hshows.detector]
      rfl
    · exact (h.listing.indexed.part_applyResolved flagPart_outlierEjected.describe hshows.mem_states
        hid).trans hshows.pool
  | call e =>
    obtain ⟨he, rfl⟩ := hstep
    exact ⟨hshows.detector, (part_outlierEjected_apply h.listing.indexed he id).trans hshows.pool⟩

lemma Coupled.shows_unjudged (hs : ev.Spares id s) (hr : ev.isRound = true) :
    Shows s' id (e.afterTurn config none) (e.poolFlagAfter none ejected false) := by
  cases ev with
  | recompute order nanos =>
    obtain ⟨ho, rfl⟩ := hstep
    obtain ⟨turns, rest, hsp⟩ := append_of_mem
      ((h.mem_order_iff ho id).mpr hshows.mem_states)
    have ht := h.shows_recompute hshows below ho nanos hsp
    have hu : config.judges (s.detector.snapshot order) id = false := h.config_eq ▸ hs
    rw [verdictOf, if_neg (by rw [hu]; exact Bool.false_ne_true)] at ht
    exact ht
  | _ => cases hr

omit hstep hshows

/-- **The countdown.**  A flagged backend that is not judged keeps its flags for as many rounds as
the countdown says, and then loses both. -/
lemma Coupled.countdown {n : ℕ} (hn : 0 < n) (hshows : Shows s id ⟨true, n⟩ ejected)
    {later : List OutlierEvent}
    (hru : Run (fun s ev s' => ev.Spares id s ∧ ev.Step below s s') s later s') :
    Coupled config s' ∧
      if later.countP OutlierEvent.isRound < n then
        Shows s' id ⟨true, n - later.countP OutlierEvent.isRound⟩ ejected
      else ∃ m, Shows s' id ⟨false, m⟩ false := by
  induction hru with
  | start => exact ⟨h, by rwa [countP_nil, if_pos hn]⟩
  | @next later s₁ s₂ ev _ hstep ih =>
    obtain ⟨hc, hs⟩ := ih
    refine ⟨hc.step hstep.2, ?_⟩
    rw [countP_append, countP_singleton]
    cases hr : ev.isRound with
    | false =>
      rw [if_neg Bool.false_ne_true, Nat.add_zero]
      split_ifs at hs ⊢
      · exact hc.shows_step hs hstep.2 hstep.1 hr
      · obtain ⟨m, hm⟩ := hs
        exact ⟨m, hc.shows_step hm hstep.2 hstep.1 hr⟩
    | true =>
      rw [if_pos rfl]
      by_cases hlt : later.countP OutlierEvent.isRound < n
      · rw [if_pos hlt] at hs
        have ht := hc.shows_unjudged hs hstep.2 hstep.1 hr
        rw [Ejection.afterTurn, Ejection.poolFlagAfter] at ht
        dsimp only at ht
        by_cases hl : later.countP OutlierEvent.isRound + 1 < n
        · rw [if_pos hl]
          rwa [decide_eq_true (by omega), decide_eq_false (by omega), Bool.and_false] at ht
        · rw [if_neg hl]
          rw [decide_eq_false (by omega), decide_eq_true (by omega)] at ht
          exact ⟨_, ht⟩
      · rw [if_neg hlt] at hs
        obtain ⟨m, hm⟩ := hs
        rw [if_neg (by omega)]
        exact ⟨m, hc.shows_unjudged hm hstep.2 hstep.1 hr⟩

end

lemma Coupled.exists_shows_of_judges {config : OutlierConfig} {s : OutlierSystem}
    (h : Coupled config s) {order : List BackendId} {id : BackendId}
    (hj : s.detector.judgesIn order id = true) : ∃ e ejected, Shows s id e ejected := by
  obtain ⟨-, ha⟩ := Bool.and_eq_true_iff.mp hj
  obtain ⟨t, ht, hid⟩ := any_eq_true.mp ha
  obtain ⟨id', -, hf⟩ := mem_filterMap.mp (mem_of_mem_filter ht)
  obtain ⟨c, hc, rfl⟩ := Option.map_eq_some_iff.mp hf
  obtain rfl : id' = id := of_decide_eq_true hid
  refine h.exists_shows ((h.same id').mp ?_)
  rw [OutlierDetector.ejection, hc]
  rfl

/-- **Outlier ejections end.**  A backend is ejected only while the detector has it flagged.  A
round that judges a backend flags it or lets it go at once.  If it flags it, then it asks the pool
again to eject it, which the pool does unless the ceiling refuses now; and over later rounds that
do not judge it the backend stays as it is for `countdown` rounds and is cleared in both by the
last of them. -/
theorem outlier_ejections_end (below : BelowCutoff) (config : OutlierConfig)
    {backends : List Backend} {maxEjectedFraction : Option ℚ} {events : List OutlierEvent}
    {s : OutlierSystem}
    (hrun : Run (OutlierEvent.Step below) (.start config backends maxEjectedFraction) events s) :
    (∀ id, s.pool.isOutlierEjected id = true → s.detector.isOutlier id = true) ∧
    ∀ order nanos s₁, OutlierEvent.Step below s (.recompute order nanos) s₁ →
      ∀ id, s.detector.judgesIn order id = true →
        s₁.detector.isOutlier id = below (s.detector.snapshot order) id ∧
        (below (s.detector.snapshot order) id = false → s₁.pool.isOutlierEjected id = false) ∧
        (below (s.detector.snapshot order) id = true →
          (∀ turns rest, order = turns ++ id :: rest →
            s₁.pool.isOutlierEjected id = (s.pool.isOutlierEjected id ||
              !(s.recomputeUpTo below order nanos turns).pool.exceedsEjectionCeiling id)) ∧
          ∀ later s₂, Run (fun s ev s' => ev.Spares id s ∧ ev.Step below s s') s₁ later s₂ →
            if later.countP OutlierEvent.isRound < config.countdown then
              s₂.detector.isOutlier id = true ∧
                s₂.pool.isOutlierEjected id = s₁.pool.isOutlierEjected id
            else
              s₂.detector.isOutlier id = false ∧ s₂.pool.isOutlierEjected id = false) := by
  have hc : Coupled config s :=
    hrun.invariant (fun _ _ _ hstep h => h.step hstep) (.start config backends maxEjectedFraction)
  constructor
  · intro id he
    rw [isOutlierEjected_eq, Option.any_eq_true] at he
    obtain ⟨ejected, hp, rfl⟩ := he
    rw [OutlierDetector.isOutlier_eq]
    exact hc.covered id hp
  · rintro order nanos s₁ ⟨ho, rfl⟩ id hj
    obtain ⟨e, ejected, hshows⟩ := hc.exists_shows_of_judges hj
    have hv : verdictOf below config (s.detector.snapshot order) id
        = some (below (s.detector.snapshot order) id) := if_pos (hc.config_eq ▸ hj)
    have hr : ∀ turns rest, order = turns ++ id :: rest → Shows _ id _ _ :=
      fun turns rest hs => hc.shows_recompute hshows below ho nanos hs
    rw [hv] at hr
    obtain ⟨turns, rest, hs⟩ := append_of_mem
      ((hc.mem_order_iff ho id).mpr hshows.mem_states)
    have ha := hr turns rest hs
    refine ⟨ha.isOutlier, fun hn => ?_, fun hb => ⟨fun turns rest hs => ?_,
      fun later s₂ hla => ?_⟩⟩
    · rw [ha.isOutlierEjected, Ejection.poolFlagAfter, hn, Bool.false_and]
    · rw [(hr turns rest hs).isOutlierEjected, Ejection.poolFlagAfter, hb,
        Bool.true_and, hshows.isOutlierEjected]
    · rw [hb, Ejection.afterTurn] at ha
      have hpo : 0 < config.countdown := lt_max_of_lt_right Nat.one_pos
      obtain ⟨-, hl⟩ := (hc.recompute below ho nanos).countdown hpo ha
        hla
      split_ifs at hl ⊢
      · exact ⟨hl.isOutlier, hl.isOutlierEjected.trans ha.isOutlierEjected.symm⟩
      · obtain ⟨m, hm⟩ := hl
        exact ⟨hm.isOutlier, hm.isOutlierEjected⟩

/-- A backend that fails every request is below the cutoff. -/
def allFailed : BelowCutoff := fun tallies id => tallies.any fun t => t.id = id && t.successes = 0

def oneTick : OutlierConfig := ⟨1, 1, .finite 2, 1⟩

def oneFailure : OutlierSystem :=
  let s := OutlierSystem.start oneTick [⟨"a", "10.0.0.1:80", 1, none, 0⟩] none
  { s with detector := s.detector.recordOutcome "a" false }

/-- The next round ejects it, and the one after it lets it go. -/
theorem outlier_ejections_end_one_failure :
    let ejecting := oneFailure.recompute allFailed ["a"] fun _ => 1
    let ended := ejecting.recompute allFailed ["a"] fun _ => 2
    ejecting.pool.isOutlierEjected "a" = true ∧ ended.detector.isOutlier "a" = false ∧
      ended.pool.isOutlierEjected "a" = false := by
  have hru : Run (OutlierEvent.Step allFailed) (.start oneTick _ none)
      [.recordOutcome "a" false] oneFailure := Run.start.next rfl
  have hk : oneFailure.detector.counts.inner.keys = ["a"] := by decide +kernel
  have hr := (outlier_ejections_end allFailed oneTick hru).2 ["a"] (fun _ => 1) _
    ⟨hk ▸ .refl _, rfl⟩ "a" (by decide +kernel)
  obtain ⟨-, -, hb⟩ := hr
  obtain ⟨he, hc⟩ := hb (by decide +kernel)
  refine ⟨(he [] [] rfl).trans (by decide +kernel), ?_⟩
  have hk' : (oneFailure.recompute allFailed ["a"] fun _ => 1).detector.counts.inner.keys
      = ["a"] := by decide +kernel
  have hs : (oneFailure.recompute allFailed ["a"] fun _ => 1).detector.judgesIn ["a"] "a"
      = false := by decide +kernel
  have hen := hc [.recompute ["a"] fun _ => 2] _
    (Run.start.next ⟨hs, hk' ▸ .refl _, rfl⟩)
  rwa [if_neg (by decide)] at hen

end LoadBalancer.Health
