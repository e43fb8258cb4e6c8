import LoadBalancer.Core.Drained

/-!
# Requests in flight while backends come and go

A guard is counted in the state that its backend had when it was taken, and a backend that leaves
the pool and comes back gets a new state.  So a pool whose membership keeps changing is followed
together with two things the code does not store: the live guards, each with the backend and the
stay it was taken in, and how often each backend has entered the pool.
-/

namespace LoadBalancer.Core

open List

/-- A live guard: `state` is what it holds, `stay` says in which stay of its backend it was
taken. -/
structure LiveGuard where
  id : BackendId
  stay : ℕ
  state : Option StateRef
  deriving DecidableEq

/-- A pool with its live guards.  `stays` is how often a backend has entered it since the start. -/
structure TrackedPool where
  pool : BackendPool
  guards : List LiveGuard
  stays : BackendId → ℕ

inductive TrackEvent
  | trackActive (id : BackendId)
  | dropGuard (guard : LiveGuard)
  | call (e : PoolEvent)

namespace TrackedPool

/-- A new pool: the backends it starts with are in their first stay. -/
def start (backends : List Backend) (maxEjectedFraction : Option ℚ) : TrackedPool :=
  ⟨.withMaxEjectedFraction backends maxEjectedFraction, [], fun _ => 0⟩

def Enters (p p' : BackendPool) (id : BackendId) : Prop :=
  id ∉ p.allBackendIds ∧ id ∈ p'.allBackendIds

instance (p p' : BackendPool) (id : BackendId) : Decidable (Enters p p' id) :=
  inferInstanceAs (Decidable (_ ∧ _))

def guardsOfStay (w : TrackedPool) (id : BackendId) : List LiveGuard :=
  w.guards.filter fun g => g.id = id ∧ g.stay = w.stays id

end TrackedPool

namespace TrackEvent

def apply (w : TrackedPool) : TrackEvent → TrackedPool
  | trackActive id =>
    { w with
      pool := (w.pool.trackActive id).1
      guards := ⟨id, w.stays id, (w.pool.trackActive id).2⟩ :: w.guards }
  | dropGuard guard =>
    { w with
      pool := w.pool.releaseActive guard.state
      guards := w.guards.erase guard }
  | call e =>
    { w with
      pool := e.apply w.pool
      stays := fun id =>
        if TrackedPool.Enters w.pool (e.apply w.pool) id then w.stays id + 1 else w.stays id }

def Possible (w : TrackedPool) : TrackEvent → Prop
  | dropGuard guard => guard ∈ w.guards
  | _ => True

def Step (w : TrackedPool) (e : TrackEvent) (w' : TrackedPool) : Prop :=
  e.Possible w ∧ e.apply w = w'

lemma Step.trackActive (w : TrackedPool) (id : BackendId) :
    (TrackEvent.trackActive id).Step w ((TrackEvent.trackActive id).apply w) := ⟨trivial, rfl⟩

lemma Step.call (w : TrackedPool) (e : PoolEvent) :
    (TrackEvent.call e).Step w ((TrackEvent.call e).apply w) := ⟨trivial, rfl⟩

end TrackEvent

/-- The ledger of a pool.  A guard holds the state its backend has now exactly if it was taken in
the present stay. -/
structure TrackedPool.Ledger (w : TrackedPool) : Prop where
  listing : w.pool.Listing
  labelled : ∀ g ∈ w.guards, ∀ r, g.state = some r → Labelled w.pool.arena r g.id
  counted : ∀ r < w.pool.arena.next,
    (w.pool.arena.read r).activeConns = w.guards.countP fun g => g.state = some r
  past : ∀ g ∈ w.guards, g.stay ≤ w.stays g.id
  held : ∀ g ∈ w.guards, ∀ r, w.pool.inner.states.get g.id = some r →
    (g.state = some r ↔ g.stay = w.stays g.id)

namespace BackendPool

variable {p : BackendPool}

variable {r : StateRef}

lemma Indexed.labelled_applyResolved (hp : p.Indexed) (backends : List Backend) {id : BackendId}
    (h : Labelled p.arena r id) : Labelled (p.applyResolved backends).arena r id := by
  unfold BackendPool.applyResolved
  split_ifs
  · exact h
  · exact (labelsSlot_resolved p).collect_keeps backends p.arena hp.sound r id h

lemma activeConns_applyResolved_new (p : BackendPool) {backends : List Backend}
    (hle : p.arena.next ≤ r) (hlt : r < (p.applyResolved backends).arena.next) :
    ((p.applyResolved backends).arena.read r).activeConns = 0 := by
  unfold applyResolved at hlt ⊢
  split_ifs at hlt ⊢
  · exact absurd hlt (Nat.not_lt.mpr hle)
  · obtain ⟨b, -, hf⟩ := part_collect_new flagPart_activeConns.describe p backends hle hlt
    exact hf

lemma FlagWrite.labelled {p' : BackendPool} (h : FlagWrite p p') {id : BackendId}
    (hr : Labelled p.arena r id) : Labelled p'.arena r id := by
  rw [Labelled, h.next_eq, h.id_eq, h.backend_eq]
  exact hr

end BackendPool

namespace TrackedPool.Ledger

variable {w : TrackedPool}

variable {id : BackendId} {g : LiveGuard} (h : w.Ledger) (backends : List Backend)

lemma of_start (fraction : Option ℚ) :
    (start backends fraction).Ledger where
  listing := BackendPool.listing_withMaxEjectedFraction backends fraction
  labelled _ hg := absurd hg not_mem_nil
  counted := BackendPool.collect_startup_forall (Q := fun s => s.activeConns = 0) backends
    (fun _ _ => rfl) (by simp [Arena.empty])
  past _ hg := absurd hg not_mem_nil
  held _ hg := absurd hg not_mem_nil

include h

lemma trackActive (id : BackendId) : ((TrackEvent.trackActive id).apply w).Ledger := by
  have hw := BackendPool.FlagWrite.trackActive w.pool id
  refine ⟨hw.listing h.listing, ?_, ?_, ?_, ?_⟩
  all_goals dsimp only [TrackEvent.apply]
  · refine forall_mem_cons.mpr ⟨fun r hr => ?_, fun g hg r hr => ?_⟩
    · rw [BackendPool.trackActive_snd] at hr
      exact hw.labelled (h.listing.indexed.sound id r hr)
    · exact hw.labelled (h.labelled g hg r hr)
  · intro r hr
    rw [hw.next_eq] at hr
    rw [BackendPool.activeConns_trackActive, h.counted r hr, countP_cons]
    simp only [decide_eq_true_eq]
  · exact forall_mem_cons.mpr ⟨le_rfl, h.past⟩
  · rw [hw.inner_eq]
    refine forall_mem_cons.mpr ⟨fun r hr => ?_, h.held⟩
    rw [BackendPool.trackActive_snd]
    exact iff_of_true hr rfl

lemma dropGuard {guard : LiveGuard} (hgu : guard ∈ w.guards) :
    ((TrackEvent.dropGuard guard).apply w).Ledger := by
  have hw := BackendPool.FlagWrite.releaseActive w.pool guard.state
  have hs : ∀ g ∈ w.guards.erase guard, g ∈ w.guards := fun g hg => mem_of_mem_erase hg
  refine ⟨hw.listing h.listing, ?_, ?_, ?_, ?_⟩
  all_goals dsimp only [TrackEvent.apply]
  · intro g hg r hr
    exact hw.labelled (h.labelled g (hs g hg) r hr)
  · intro r hr
    rw [hw.next_eq] at hr
    rw [BackendPool.activeConns_releaseActive, h.counted r hr, countP_erase]
    simp only [hgu, true_and, decide_eq_true_eq]
  · exact fun g hg => h.past g (hs g hg)
  · rw [hw.inner_eq]
    exact fun g hg => h.held g (hs g hg)

lemma flagCall {e : PoolEvent} (he : e.isRefresh = false) :
    ((TrackEvent.call e).apply w).Ledger := by
  have hw : BackendPool.FlagWrite w.pool (e.apply w.pool) := .apply he
  have hs : ∀ id, ((TrackEvent.call e).apply w).stays id = w.stays id :=
    fun id => if_neg fun hen => hen.1 (by
      simpa only [BackendPool.allBackendIds, hw.inner_eq] using hen.2)
  refine ⟨hw.listing h.listing, fun g hg r hr => ?_, fun r hr => ?_, fun g hg => ?_,
    fun g hg => ?_⟩
  · exact hw.labelled (h.labelled g hg r hr)
  · have hlt : r < w.pool.arena.next := hw.next_eq ▸ hr
    exact (w.pool.activeConns_apply e hlt).trans (h.counted r hlt)
  · rw [hs]
    exact h.past g hg
  · rw [hs]
    change ∀ r, (e.apply w.pool).inner.states.get g.id = some r → _
    rw [hw.inner_eq]
    exact h.held g hg

/-- A refresh: a backend that stays keeps its state and its stay, one that enters gets a state
that no guard holds, and begins a stay in which no guard has been taken. -/
lemma applyResolved : ((TrackEvent.call (.applyResolved backends)).apply w).Ledger := by
  have hle : ∀ id, w.stays id ≤ ((TrackEvent.call (.applyResolved backends)).apply w).stays id := by
    intro id
    dsimp only [TrackEvent.apply]
    split_ifs
    · exact Nat.le_succ _
    · exact le_rfl
  have hl := h.listing.applyResolved backends
  refine ⟨hl, fun g hg r hr => ?_, fun r hr => ?_,
    fun g hg => (h.past g hg).trans (hle g.id), fun g hg r hr => ?_⟩
  · exact h.listing.indexed.labelled_applyResolved backends (h.labelled g hg r hr)
  · by_cases hlt : r < w.pool.arena.next
    · exact (w.pool.activeConns_apply (.applyResolved backends) hlt).trans (h.counted r hlt)
    · -- a new state, which no guard can hold
      have hne := Nat.le_of_not_lt hlt
      refine (w.pool.activeConns_applyResolved_new hne hr).trans (Eq.symm ?_)
      refine countP_eq_zero.mpr fun g hg => ?_
      rw [decide_eq_true_eq]
      exact fun hs => hlt (h.labelled g hg r hs).1
  · have hm := hl.known g.id (AList.mem_of_get_eq_some hr)
    rcases w.pool.get_applyResolved hr with hsa | ⟨hn, hne⟩
    · have hin := h.listing.known g.id (AList.mem_of_get_eq_some hsa)
      have hst : ((TrackEvent.call (.applyResolved backends)).apply w).stays g.id
          = w.stays g.id := if_neg fun he => he.1 hin
      rw [hst]
      exact h.held g hg r hsa
    · have ho : g.id ∉ w.pool.inner.order := fun hin => by
        obtain ⟨r', hr'⟩ := AList.exists_get_of_mem (h.listing.indexed.listed g.id hin)
        rw [hn] at hr'
        cases hr'
      have hst : ((TrackEvent.call (.applyResolved backends)).apply w).stays g.id
          = w.stays g.id + 1 := if_pos ⟨ho, hm⟩
      have hp := h.past g hg
      rw [hst]
      refine iff_of_false (fun hs => ?_) (by omega)
      exact absurd (h.labelled g hg r hs).1 (Nat.not_lt.mpr hne)

lemma step {e : TrackEvent} {w' : TrackedPool} (hs : e.Step w w') : w'.Ledger := by
  obtain ⟨hp, rfl⟩ := hs
  cases e with
  | trackActive id => exact h.trackActive id
  | dropGuard guard => exact h.dropGuard hp
  | call e =>
    cases hr : e.isRefresh with
    | false => exact h.flagCall hr
    | true =>
      cases e with
      | applyResolved backends => exact h.applyResolved backends
      | _ => cases hr

lemma state_iff (hg : g ∈ w.guards) {r : StateRef} (hge : w.pool.inner.states.get id = some r) :
    g.state = some r ↔ g.id = id ∧ g.stay = w.stays id := by
  constructor
  · intro hs
    obtain rfl : g.id = id :=
      (h.labelled g hg r hs).2.1.symm.trans (h.listing.indexed.sound id r hge).2.1
    exact ⟨rfl, (h.held g hg r hge).mp hs⟩
  · rintro ⟨rfl, hst⟩
    exact (h.held g hg r hge).mpr hst

lemma activeCount_eq (hid : id ∈ w.pool.allBackendIds) :
    w.pool.activeCount id = (w.guardsOfStay id).length := by
  obtain ⟨r, hge⟩ := AList.exists_get_of_mem (h.listing.indexed.listed id hid)
  have hr := (h.listing.indexed.sound id r hge).1
  rw [BackendPool.activeCount, hge, Option.elim_some, h.counted r hr, guardsOfStay,
    ← countP_eq_length_filter]
  refine countP_congr fun g hg => ?_
  simp only [decide_eq_true_eq]
  exact h.state_iff hg hge

lemma activeConns_pos (hg : g ∈ w.guards) {r : StateRef} (hs : g.state = some r) :
    0 < (w.pool.arena.read r).activeConns := by
  rw [h.counted r (h.labelled g hg r hs).1]
  exact countP_pos_iff.mpr ⟨g, hg, by simpa using hs⟩

lemma activeCount_releaseActive (hg : g ∈ w.guards) (ho : g ∉ w.guardsOfStay id) :
    (w.pool.releaseActive g.state).activeCount id = w.pool.activeCount id := by
  unfold BackendPool.activeCount
  rw [(BackendPool.FlagWrite.releaseActive w.pool g.state).inner_eq]
  cases hge : w.pool.inner.states.get id with
  | none => rfl
  | some r =>
    have hs : g.state ≠ some r := fun hs =>
      ho (mem_filter.mpr ⟨hg, by simpa using (h.state_iff hg hge).mp hs⟩)
    rw [Option.elim_some, Option.elim_some, BackendPool.activeConns_releaseActive, if_neg hs,
      Nat.sub_zero]

end TrackedPool.Ledger

/-- **Counts survive membership churn.**  A backend that is present has counted exactly the live
guards taken since its present stay began; dropping any other guard leaves its count; and no guard
that is dropped finds a count of zero. -/
theorem active_count_of_stay {backends : List Backend} {fraction : Option ℚ}
    {events : List TrackEvent} {w : TrackedPool}
    (hrun : Run TrackEvent.Step (.start backends fraction) events w) :
    (∀ id ∈ w.pool.allBackendIds, w.pool.activeCount id = (w.guardsOfStay id).length) ∧
      (∀ guard ∈ w.guards, ∀ id, guard ∉ w.guardsOfStay id →
        (w.pool.releaseActive guard.state).activeCount id = w.pool.activeCount id) ∧
      ∀ guard ∈ w.guards, ∀ r, guard.state = some r → 0 < (w.pool.arena.read r).activeConns := by
  have hl : w.Ledger := hrun.invariant (fun _ _ _ hst h => h.step hst) (.of_start backends fraction)
  exact ⟨fun id hid => hl.activeCount_eq hid,
    fun guard hg id ho => hl.activeCount_releaseActive hg ho,
    fun guard hg r hs => hl.activeConns_pos hg hs⟩

/-- A backend leaves while a request to it is in flight and comes back: only the request of the
new stay is counted. -/
theorem active_count_of_stay_reentered :
    let b : Backend := ⟨"a", "10.0.0.1:80", 1, none, 0⟩
    let left := (TrackEvent.call (.applyResolved [])).apply
      ((TrackEvent.trackActive "a").apply (.start [b] none))
    let w := (TrackEvent.trackActive "a").apply
      ((TrackEvent.call (.applyResolved [b])).apply left)
    w.guards.length = 2 ∧ w.pool.activeCount "a" = 1 ∧
      ∀ guard ∈ w.guards, ∀ r, guard.state = some r → 0 < (w.pool.arena.read r).activeConns := by
  intro b left w
  have hs : Run TrackEvent.Step (.start [b] none) [] (.start [b] none) := .start
  have hl := (hs.next (.trackActive _ "a")).next (.call _ (.applyResolved []))
  have hr := (hl.next (.call _ (.applyResolved [b]))).next (.trackActive _ "a")
  obtain ⟨hc, -, hp⟩ := active_count_of_stay hr
  refine ⟨by decide +kernel, ?_, hp⟩
  rw [hc "a" (by decide +kernel)]
  decide +kernel

end LoadBalancer.Core
