import LoadBalancer.Core.Eligibility

/-!
# Pools whose lists repeat an id

An answer of DNS may list an address twice, and the pool is then no longer `Consistent`.  What is
left is weaker: every listed id has a state, which is that id's.  It is enough for the membership:
after a refresh the pool lists exactly the ids it was given, whether or not the refresh was
skipped.
-/

namespace LoadBalancer.Core

open List AList

def Labelled (m : Arena BackendState) (r : StateRef) (id : BackendId) : Prop :=
  r < m.next ∧ (m.read r).id = id ∧ (m.read r).backend.id = id

namespace Labelled

variable {m : Arena BackendState} {r : StateRef} {id : BackendId}

lemma alloc (h : Labelled m r id) (s : BackendState) : Labelled (m.alloc s).2 r id := by
  obtain ⟨hlt, hl⟩ := h
  refine ⟨hlt.trans (Nat.lt_succ_self _), ?_⟩
  rw [m.read_alloc_of_lt hlt]
  exact hl

lemma of_alloc (m : Arena BackendState) (awaiting : Bool) (b : Backend) :
    Labelled (m.alloc (.fresh awaiting b)).2 (m.alloc (.fresh awaiting b)).1 b.id := by
  refine ⟨Nat.lt_succ_self _, ?_⟩
  rw [m.alloc_fst, m.read_alloc_self]
  exact ⟨rfl, rfl⟩

lemma store {r' : StateRef} {b : Backend} (h : Labelled m r id) (h' : Labelled m r' b.id) :
    Labelled (m.modify r' fun s => { s with backend := b }) r id := by
  obtain ⟨hlt, hid, hb⟩ := h
  by_cases hr : r = r'
  · subst hr
    refine ⟨hlt, ?_⟩
    rw [m.read_modify_self]
    exact ⟨hid, h'.2.1.symm.trans hid⟩
  · refine ⟨hlt, ?_⟩
    rw [m.read_modify_of_ne hr]
    exact ⟨hid, hb⟩

end Labelled

/-- The slots of a loop give each backend a state of its id, and do not relabel others. -/
structure LabelsSlot (Sound : Arena BackendState → Prop)
    (slot : Arena BackendState → Backend → StateRef × Arena BackendState) : Prop where
  sound : ∀ m b, Sound m → Sound (slot m b).2
  own : ∀ m b, Sound m → Labelled (slot m b).2 (slot m b).1 b.id
  keeps : ∀ m b, Sound m → ∀ r id, Labelled m r id → Labelled (slot m b).2 r id

section

variable {Sound : Arena BackendState → Prop}
  {slot : Arena BackendState → Backend → StateRef × Arena BackendState}

lemma LabelsSlot.collect_keeps (h : LabelsSlot Sound slot) : ∀ (backends : List Backend)
    (m : Arena BackendState), Sound m → ∀ r id, Labelled m r id →
      Labelled (collect slot backends m).2 r id
  | [], _, _, _, _, hr => hr
  | b :: rest, m, hm, r, id, hr =>
    h.collect_keeps rest (slot m b).2 (h.sound m b hm) r id (h.keeps m b hm r id hr)

/-- **The loop.**  Each listed backend gets a state of its id. -/
lemma LabelsSlot.collect_own (h : LabelsSlot Sound slot) : ∀ (backends : List Backend)
    (m : Arena BackendState), Sound m →
      List.Forall₂ (fun b r => Labelled (collect slot backends m).2 r b.id) backends
        (collect slot backends m).1
  | [], _, _ => .nil
  | b :: rest, m, hm => by
    rw [collect_cons]
    refine .cons ?_ (h.collect_own rest (slot m b).2 (h.sound m b hm))
    exact h.collect_keeps rest _ (h.sound m b hm) _ _ (h.own m b hm)

end

namespace BackendPool

/-- Every listed id has a state, and states are found under their id. -/
structure Indexed (p : BackendPool) : Prop where
  sound : ∀ id r, p.inner.states.get id = some r → Labelled p.arena r id
  listed : ∀ id ∈ p.inner.order, id ∈ p.inner.states

lemma labelsSlot_startup : LabelsSlot (fun _ => True) startupSlot where
  sound _ _ _ := trivial
  own m b _ := .of_alloc m false b
  keeps _ _ _ _ _ h := h.alloc _

lemma labelsSlot_resolved (p : BackendPool) :
    LabelsSlot (fun m => ∀ id r, p.inner.states.get id = some r → Labelled m r id)
      p.resolvedSlot := by
  have hk : ∀ m b, (∀ id r, p.inner.states.get id = some r → Labelled m r id) →
      ∀ r id, Labelled m r id → Labelled (p.resolvedSlot m b).2 r id := by
    intro m b hm r id h
    unfold resolvedSlot
    cases hg : p.inner.states.get b.id with
    | none => exact h.alloc _
    | some existing => exact h.store (hm _ _ hg)
  refine ⟨fun m b hm id r hg => hk m b hm r id (hm id r hg), fun m b hm => ?_, hk⟩
  unfold resolvedSlot
  cases hg : p.inner.states.get b.id with
  | none => exact .of_alloc m true b
  | some existing => exact (hm _ _ hg).store (hm _ _ hg)

lemma collect_startup_forall {Q : BackendState → Prop} : ∀ (backends : List Backend)
    {m : Arena BackendState}, (∀ b ∈ backends, Q (.fresh false b)) →
      (∀ r < m.next, Q (m.read r)) → ∀ r < (collect startupSlot backends m).2.next,
        Q ((collect startupSlot backends m).2.read r)
  | [], _, _, hm => hm
  | b :: rest, m, hf, hm => by
    obtain ⟨hb, hre⟩ := forall_mem_cons.mp hf
    refine collect_startup_forall rest hre fun r hr => ?_
    rcases Nat.lt_succ_iff_lt_or_eq.mp hr with hlt | rfl
    · exact (m.read_alloc_of_lt hlt _).symm ▸ hm r hlt
    · exact (m.read_alloc_self _).symm ▸ hb

lemma resolvedSlot_forall (p : BackendPool) {Q : BackendState → Prop} {m : Arena BackendState}
    {b : Backend} (hf : Q (.fresh true b)) (hst : ∀ s, Q s → Q { s with backend := b })
    (hm : ∀ r < m.next, Q (m.read r)) :
    ∀ r < (p.resolvedSlot m b).2.next, Q ((p.resolvedSlot m b).2.read r) := by
  intro r hr
  unfold resolvedSlot at hr ⊢
  cases hg : p.inner.states.get b.id with
  | none =>
    rw [hg] at hr
    rcases Nat.lt_succ_iff_lt_or_eq.mp hr with hlt | rfl
    · exact (m.read_alloc_of_lt hlt _).symm ▸ hm r hlt
    · exact (m.read_alloc_self _).symm ▸ hf
  | some existing =>
    rw [hg] at hr
    dsimp only
    by_cases hs : r = existing
    · subst hs
      exact (m.read_modify_self ..).symm ▸ hst _ (hm r hr)
    · exact (m.read_modify_of_ne hs _).symm ▸ hm r hr

lemma collect_resolved_forall (p : BackendPool) {Q : BackendState → Prop} :
    ∀ (backends : List Backend) {m : Arena BackendState},
      (∀ b ∈ backends, Q (.fresh true b) ∧ ∀ s, Q s → Q { s with backend := b }) →
      (∀ r < m.next, Q (m.read r)) → ∀ r < (collect p.resolvedSlot backends m).2.next,
        Q ((collect p.resolvedSlot backends m).2.read r)
  | [], _, _, hm => hm
  | b :: rest, m, hQ, hm => by
    obtain ⟨⟨hf, hs⟩, hr⟩ := forall_mem_cons.mp hQ
    exact collect_resolved_forall p rest hr (p.resolvedSlot_forall hf hs hm)

lemma indexed_build {m : Arena BackendState} {backends : List Backend} {refs : List StateRef}
    (h : List.Forall₂ (fun b r => Labelled m r b.id) backends refs)
    (maxEjectedFraction : Option ℚ) (version : ℕ) :
    Indexed ⟨m, .build m backends refs, maxEjectedFraction, version⟩ where
  sound id r hg := by
    rcases mem_of_get_foldl_insert hg with hm | hn
    · rw [zip_map_left] at hm
      obtain ⟨⟨b, r'⟩, hp, heq⟩ := mem_map.mp hm
      cases heq
      exact forall₂_iff_zip.mp h |>.2 hp
    · cases hn
  listed id hid := by
    refine mem_foldl_insert_iff.mpr (Or.inl ?_)
    rwa [map_fst_zip (by simp [h.length_eq])]

lemma indexed_withMaxEjectedFraction (backends : List Backend) (maxEjectedFraction : Option ℚ) :
    (withMaxEjectedFraction backends maxEjectedFraction).Indexed :=
  indexed_build (labelsSlot_startup.collect_own backends .empty trivial) maxEjectedFraction 0

variable {p : BackendPool}

lemma FlagWrite.indexed {p' : BackendPool} (h : FlagWrite p p') (hp : p.Indexed) :
    p'.Indexed where
  sound id r hg := by
    rw [h.inner_eq] at hg
    rw [Labelled, h.next_eq, h.id_eq, h.backend_eq]
    exact hp.sound id r hg
  listed := by
    rw [h.inner_eq]
    exact hp.listed

lemma Indexed.applyResolved (hp : p.Indexed) (backends : List Backend) :
    (p.applyResolved backends).Indexed := by
  unfold BackendPool.applyResolved
  split_ifs
  · exact hp
  · exact indexed_build ((labelsSlot_resolved p).collect_own backends p.arena hp.sound) _ _

lemma Indexed.map_id_backends (hp : p.Indexed) {ids : List BackendId}
    (hid : ∀ id ∈ ids, id ∈ p.inner.states) :
    (ids.filterMap fun id => p.backend id).map (fun b => b.id) = ids := by
  induction ids with
  | nil => rfl
  | cons id ids ih =>
    rw [forall_mem_cons] at hid
    obtain ⟨r, hr⟩ := exists_get_of_mem hid.1
    have hb : p.backend id = some (p.arena.read r).backend := by
      rw [backend, hr]
      rfl
    rw [filterMap_cons_some hb, map_cons, ih hid.2, (hp.sound id r hr).2.2]

lemma Indexed.mem_order_applyResolved (hp : p.Indexed) (backends : List Backend)
    (id : BackendId) :
    id ∈ (p.applyResolved backends).inner.order ↔ id ∈ backends.map fun b => b.id := by
  unfold BackendPool.applyResolved
  split_ifs with h
  · -- the refresh is skipped: the backends the pool has are those listed
    unfold resolvedSetUnchanged at h
    split_ifs at h with hle
    rw [not_not] at hle
    dsimp only at h
    have hid := hp.map_id_backends hp.listed
    have hl : (sortById backends).length
        = (sortById (p.inner.order.filterMap fun id => p.backend id)).length := by
      rw [sortById, sortById, length_insertionSort, length_insertionSort, ← hle,
        ← congrArg List.length hid, length_map]
    have hs := eq_of_zip_all hl h
    have hpe : backends.Perm (p.inner.order.filterMap fun id => p.backend id) :=
      (sortById_perm backends).symm.trans (hs ▸ sortById_perm _)
    rw [(hpe.map _).mem_iff, hid]
  · rfl

end BackendPool

/-! ## A backend that stays

A refresh that lists a backend again keeps its state, and with it the number of requests that
are counted in it. -/

/-- The function looks neither at the description of the backend nor at the stamps. -/
structure FlagPart {β : Type} (g : BackendState → β) : Prop where
  describe : ∀ s b, g { s with backend := b } = g s
  stamp : ∀ s nanos generation,
    g { s with becameEligibleNanos := nanos, eligibilityGeneration := generation } = g s

def PoolEvent.Keeps (id : BackendId) : PoolEvent → Prop
  | .applyResolved backends => id ∈ backends.map fun b => b.id
  | _ => True

namespace BackendPool

variable {p : BackendPool} {β : Type} {g : BackendState → β}

lemma flagPart_activeConns : FlagPart BackendState.activeConns :=
  ⟨fun _ _ => rfl, fun _ _ _ => rfl⟩

lemma resolvedSlot_keeps (p : BackendPool) (hg : ∀ s b, g { s with backend := b } = g s)
    {m : Arena BackendState} {r : StateRef} (hr : r < m.next) (b : Backend) :
    r < (p.resolvedSlot m b).2.next ∧ g ((p.resolvedSlot m b).2.read r) = g (m.read r) := by
  unfold resolvedSlot
  cases p.inner.states.get b.id with
  | none => exact ⟨hr.trans (Nat.lt_succ_self _), congrArg g (m.read_alloc_of_lt hr _)⟩
  | some existing => exact ⟨hr, m.modify_induction (fun s => hg s b) existing r⟩

lemma part_collect (hg : ∀ s b, g { s with backend := b } = g s) (p : BackendPool) {r : StateRef} :
    ∀ (backends : List Backend) {m : Arena BackendState}, r < m.next →
      g ((collect p.resolvedSlot backends m).2.read r) = g (m.read r)
  | [], _, _ => rfl
  | b :: rest, m, hr => by
    obtain ⟨hn, hs⟩ := p.resolvedSlot_keeps hg hr b
    exact (part_collect hg p rest hn).trans hs

lemma part_collect_new (hg : ∀ s b, g { s with backend := b } = g s) (p : BackendPool)
    {r : StateRef} :
    ∀ (backends : List Backend) {m : Arena BackendState}, m.next ≤ r →
      r < (collect p.resolvedSlot backends m).2.next →
        ∃ b ∈ backends, g ((collect p.resolvedSlot backends m).2.read r) = g (.fresh true b)
  | [], _, hle, hlt => absurd hlt (Nat.not_lt.mpr hle)
  | b :: rest, m, hle, hlt => by
    rw [collect_cons] at hlt ⊢
    by_cases hr : r < (p.resolvedSlot m b).2.next
    · -- the slot of `b` itself: only a new backend adds a state
      refine ⟨b, mem_cons_self, (part_collect hg p rest hr).trans ?_⟩
      unfold resolvedSlot at hr ⊢
      cases hge : p.inner.states.get b.id with
      | none =>
        rw [hge] at hr
        obtain rfl : r = m.next := Nat.le_antisymm (Nat.lt_succ_iff.mp hr) hle
        exact congrArg g (m.read_alloc_self _)
      | some existing =>
        rw [hge] at hr
        exact absurd hr (Nat.not_lt.mpr hle)
    · obtain ⟨b', hb', hf⟩ := part_collect_new hg p rest (Nat.le_of_not_lt hr) hlt
      exact ⟨b', mem_cons_of_mem b hb', hf⟩

lemma collect_refs (p : BackendPool) : ∀ (backends : List Backend) (m : Arena BackendState),
    ∀ x ∈ (backends.map fun b => b.id).zip (collect p.resolvedSlot backends m).1,
      (∀ existing, p.inner.states.get x.1 = some existing → x.2 = existing) ∧
        (p.inner.states.get x.1 = none → m.next ≤ x.2)
  | [], _ => by simp [collect]
  | b :: rest, m => by
    have hn : m.next ≤ (p.resolvedSlot m b).2.next := by
      unfold resolvedSlot
      cases p.inner.states.get b.id with
      | none => exact Nat.le_succ _
      | some existing => exact le_rfl
    rw [collect_cons, map_cons, zip_cons_cons]
    refine forall_mem_cons.mpr ⟨⟨fun existing hg => ?_, fun hg => ?_⟩, fun x hx => ?_⟩
    · dsimp only at hg ⊢
      unfold resolvedSlot
      rw [hg]
    · dsimp only at hg ⊢
      unfold resolvedSlot
      rw [hg]
      exact le_rfl
    · obtain ⟨ho, hne⟩ := collect_refs p rest (p.resolvedSlot m b).2 x hx
      exact ⟨ho, fun hg => hn.trans (hne hg)⟩

/-- **What a call leaves.**  No call on the pool touches the counts of the states it has. -/
lemma activeConns_apply (p : BackendPool) (e : PoolEvent) {r : StateRef}
    (hr : r < p.arena.next) :
    ((e.apply p).arena.read r).activeConns = (p.arena.read r).activeConns := by
  cases e with
  | applyResolved backends =>
    rw [PoolEvent.apply, applyResolved]
    split_ifs
    · rfl
    · exact part_collect flagPart_activeConns.describe p backends hr
  | setActiveHealthy | markAwaitingFirstProbe | setCircuitOpen | setOutlierEjected
  | setManuallyDrained => exact (FlagCall.apply rfl).activeConns_eq r

lemma get_applyResolved (p : BackendPool) {backends : List Backend} {id : BackendId}
    {r : StateRef} (h : (p.applyResolved backends).inner.states.get id = some r) :
    p.inner.states.get id = some r ∨
      p.inner.states.get id = none ∧ p.arena.next ≤ r := by
  unfold applyResolved at h
  split_ifs at h
  · exact Or.inl h
  · rcases mem_of_get_foldl_insert h with hm | hn
    · obtain ⟨ho, hne⟩ := collect_refs p backends p.arena _ hm
      cases hg : p.inner.states.get id with
      | none => exact Or.inr ⟨rfl, hne hg⟩
      | some existing => exact Or.inl (congrArg some (ho existing hg).symm)
    · cases hn

/-- A state of the pool and what is counted in it, as long as its backend stays. -/
structure Counts (p : BackendPool) (id : BackendId) (r : StateRef) (n : ℕ) : Prop where
  indexed : p.Indexed
  get_eq : p.inner.states.get id = some r
  count_eq : (p.arena.read r).activeConns = n

variable {id : BackendId} {r : StateRef} {n : ℕ}

lemma Counts.activeCount_eq (h : p.Counts id r n) : p.activeCount id = n := by
  rw [activeCount, h.get_eq, Option.elim_some, h.count_eq]

lemma exists_fresh_of_get {backends : List Backend} {fraction : Option ℚ}
    (h : (withMaxEjectedFraction backends fraction).inner.states.get id = some r) :
    ∃ b ∈ backends, (withMaxEjectedFraction backends fraction).arena.read r = .fresh false b := by
  have hr : r ∈ (withMaxEjectedFraction backends fraction).inner.ordered := by
    rcases mem_of_get_foldl_insert h with hme | hn
    · exact (of_mem_zip hme).2
    · cases hn
  have hm := mem_map_of_mem (f := (withMaxEjectedFraction backends fraction).arena.read) hr
  rw [← members, members_withMaxEjectedFraction] at hm
  obtain ⟨b, hb, hf⟩ := mem_map.mp hm
  exact ⟨b, hb, hf.symm⟩

lemma exists_counts_withMaxEjectedFraction {backends : List Backend}
    (hid : id ∈ backends.map fun b => b.id) (fraction : Option ℚ) :
    ∃ r, (withMaxEjectedFraction backends fraction).Counts id r 0 := by
  have hind := indexed_withMaxEjectedFraction backends fraction
  obtain ⟨r, hg⟩ := exists_get_of_mem (hind.listed id hid)
  obtain ⟨b, -, hf⟩ := exists_fresh_of_get hg
  refine ⟨r, hind, hg, ?_⟩
  rw [hf]
  rfl

lemma Counts.of_flagWrite {p' : BackendPool} (h : p.Counts id r n) (hw : FlagWrite p p')
    (hc : (p'.arena.read r).activeConns = (p.arena.read r).activeConns) :
    p'.Counts id r n where
  indexed := hw.indexed h.indexed
  get_eq := by rw [hw.inner_eq, h.get_eq]
  count_eq := hc.trans h.count_eq

lemma Counts.setEjectionFlag (h : p.Counts id r n) (id' : BackendId) (value : Bool)
    (flag : EjectionFlag) (nanos : ℕ) :
    (p.setEjectionFlag id' value flag nanos).Counts id r n :=
  have hc := FlagCall.setEjectionFlag p id' value flag nanos
  h.of_flagWrite hc.flagWrite (hc.activeConns_eq r)

lemma Counts.applyResolved (h : p.Counts id r n) {backends : List Backend}
    (hid : id ∈ backends.map fun b => b.id) : (p.applyResolved backends).Counts id r n := by
  have hind := h.indexed.applyResolved backends
  have hlt := (h.indexed.sound id r h.get_eq).1
  refine ⟨hind, ?_, (p.activeConns_apply (.applyResolved backends) hlt).trans h.count_eq⟩
  have hm := hind.listed id ((h.indexed.mem_order_applyResolved backends id).mpr hid)
  obtain ⟨r', hr'⟩ := exists_get_of_mem hm
  rcases p.get_applyResolved hr' with hs | ⟨hn, -⟩
  · rw [hr', ← hs, h.get_eq]
  · rw [h.get_eq] at hn
    cases hn

lemma trackActive_snd (p : BackendPool) (id : BackendId) :
    (p.trackActive id).2 = p.inner.states.get id := by
  unfold trackActive
  split
  · next hg => exact hg.symm
  · next hg => exact hg.symm

lemma Counts.guard_iff (h : p.Counts id r n) (id' : BackendId) :
    (p.trackActive id').2 = some r ↔ id' = id := by
  rw [trackActive_snd]
  constructor
  · intro hg
    exact (h.indexed.sound id' r hg).2.1.symm.trans (h.indexed.sound id r h.get_eq).2.1
  · rintro rfl
    exact h.get_eq

lemma activeConns_trackActive (p : BackendPool) (id : BackendId) (r : StateRef) :
    ((p.trackActive id).1.arena.read r).activeConns
      = (p.arena.read r).activeConns + if (p.trackActive id).2 = some r then 1 else 0 := by
  rw [trackActive_snd]
  unfold trackActive
  cases hg : p.inner.states.get id with
  | none => simp
  | some r' =>
    dsimp only [BackendPool.modify]
    by_cases hr : r' = r
    · subst hr
      rw [p.arena.read_modify_self, if_pos rfl]
    · rw [p.arena.read_modify_of_ne (Ne.symm hr), if_neg fun heq => hr (Option.some.inj heq),
        add_zero]

lemma activeConns_releaseActive (p : BackendPool) (guard : Option StateRef) (r : StateRef) :
    ((p.releaseActive guard).arena.read r).activeConns
      = (p.arena.read r).activeConns - if guard = some r then 1 else 0 := by
  unfold releaseActive
  cases guard with
  | none => simp
  | some r' =>
    dsimp only [BackendPool.modify]
    by_cases hr : r' = r
    · subst hr
      rw [p.arena.read_modify_self, if_pos rfl]
    · rw [p.arena.read_modify_of_ne (Ne.symm hr), if_neg fun heq => hr (Option.some.inj heq),
        Nat.sub_zero]

lemma Counts.trackActive (h : p.Counts id r n) (id' : BackendId) :
    (p.trackActive id').1.Counts id r (n + if (p.trackActive id').2 = some r then 1 else 0) := by
  have hw := FlagWrite.trackActive p id'
  refine ⟨hw.indexed h.indexed, by rw [hw.inner_eq, h.get_eq], ?_⟩
  rw [activeConns_trackActive, h.count_eq]

lemma Counts.releaseActive {guard : Option StateRef}
    (h : p.Counts id r (n + if guard = some r then 1 else 0)) :
    (p.releaseActive guard).Counts id r n := by
  have hw := FlagWrite.releaseActive p guard
  refine ⟨hw.indexed h.indexed, by rw [hw.inner_eq, h.get_eq], ?_⟩
  rw [activeConns_releaseActive, h.count_eq, Nat.add_sub_cancel]

/-- **One call** that leaves the backend in the pool leaves its count. -/
lemma Counts.apply (h : p.Counts id r n) {e : PoolEvent} (he : e.Keeps id) :
    (e.apply p).Counts id r n := by
  have hc := p.activeConns_apply e (h.indexed.sound id r h.get_eq).1
  cases hr : e.isRefresh with
  | false => exact h.of_flagWrite (.apply hr) hc
  | true =>
    cases e with
    | applyResolved backends => exact h.applyResolved he
    | _ => cases hr

end BackendPool

end LoadBalancer.Core
