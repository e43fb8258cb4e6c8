import LoadBalancer.Core.Pool
import LoadBalancer.Lib.Run

/-!
# Which backends a pool offers

The invariant `Consistent` of a pool whose backends have different ids: the list `ordered`, the
list `order` and the map `states` hold the same backends, each with its own state, and the cached
flag `tiered` is right.  Flag writes keep it because they touch no id, no backend and no list;
`apply_resolved` keeps it because a state that is used again belongs to the id it is used for.

Both selection algorithms are compared with one description: the `candidates` are the confirmed
backends, or all that pass their flags when none is confirmed, and the `offered` backends are the
candidates of the best priority.
-/

namespace LoadBalancer.Core

open List

def BackendState.stamps (s : BackendState) : ℕ × ℕ :=
  (s.eligibilityGeneration, s.becameEligibleNanos)

namespace BackendPool

/-- List, map and flag of the pool agree. -/
structure Consistent (p : BackendPool) : Prop where
  lt_next : ∀ r ∈ p.inner.ordered, r < p.arena.next
  order_eq : p.inner.order = p.members.map fun s => s.id
  nodup : p.inner.order.Nodup
  states_iff : ∀ id r, p.inner.states.get id = some r ↔
    r ∈ p.inner.ordered ∧ (p.arena.read r).id = id
  backend_id : ∀ s ∈ p.members, s.backend.id = s.id
  tiered_eq : p.inner.tiered = hasSeveralTiers p.members

def Lists (p : BackendPool) (current : List Backend) : Prop :=
  p.Consistent ∧ (p.members.map fun s => s.backend).Perm current

/-! ## Flag writes -/

/-- A call that only writes flags and stamps. -/
structure FlagWrite (p p' : BackendPool) : Prop where
  inner_eq : p'.inner = p.inner
  next_eq : p'.arena.next = p.arena.next
  id_eq : ∀ r, (p'.arena.read r).id = (p.arena.read r).id
  backend_eq : ∀ r, (p'.arena.read r).backend = (p.arena.read r).backend

namespace FlagWrite

variable {p p' p'' : BackendPool}

lemma refl (p : BackendPool) : FlagWrite p p := ⟨rfl, rfl, fun _ => rfl, fun _ => rfl⟩

variable (h : FlagWrite p p')

include h

lemma trans (h' : FlagWrite p' p'') : FlagWrite p p'' :=
  ⟨h'.inner_eq.trans h.inner_eq, h'.next_eq.trans h.next_eq,
    fun r => (h'.id_eq r).trans (h.id_eq r), fun r => (h'.backend_eq r).trans (h.backend_eq r)⟩

omit h

lemma modify (p : BackendPool) (r : StateRef) {f : BackendState → BackendState}
    (hid : ∀ s, (f s).id = s.id) (hb : ∀ s, (f s).backend = s.backend) :
    FlagWrite p (p.modify r f) :=
  ⟨rfl, rfl, p.arena.modify_induction hid r, p.arena.modify_induction hb r⟩

include h

lemma map_members {β : Type} {f : BackendState → β}
    (hf : ∀ r, f (p'.arena.read r) = f (p.arena.read r)) : p'.members.map f = p.members.map f := by
  rw [members, members, h.inner_eq, map_map, map_map]
  exact map_congr_left fun r _ => hf r

lemma consistent (hp : p.Consistent) : p'.Consistent where
  lt_next r hr := by
    rw [h.next_eq]
    exact hp.lt_next r (h.inner_eq ▸ hr)
  order_eq := by rw [h.inner_eq, hp.order_eq, h.map_members h.id_eq]
  nodup := h.inner_eq ▸ hp.nodup
  states_iff id r := by rw [h.inner_eq, h.id_eq, hp.states_iff]
  backend_id s hs := by
    obtain ⟨r, hr, rfl⟩ := mem_map.mp hs
    rw [h.backend_eq, h.id_eq]
    exact hp.backend_id _ (mem_map_of_mem (h.inner_eq ▸ hr))
  tiered_eq := by
    rw [h.inner_eq, hp.tiered_eq, hasSeveralTiers, hasSeveralTiers,
      h.map_members (f := BackendState.priority)
        fun r => congrArg Backend.priority (h.backend_eq r)]

lemma lists {current : List Backend} (hp : p.Lists current) : p'.Lists current := by
  refine ⟨h.consistent hp.1, ?_⟩
  rw [h.map_members h.backend_eq]
  exact hp.2

omit h

lemma stampIfBecameEligible (p : BackendPool) (r : StateRef) (before : Bool)
    (nanos : ℕ) : FlagWrite p (p.stampIfBecameEligible r before nanos) := by
  unfold BackendPool.stampIfBecameEligible
  split_ifs
  · exact modify p r (fun _ => rfl) fun _ => rfl
  · exact refl p

lemma trackActive (p : BackendPool) (id : BackendId) : FlagWrite p (p.trackActive id).1 := by
  unfold BackendPool.trackActive
  cases p.inner.states.get id with
  | none => exact refl p
  | some r => exact modify p r (fun _ => rfl) fun _ => rfl

lemma releaseActive (p : BackendPool) (guard : Option StateRef) :
    FlagWrite p (p.releaseActive guard) := by
  cases guard with
  | none => exact refl p
  | some r => exact modify p r (fun _ => rfl) fun _ => rfl

lemma storeFlag (p : BackendPool) (r : StateRef) (flag : EjectionFlag) (value : Bool) :
    FlagWrite p (p.modify r (flag.store value)) := by
  cases flag with
  | circuitOpen | outlierEjected => exact modify p r (fun _ => rfl) fun _ => rfl

include h

lemma backend (id : BackendId) : p'.backend id = p.backend id := by
  rw [BackendPool.backend, h.inner_eq]
  exact congrArg (Option.map · _) (funext fun r => h.backend_eq r)

end FlagWrite

/-! ### Setters

Every setter makes one store, unless it refuses to, and then compares. -/

/-- A store to the flags of a state, which leaves everything else. -/
structure FlagStore (f : BackendState → BackendState) : Prop where
  id_eq : ∀ s, (f s).id = s.id
  backend_eq : ∀ s, (f s).backend = s.backend
  activeConns_eq : ∀ s, (f s).activeConns = s.activeConns
  stamps_eq : ∀ s, (f s).stamps = s.stamps

/-- The store with the comparison that follows it. -/
def stamping (nanos : ℕ) (f : BackendState → BackendState) (s : BackendState) :
    BackendState :=
  if !s.isConfirmed && (f s).isConfirmed then
    { f s with
      becameEligibleNanos := max (nanos % 2 ^ 64) 1
      eligibilityGeneration := ((f s).eligibilityGeneration + 1) % 2 ^ 64 }
  else f s

variable {p p' : BackendPool} {nanos : ℕ}

lemma stampIfBecameEligible_modify (p : BackendPool) (r : StateRef)
    (f : BackendState → BackendState) (nanos : ℕ) :
    (p.modify r f).stampIfBecameEligible r (p.arena.read r).isConfirmed nanos =
      p.modify r (stamping nanos f) := by
  have hre : (p.modify r f).arena.read r = f (p.arena.read r) := p.arena.read_modify_self r f
  rw [stampIfBecameEligible, hre]
  split_ifs with hr
  · simp only [modify, Arena.modify, Function.update_self, Function.update_idem, stamping,
      if_pos hr]
  · simp only [modify, Arena.modify, stamping, if_neg hr]

inductive FlagCall (p : BackendPool) (nanos : ℕ) : BackendPool → Prop
  | refused : FlagCall p nanos p
  | stored (r : StateRef) {f : BackendState → BackendState} (hf : FlagStore f) :
      FlagCall p nanos (p.modify r (stamping nanos f))

namespace FlagCall

lemma compared (r : StateRef) {f : BackendState → BackendState} (hf : FlagStore f) :
    FlagCall p nanos
      ((p.modify r f).stampIfBecameEligible r (p.arena.read r).isConfirmed nanos) := by
  rw [stampIfBecameEligible_modify]
  exact .stored r hf

lemma setActiveHealthy (p : BackendPool) (id : BackendId) (healthy : Bool) (nanos : ℕ) :
    FlagCall p nanos (p.setActiveHealthy id healthy nanos) := by
  unfold BackendPool.setActiveHealthy
  cases p.inner.states.get id with
  | none => exact .refused
  | some r => exact .compared r ⟨fun _ => rfl, fun _ => rfl, fun _ => rfl, fun _ => rfl⟩

lemma markAwaitingFirstProbe (p : BackendPool) (id : BackendId) (nanos : ℕ) :
    FlagCall p nanos (p.markAwaitingFirstProbe id) := by
  unfold BackendPool.markAwaitingFirstProbe
  cases p.inner.states.get id with
  | none => exact .refused
  | some r =>
    -- the state is not confirmed now, so the comparison, were there one, would do nothing
    have hs : stamping nanos (fun s => { s with awaitingFirstProbe := true }) =
        fun s => { s with awaitingFirstProbe := true } := by
      funext s
      simp [stamping, BackendState.isConfirmed]
    rw [← hs]
    exact .stored r ⟨fun _ => rfl, fun _ => rfl, fun _ => rfl, fun _ => rfl⟩

lemma setManuallyDrained (p : BackendPool) (id : BackendId) (drained : Bool) (nanos : ℕ) :
    FlagCall p nanos (p.setManuallyDrained id drained nanos) := by
  unfold BackendPool.setManuallyDrained
  cases p.inner.states.get id with
  | none => exact .refused
  | some r => exact .compared r ⟨fun _ => rfl, fun _ => rfl, fun _ => rfl, fun _ => rfl⟩

lemma setEjectionFlag (p : BackendPool) (id : BackendId) (value : Bool) (flag : EjectionFlag)
    (nanos : ℕ) : FlagCall p nanos (p.setEjectionFlag id value flag nanos) := by
  have hs : ∀ value, FlagStore (flag.store value) := by
    intro value
    cases flag with
    | circuitOpen | outlierEjected => exact ⟨fun _ => rfl, fun _ => rfl, fun _ => rfl, fun _ => rfl⟩
  unfold BackendPool.setEjectionFlag storeEjectionFlag
  cases p.inner.states.get id with
  | none => exact .refused
  | some r =>
    dsimp only
    split_ifs
    · exact .compared r (hs value)
    · rw [stampIfBecameEligible, if_neg (by simp)]
      exact .refused
    · exact .compared r (hs true)

variable (h : FlagCall p nanos p')

include h

lemma part_eq {β : Type} {g : BackendState → β} (hs : ∀ f, FlagStore f → ∀ s, g (f s) = g s)
    (hst : ∀ s nanos generation,
      g { s with becameEligibleNanos := nanos, eligibilityGeneration := generation } = g s)
    (r : StateRef) : g (p'.arena.read r) = g (p.arena.read r) := by
  cases h with
  | refused => rfl
  | stored r' hf =>
    refine p.arena.modify_induction (fun s => ?_) r' r
    rw [stamping]
    split_ifs
    · exact (hst _ _ _).trans (hs _ hf s)
    · exact hs _ hf s

lemma flagWrite : FlagWrite p p' := by
  refine ⟨?_, ?_, h.part_eq (fun _ hf => hf.id_eq) fun _ _ _ => rfl,
    h.part_eq (fun _ hf => hf.backend_eq) fun _ _ _ => rfl⟩
  all_goals cases h <;> rfl

lemma activeConns_eq (r : StateRef) :
    (p'.arena.read r).activeConns = (p.arena.read r).activeConns :=
  h.part_eq (fun _ hf => hf.activeConns_eq) (fun _ _ _ => rfl) r

lemma version_eq : p'.version = p.version := by
  cases h <;> rfl

lemma maxEjectedFraction_eq : p'.maxEjectedFraction = p.maxEjectedFraction := by
  cases h <;> rfl

end FlagCall

end BackendPool

/-! ## Membership changes -/

/-- What both loops rely on: the state found for a backend is, from then on, the state of that
backend, and no state of another id is touched. -/
structure GoodSlot (Sound : Arena BackendState → Prop)
    (slot : Arena BackendState → Backend → StateRef × Arena BackendState) : Prop where
  sound : ∀ m b, Sound m → Sound (slot m b).2
  next_le : ∀ m b, Sound m → m.next ≤ (slot m b).2.next
  lt_next : ∀ m b, Sound m → (slot m b).1 < (slot m b).2.next
  id_eq : ∀ m b, Sound m → ((slot m b).2.read (slot m b).1).id = b.id
  backend_eq : ∀ m b, Sound m → ((slot m b).2.read (slot m b).1).backend = b
  frame : ∀ m b, Sound m → ∀ r < m.next, (m.read r).id ≠ b.id →
    (slot m b).2.read r = m.read r

section

variable {Sound : Arena BackendState → Prop}
  {slot : Arena BackendState → Backend → StateRef × Arena BackendState}

lemma collect_cons (b : Backend) (rest : List Backend) (m : Arena BackendState) :
    collect slot (b :: rest) m = ((slot m b).1 :: (collect slot rest (slot m b).2).1,
      (collect slot rest (slot m b).2).2) := rfl

lemma GoodSlot.collect_frame (h : GoodSlot Sound slot) : ∀ (backends : List Backend)
    (m : Arena BackendState), Sound m → ∀ r < m.next, (∀ b ∈ backends, (m.read r).id ≠ b.id) →
      (collect slot backends m).2.read r = m.read r
  | [], _, _, _, _, _ => rfl
  | b :: rest, m, hm, r, hr, hne => by
    rw [forall_mem_cons] at hne
    have hre := h.frame m b hm r hr hne.1
    have hres := h.collect_frame rest (slot m b).2 (h.sound m b hm) r
      (hr.trans_le (h.next_le m b hm)) (by rw [hre]; exact hne.2)
    exact hres.trans hre

/-- **The loop.**  The collected states are those of the listed backends, in order. -/
lemma GoodSlot.collect_spec (h : GoodSlot Sound slot) : ∀ (backends : List Backend)
    (m : Arena BackendState), Sound m → (backends.map fun b => b.id).Nodup →
      let c := collect slot backends m
      m.next ≤ c.2.next ∧ (c.1.map fun r => (c.2.read r).backend) = backends ∧
        ∀ r ∈ c.1, r < c.2.next ∧ (c.2.read r).id = (c.2.read r).backend.id
  | [], m, _, _ => ⟨le_rfl, rfl, by simp [collect]⟩
  | b :: rest, m, hm, hn => by
    rw [map_cons, nodup_cons] at hn
    obtain ⟨hne, hb, hre⟩ := h.collect_spec rest (slot m b).2 (h.sound m b hm) hn.2
    -- the rest of the loop leaves this backend's state alone, since its id does not recur
    have hr : (collect slot rest (slot m b).2).2.read (slot m b).1
        = (slot m b).2.read (slot m b).1 := by
      refine h.collect_frame rest (slot m b).2 (h.sound m b hm) _ (h.lt_next m b hm) ?_
      intro b' hb' heq
      rw [h.id_eq m b hm] at heq
      exact hn.1 (mem_map.mpr ⟨b', hb', heq.symm⟩)
    rw [collect_cons]
    refine ⟨(h.next_le m b hm).trans hne, ?_, forall_mem_cons.mpr ⟨?_, hre⟩⟩
    · rw [map_cons, hr, h.backend_eq m b hm, hb]
    · rw [hr, h.id_eq m b hm, h.backend_eq m b hm]
      exact ⟨(h.lt_next m b hm).trans_le hne, rfl⟩

end

namespace BackendPool

variable {s : BackendState} {l : List BackendState} {backends : List Backend}

lemma lists_build {m : Arena BackendState} {refs : List StateRef}
    (hn : (backends.map fun b => b.id).Nodup)
    (hb : (refs.map fun r => (m.read r).backend) = backends)
    (hre : ∀ r ∈ refs, r < m.next ∧ (m.read r).id = (m.read r).backend.id)
    (maxEjectedFraction : Option ℚ) (version : ℕ) :
    Lists ⟨m, .build m backends refs, maxEjectedFraction, version⟩ backends := by
  have hid : (backends.map fun b => b.id) = refs.map fun r => (m.read r).id := by
    rw [← hb, map_map]
    exact map_congr_left fun r hr => (hre r hr).2.symm
  have hz : (backends.map fun b => b.id).zip refs = refs.map fun r => ((m.read r).id, r) := by
    rw [hid]
    nth_rewrite 2 [← map_id refs]
    exact zip_map'
  refine ⟨⟨fun r hr => (hre r hr).1, ?_, hn, fun id r => ?_, ?_, rfl⟩, ?_⟩
  · exact hid.trans (map_map ..).symm
  · have hk : ((refs.map fun r => ((m.read r).id, r)).map fun x => x.1).Nodup := by
      rw [map_map]
      exact hid ▸ hn
    change (((backends.map fun b => b.id).zip refs).foldl (fun t x => t.insert x.1 x.2)
      (∅ : Table BackendId StateRef)).get id = some r ↔ r ∈ refs ∧ (m.read r).id = id
    rw [hz, AList.get_foldl_insert _ _ hk, mem_map]
    constructor
    · rintro (⟨r', hr', heq⟩ | ⟨-, hno⟩)
      · cases heq
        exact ⟨hr', rfl⟩
      · cases hno
    · rintro ⟨hr, rfl⟩
      exact Or.inl ⟨r, hr, rfl⟩
  · intro s hs
    obtain ⟨r, hr, rfl⟩ := mem_map.mp hs
    exact (hre r hr).2.symm
  · rw [members, map_map]
    exact List.Perm.of_eq hb

lemma goodSlot_startup : GoodSlot (fun _ => True) startupSlot where
  sound _ _ _ := trivial
  next_le m _ _ := Nat.le_succ m.next
  lt_next m _ _ := Nat.lt_succ_self m.next
  id_eq m b _ := by rw [startupSlot, Arena.alloc_fst, Arena.read_alloc_self]; rfl
  backend_eq m b _ := by rw [startupSlot, Arena.alloc_fst, Arena.read_alloc_self]; rfl
  frame m _ _ _ hr _ := m.read_alloc_of_lt hr _

lemma lists_withMaxEjectedFraction (hn : (backends.map fun b => b.id).Nodup)
    (maxEjectedFraction : Option ℚ) :
    (withMaxEjectedFraction backends maxEjectedFraction).Lists backends := by
  obtain ⟨-, hb, hr⟩ := goodSlot_startup.collect_spec backends .empty trivial hn
  exact lists_build hn hb hr maxEjectedFraction 0

variable {p : BackendPool}

lemma goodSlot_resolved (p : BackendPool) :
    GoodSlot (fun m => ∀ id r, p.inner.states.get id = some r → r < m.next ∧ (m.read r).id = id)
      p.resolvedSlot where
  sound m b hm := by
    intro id r hg
    obtain ⟨hlt, hid⟩ := hm id r hg
    unfold resolvedSlot
    cases p.inner.states.get b.id with
    | none =>
      rw [m.read_alloc_of_lt hlt]
      exact ⟨hlt.trans (Nat.lt_succ_self _), hid⟩
    | some existing =>
      rw [m.modify_induction (g := BackendState.id) (f := fun s => { s with backend := b })
        fun _ => rfl]
      exact ⟨hlt, hid⟩
  next_le m b hm := by
    unfold resolvedSlot
    cases p.inner.states.get b.id with
    | none => exact Nat.le_succ _
    | some existing => exact le_rfl
  lt_next m b hm := by
    unfold resolvedSlot
    cases hg : p.inner.states.get b.id with
    | none => exact Nat.lt_succ_self _
    | some existing => exact (hm _ _ hg).1
  id_eq m b hm := by
    unfold resolvedSlot
    cases hg : p.inner.states.get b.id with
    | none =>
      rw [m.alloc_fst, m.read_alloc_self]
      rfl
    | some existing =>
      rw [m.read_modify_self]
      exact (hm _ _ hg).2
  backend_eq m b hm := by
    unfold resolvedSlot
    cases hg : p.inner.states.get b.id with
    | none =>
      rw [m.alloc_fst, m.read_alloc_self]
      rfl
    | some existing =>
      rw [m.read_modify_self]
  frame m b hm r hr hne := by
    unfold resolvedSlot
    cases hg : p.inner.states.get b.id with
    | none => exact m.read_alloc_of_lt hr _
    | some existing =>
      rw [m.read_modify_of_ne]
      rintro rfl
      exact hne (hm _ _ hg).2

lemma Consistent.sound (hp : p.Consistent) : ∀ id r, p.inner.states.get id = some r →
    r < p.arena.next ∧ (p.arena.read r).id = id := by
  intro id r hg
  obtain ⟨hr, hid⟩ := (hp.states_iff id r).mp hg
  exact ⟨hp.lt_next r hr, hid⟩

lemma Consistent.backends_eq (hp : p.Consistent) :
    (p.inner.order.filterMap fun id => p.backend id) = p.members.map fun s => s.backend := by
  rw [hp.order_eq, members, map_map, map_map, filterMap_map, ← filterMap_eq_map]
  refine filterMap_congr fun r hr => ?_
  have hg := (hp.states_iff _ r).mpr ⟨hr, rfl⟩
  rw [Function.comp_apply, Function.comp_apply, backend, hg]
  rfl

lemma sortById_perm (l : List Backend) : (sortById l).Perm l := perm_insertionSort _ l

lemma eq_of_zip_all {l₁ l₂ : List Backend} (hl : l₁.length = l₂.length)
    (h : (l₁.zip l₂).all (fun x => x.1 = x.2) = true) : l₁ = l₂ := by
  refine ext_getElem hl fun i h₁ h₂ => ?_
  have hi : i < (l₁.zip l₂).length := by
    rw [length_zip]
    omega
  have ha := all_eq_true.mp h _ (getElem_mem hi)
  rw [getElem_zip] at ha
  exact of_decide_eq_true ha

lemma Consistent.perm_of_unchanged (hp : p.Consistent) {backends : List Backend}
    (h : p.resolvedSetUnchanged backends = true) :
    (p.members.map fun s => s.backend).Perm backends := by
  unfold resolvedSetUnchanged at h
  split_ifs at h with hl
  rw [not_not] at hl
  rw [hp.backends_eq] at h
  have hs : sortById backends = sortById (p.members.map fun s => s.backend) := by
    refine eq_of_zip_all ?_ h
    rw [sortById, sortById, length_insertionSort, length_insertionSort, length_map,
      ← hl, hp.order_eq, length_map]
  exact (sortById_perm _).symm.trans (hs ▸ sortById_perm backends)

/-- **A refresh keeps the invariant**, and the pool then has the listed backends. -/
lemma Consistent.applyResolved (hp : p.Consistent) (hn : (backends.map fun b => b.id).Nodup) :
    (p.applyResolved backends).Lists backends := by
  unfold BackendPool.applyResolved
  split_ifs with h
  · exact ⟨hp, hp.perm_of_unchanged h⟩
  · obtain ⟨-, hb, hr⟩ := (goodSlot_resolved p).collect_spec backends p.arena hp.sound hn
    exact lists_build hn hb hr _ _

/-! ## Who is offered -/

variable (p)

/-- The confirmed backends or, when there is none, all that pass their flags. -/
def candidates : List BackendState :=
  p.members.filter fun s =>
    s.passesFlags && (!s.awaitingFirstProbe || !p.members.any BackendState.isConfirmed)

def offered : List BackendState :=
  p.candidates.filter fun s => ∀ s' ∈ p.candidates, s.priority ≤ s'.priority

variable {p}

lemma mem_candidates_iff : s ∈ p.candidates ↔ s ∈ p.members ∧
    s.passesFlags = true ∧
      (s.awaitingFirstProbe = true → ∀ s' ∈ p.members, s'.isConfirmed = false) := by
  rw [candidates, mem_filter]
  cases s.awaitingFirstProbe <;> simp

lemma mem_offered_iff : s ∈ p.offered ↔
    s ∈ p.candidates ∧ ∀ s' ∈ p.candidates, s.priority ≤ s'.priority := by
  rw [offered, mem_filter, decide_eq_true_iff]

lemma candidates_eq_nil_iff :
    p.candidates = [] ↔ ∀ s ∈ p.members, s.passesFlags = false := by
  constructor
  · intro hni s hs
    by_contra hp
    rw [Bool.not_eq_false] at hp
    -- a confirmed backend is a candidate, and without one every passing backend is
    have hn : ∀ s' ∈ p.members, s'.isConfirmed = false := by
      intro s' hs'
      by_contra hc
      rw [Bool.not_eq_false, BackendState.isConfirmed, Bool.and_eq_true, Bool.not_eq_true'] at hc
      have hm : s' ∈ p.candidates :=
        mem_candidates_iff.mpr ⟨hs', hc.1, fun h => by simp [hc.2] at h⟩
      exact not_mem_nil (hni ▸ hm)
    have hm : s ∈ p.candidates := mem_candidates_iff.mpr ⟨hs, hp, fun _ => hn⟩
    exact not_mem_nil (hni ▸ hm)
  · intro hf
    rw [eq_nil_iff_forall_not_mem]
    intro s hs
    obtain ⟨hm, hp, -⟩ := mem_candidates_iff.mp hs
    rw [hf s hm] at hp
    cases hp

lemma min?_priority_eq_some_iff (hs : s ∈ l) :
    (l.map BackendState.priority).min? = some s.priority ↔
      ∀ s' ∈ l, s.priority ≤ s'.priority := by
  rw [List.min?_eq_some_iff, forall_mem_map]
  exact and_iff_right (mem_map_of_mem hs)

lemma offered_eq_nil_iff : p.offered = [] ↔ p.candidates = [] := by
  constructor
  · intro hn
    by_contra hne
    cases hm : (p.candidates.map BackendState.priority).min? with
    | none => exact hne (map_eq_nil_iff.mp (List.min?_eq_none_iff.mp hm))
    | some best =>
      obtain ⟨s, hs, rfl⟩ := mem_map.mp (List.min?_mem hm)
      have hme : s ∈ p.offered := mem_offered_iff.mpr ⟨hs, (min?_priority_eq_some_iff hs).mp hm⟩
      exact not_mem_nil (hn ▸ hme)
  · intro hn
    rw [offered, hn, filter_nil]

lemma priority_eq_of_not_several (h : hasSeveralTiers l = false) :
    ∀ s ∈ l, ∀ s' ∈ l, s.priority = s'.priority := by
  have ha : ∃ first, ∀ s ∈ l, s.priority = first := by
    cases l with
    | nil => exact ⟨0, fun s hs => by cases hs⟩
    | cons head rest =>
      refine ⟨head.priority, forall_mem_cons.mpr ⟨rfl, fun s hs => ?_⟩⟩
      have han := any_eq_false.mp h s.priority (mem_map_of_mem hs)
      simpa using han
  obtain ⟨first, hf⟩ := ha
  intro s hs s' hs'
  rw [hf s hs, hf s' hs']

lemma Consistent.le_of_not_tiered (hp : p.Consistent) (h : p.inner.tiered = false)
    {s : BackendState} (hs : s ∈ p.candidates) : ∀ s' ∈ p.candidates, s.priority ≤ s'.priority := by
  rw [hp.tiered_eq] at h
  intro s' hs'
  exact (priority_eq_of_not_several h s (mem_of_mem_filter hs) s'
    (mem_of_mem_filter hs')).le

lemma confirmed_or_passing_eq :
    (if (p.members.filter BackendState.isConfirmed).isEmpty then
      p.members.filter BackendState.passesFlags
    else p.members.filter BackendState.isConfirmed) = p.candidates := by
  cases ha : p.members.any BackendState.isConfirmed with
  | false =>
    have hn : p.members.filter BackendState.isConfirmed = [] :=
      List.filter_eq_nil_iff.mpr (List.any_eq_false.mp ha)
    rw [hn, List.isEmpty_nil, candidates, ha]
    exact List.filter_congr fun s _ => by simp
  | true =>
    have hne : ¬ (p.members.filter BackendState.isConfirmed).isEmpty = true := by
      obtain ⟨s, hs, hc⟩ := List.any_eq_true.mp ha
      rw [List.isEmpty_iff]
      exact List.ne_nil_of_mem (List.mem_filter.mpr ⟨hs, hc⟩)
    rw [if_neg hne, candidates, ha]
    exact List.filter_congr fun s _ => by simp [BackendState.isConfirmed]

/-- **The list view** offers the candidates of the best priority, in order. -/
lemma Consistent.eligibleMap_eq (hp : p.Consistent) {R : Type} (f : BackendState → R) :
    p.eligibleMap f = p.offered.map f := by
  unfold eligibleMap
  dsimp only
  rw [confirmed_or_passing_eq]
  congr 1
  cases ht : p.inner.tiered with
  | false =>
    rw [if_neg Bool.false_ne_true, offered, filter_eq_self.mpr]
    intro s hs
    exact decide_eq_true (hp.le_of_not_tiered ht hs)
  | true =>
    rw [if_pos rfl]
    cases hm : (p.candidates.map BackendState.priority).min? with
    | none =>
      have hn := map_eq_nil_iff.mp (List.min?_eq_none_iff.mp hm)
      rw [offered, hn, filter_nil]
    | some best =>
      refine filter_congr fun s hs => decide_eq_decide.mpr ?_
      rw [← min?_priority_eq_some_iff hs, hm, Option.some_inj, eq_comm]

lemma Consistent.activeTier_iff (hp : p.Consistent) (hs : s ∈ p.candidates) :
    (p.activeTier.all fun tier => s.priority = tier) = true ↔
      ∀ s' ∈ p.candidates, s.priority ≤ s'.priority := by
  cases ht : p.inner.tiered with
  | false =>
    rw [activeTier, ht]
    exact iff_of_true rfl (hp.le_of_not_tiered ht hs)
  | true =>
    have hti : p.activeTier = (p.candidates.map BackendState.priority).min? := by
      rw [activeTier, ht]
      rfl
    rw [hti, ← min?_priority_eq_some_iff hs]
    cases hm : (p.candidates.map BackendState.priority).min? with
    | none =>
      have hn := map_eq_nil_iff.mp (List.min?_eq_none_iff.mp hm)
      exact absurd (hn ▸ hs) not_mem_nil
    | some best => rw [Option.all_some, decide_eq_true_iff, Option.some_inj, eq_comm]

lemma Consistent.get_of_mem (hp : p.Consistent) (hs : s ∈ p.members) :
    ∃ r, p.inner.states.get s.id = some r ∧ p.arena.read r = s := by
  obtain ⟨r, hr, rfl⟩ := mem_map.mp hs
  exact ⟨r, (hp.states_iff _ r).mpr ⟨hr, rfl⟩, rfl⟩

lemma Consistent.eq_of_id_eq (hp : p.Consistent) {s s' : BackendState} (hs : s ∈ p.members)
    (hs' : s' ∈ p.members) (hid : s.id = s'.id) : s = s' := by
  obtain ⟨r, hg, rfl⟩ := hp.get_of_mem hs
  obtain ⟨r', hg', rfl⟩ := hp.get_of_mem hs'
  rw [← hid, hg, Option.some_inj] at hg'
  rw [hg']

lemma mem_members_of_mem_offered (hs : s ∈ p.offered) : s ∈ p.members :=
  mem_of_mem_filter (mem_of_mem_filter hs)

/-- **The view of one backend** agrees with the list. -/
lemma Consistent.isEligible_iff (hp : p.Consistent) (id : BackendId) :
    p.isEligible id = true ↔ ∃ s ∈ p.offered, s.id = id := by
  unfold isEligible
  cases hg : p.inner.states.get id with
  | none =>
    refine iff_of_false Bool.false_ne_true ?_
    rintro ⟨s, hs, rfl⟩
    obtain ⟨r, hso, -⟩ := hp.get_of_mem (mem_members_of_mem_offered hs)
    rw [hg] at hso
    cases hso
  | some r =>
    obtain ⟨hr, hid⟩ := (hp.states_iff id r).mp hg
    have he : (∃ s ∈ p.offered, s.id = id) ↔ p.arena.read r ∈ p.offered := by
      refine ⟨?_, fun hs => ⟨_, hs, hid⟩⟩
      rintro ⟨s, hs, rfl⟩
      rwa [hp.eq_of_id_eq (mem_map_of_mem hr) (mem_members_of_mem_offered hs) hid]
    have hc : p.arena.read r ∈ p.candidates ↔ ((p.arena.read r).passesFlags &&
        (!(p.arena.read r).awaitingFirstProbe || !p.members.any BackendState.isConfirmed)) = true :=
      mem_filter.trans (and_iff_right (mem_map_of_mem hr))
    rw [he, mem_offered_iff]
    dsimp only
    by_cases hs : p.arena.read r ∈ p.candidates
    · have hf := hc.mp hs
      rw [Bool.and_eq_true] at hf
      rw [hf.1, hf.2, Bool.not_true, if_neg Bool.false_ne_true, Bool.true_and, hp.activeTier_iff hs]
      exact (and_iff_right hs).symm
    · refine iff_of_false (fun h => hs (hc.mpr ?_)) fun h => hs h.1
      split_ifs at h with hpa
      rw [Bool.not_eq_true', Bool.not_eq_false] at hpa
      rw [hpa]
      exact (Bool.and_eq_true .. ▸ h).1

lemma Consistent.id_mem_eligibleBackends_iff (hp : p.Consistent) {s : BackendState}
    (hs : s ∈ p.members) : s.id ∈ p.eligibleBackends ↔ s ∈ p.offered := by
  rw [eligibleBackends, hp.eligibleMap_eq, mem_map]
  refine ⟨?_, fun h => ⟨s, h, rfl⟩⟩
  rintro ⟨s', hs', hid⟩
  rwa [← hp.eq_of_id_eq (mem_members_of_mem_offered hs') hs hid]

lemma Consistent.mem_eligibleBackends_iff (hp : p.Consistent) (id : BackendId) :
    id ∈ p.eligibleBackends ↔ p.isEligible id = true := by
  rw [hp.isEligible_iff, eligibleBackends, hp.eligibleMap_eq, mem_map]

lemma Consistent.mem_allBackendIds (hp : p.Consistent) {id : BackendId}
    (h : p.isEligible id = true) : id ∈ p.allBackendIds := by
  obtain ⟨s, hs, rfl⟩ := (hp.isEligible_iff id).mp h
  rw [allBackendIds, hp.order_eq]
  exact mem_map_of_mem (mem_members_of_mem_offered hs)

lemma Consistent.backend_of_mem (hp : p.Consistent) {s : BackendState} (hs : s ∈ p.members) :
    p.backend s.id = some s.backend := by
  obtain ⟨r, hg, hr⟩ := hp.get_of_mem hs
  rw [backend, hg, Option.map_some, hr]

lemma Consistent.mem_eligibleWithWeights_iff (hp : p.Consistent) (id : BackendId) (weight : ℕ) :
    (id, weight) ∈ p.eligibleWithWeights ↔
      p.isEligible id = true ∧ ∃ b, p.backend id = some b ∧ b.weight = weight := by
  rw [eligibleWithWeights, hp.eligibleMap_eq, mem_map, hp.isEligible_iff]
  constructor
  · rintro ⟨s, hs, heq⟩
    cases heq
    exact ⟨⟨s, hs, rfl⟩, s.backend, hp.backend_of_mem (mem_members_of_mem_offered hs), rfl⟩
  · rintro ⟨⟨s, hs, rfl⟩, b, hb, rfl⟩
    rw [hp.backend_of_mem (mem_members_of_mem_offered hs), Option.some_inj] at hb
    exact ⟨s, hs, hb ▸ rfl⟩

lemma Consistent.offered_eq_filter (hp : p.Consistent) :
    p.offered = p.members.filter fun s => p.isEligible s.id := by
  rw [offered, candidates, filter_filter]
  refine filter_congr fun s hs => Bool.eq_iff_iff.mpr ?_
  rw [← hp.mem_eligibleBackends_iff, hp.id_mem_eligibleBackends_iff hs, mem_offered_iff, candidates,
    mem_filter, and_iff_right hs, Bool.and_eq_true, decide_eq_true_iff, and_comm]

/-! ### A new pool -/

lemma read_collect_startup : ∀ (backends : List Backend) (m : Arena BackendState) (r : StateRef),
    r < m.next → (collect startupSlot backends m).2.read r = m.read r
  | [], _, _, _ => rfl
  | b :: rest, m, r, hr => by
    rw [collect_cons, read_collect_startup rest _ r (hr.trans (Nat.lt_succ_self _))]
    exact m.read_alloc_of_lt hr _

lemma map_read_collect_startup : ∀ (backends : List Backend) (m : Arena BackendState),
    (collect startupSlot backends m).1.map (collect startupSlot backends m).2.read =
      backends.map (.fresh false)
  | [], _ => rfl
  | b :: rest, m => by
    rw [collect_cons, map_cons, map_read_collect_startup rest,
      read_collect_startup rest _ _ (Nat.lt_succ_self _)]
    exact congrArg (· :: _) (m.read_alloc_self _)

lemma members_withMaxEjectedFraction (backends : List Backend) (fraction : Option ℚ) :
    (withMaxEjectedFraction backends fraction).members = backends.map (.fresh false) :=
  map_read_collect_startup backends .empty

lemma isEligible_withMaxEjectedFraction {backends : List Backend}
    (hn : (backends.map fun b => b.id).Nodup) (fraction : Option ℚ) (tier : ℕ)
    (ht : ∀ b ∈ backends, b.priority = tier) {b : Backend} (hb : b ∈ backends) :
    (withMaxEjectedFraction backends fraction).isEligible b.id = true := by
  have hp := (lists_withMaxEjectedFraction hn fraction).1
  have hpr : ∀ s ∈ (withMaxEjectedFraction backends fraction).members, s.priority = tier := by
    rw [members_withMaxEjectedFraction, forall_mem_map]
    exact ht
  have hm : BackendState.fresh false b ∈ (withMaxEjectedFraction backends fraction).members := by
    rw [members_withMaxEjectedFraction]
    exact mem_map_of_mem hb
  refine (hp.isEligible_iff b.id).mpr ⟨.fresh false b, mem_offered_iff.mpr ⟨?_, ?_⟩, rfl⟩
  · exact mem_candidates_iff.mpr ⟨hm, rfl, fun h => by cases h⟩
  · intro s hs
    rw [hpr _ hm, hpr s (mem_of_mem_filter hs)]

end BackendPool

/-! ## Runs -/

/-- The calls that write to a pool.  `nanos` is what its stopwatch reads. -/
inductive PoolEvent
  | setActiveHealthy (id : BackendId) (healthy : Bool) (nanos : ℕ)
  | markAwaitingFirstProbe (id : BackendId)
  | setCircuitOpen (id : BackendId) (isOpen : Bool) (nanos : ℕ)
  | setOutlierEjected (id : BackendId) (ejected : Bool) (nanos : ℕ)
  | setManuallyDrained (id : BackendId) (drained : Bool) (nanos : ℕ)
  | applyResolved (backends : List Backend)

namespace PoolEvent

def apply (p : BackendPool) : PoolEvent → BackendPool
  | setActiveHealthy id healthy nanos => p.setActiveHealthy id healthy nanos
  | markAwaitingFirstProbe id => p.markAwaitingFirstProbe id
  | setCircuitOpen id isOpen nanos => p.setCircuitOpen id isOpen nanos
  | setOutlierEjected id ejected nanos => p.setOutlierEjected id ejected nanos
  | setManuallyDrained id drained nanos => p.setManuallyDrained id drained nanos
  | applyResolved backends => p.applyResolved backends

def Step (p : BackendPool) (e : PoolEvent) (p' : BackendPool) : Prop := e.apply p = p'

def isRefresh : PoolEvent → Bool
  | applyResolved _ => true
  | _ => false

/-- The stopwatch is read by the calls that may stamp. -/
def nanos : PoolEvent → ℕ
  | setActiveHealthy _ _ nanos => nanos
  | setCircuitOpen _ _ nanos => nanos
  | setOutlierEjected _ _ nanos => nanos
  | setManuallyDrained _ _ nanos => nanos
  | markAwaitingFirstProbe _ => 0
  | applyResolved _ => 0

def Distinct : PoolEvent → Prop
  | applyResolved backends => (backends.map fun b => b.id).Nodup
  | _ => True

instance (e : PoolEvent) : Decidable e.Distinct := by
  cases e <;> unfold Distinct <;> infer_instance

def listed (current : List Backend) : PoolEvent → List Backend
  | applyResolved backends => backends
  | _ => current

end PoolEvent

/-- The backends of a pool after a list of events: those of the last refresh. -/
def membership (initial : List Backend) (events : List PoolEvent) : List Backend :=
  events.foldl PoolEvent.listed initial

namespace BackendPool

variable {p p' : BackendPool} {e : PoolEvent}

lemma FlagCall.apply (h : e.isRefresh = false) : FlagCall p e.nanos (e.apply p) := by
  cases e with
  | setActiveHealthy id healthy nanos => exact .setActiveHealthy p id healthy nanos
  | markAwaitingFirstProbe id => exact .markAwaitingFirstProbe p id 0
  | setCircuitOpen id isOpen nanos => exact .setEjectionFlag p id isOpen .circuitOpen nanos
  | setOutlierEjected id ejected nanos => exact .setEjectionFlag p id ejected .outlierEjected nanos
  | setManuallyDrained id drained nanos => exact .setManuallyDrained p id drained nanos
  | applyResolved backends => cases h

lemma FlagWrite.apply (h : e.isRefresh = false) : FlagWrite p (e.apply p) :=
  (FlagCall.apply h).flagWrite

lemma Lists.apply {current : List Backend} (hp : p.Lists current) (he : e.Distinct) :
    (e.apply p).Lists (e.listed current) := by
  cases e with
  | applyResolved backends => exact hp.1.applyResolved he
  | setActiveHealthy | markAwaitingFirstProbe | setCircuitOpen | setOutlierEjected
  | setManuallyDrained => exact (FlagWrite.apply rfl).lists hp

lemma lists_of_run {backends : List Backend} (hn : (backends.map fun b => b.id).Nodup)
    {fraction : Option ℚ} {events : List PoolEvent} (he : ∀ e ∈ events, e.Distinct)
    (h : Run PoolEvent.Step (withMaxEjectedFraction backends fraction) events p) :
    p.Lists (membership backends events) := by
  induction h with
  | start => exact lists_withMaxEjectedFraction hn fraction
  | next _ hs ih =>
    rw [forall_mem_append, forall_mem_singleton] at he
    rw [← hs, membership, foldl_append]
    exact (ih he.1).apply he.2

lemma Consistent.shownFlag_of_mem (hp : p.Consistent) {s : BackendState} (hs : s ∈ p.members)
    (flag : BackendState → Bool) : p.shownFlag flag s.id = flag s := by
  obtain ⟨r, hg, hr⟩ := hp.get_of_mem hs
  rw [shownFlag, hg, Option.any_some, hr]

lemma Consistent.nodup_eligibleBackends (hp : p.Consistent) : p.eligibleBackends.Nodup := by
  rw [eligibleBackends, hp.eligibleMap_eq]
  have hs : p.offered.Sublist p.members := filter_sublist.trans filter_sublist
  exact (hp.order_eq ▸ hp.nodup).sublist (hs.map _)

/-- **The eligible set.**  After any sequence of flag writes and refreshes with distinct ids, both
views offer the same backends: none exactly when none passes its flags, unprobed ones only when
none is confirmed, all of one priority that no backend of their class beats. -/
theorem eligible_set_exact {backends : List Backend} (hnodup : (backends.map fun b => b.id).Nodup)
    {fraction : Option ℚ} {events : List PoolEvent} (hevents : ∀ e ∈ events, e.Distinct)
    (h : Run PoolEvent.Step (withMaxEjectedFraction backends fraction) events p) :
    (p.members.map fun s => s.backend).Perm (membership backends events) ∧
    (∀ id, p.isEligible id = true ↔ id ∈ p.eligibleBackends) ∧
    (p.eligibleBackends = [] ↔ ∀ s ∈ p.members, s.passesFlags = false) ∧
    (∀ s ∈ p.members, s.id ∈ p.eligibleBackends → s.awaitingFirstProbe = true →
      ∀ s' ∈ p.members, s'.isConfirmed = false) ∧
    (∀ s ∈ p.members, ∀ s' ∈ p.members, s.id ∈ p.eligibleBackends → s'.id ∈ p.eligibleBackends →
      s.priority = s'.priority) ∧
    (∀ s ∈ p.members, s.id ∈ p.eligibleBackends → ∀ s' ∈ p.members, s'.passesFlags = true →
      s'.awaitingFirstProbe = s.awaitingFirstProbe → s.priority ≤ s'.priority) ∧
    p.eligibleWithWeights.map (fun x => x.1) = p.eligibleBackends ∧
    ∀ x ∈ p.eligibleWithWeights, ∃ b ∈ membership backends events, b.id = x.1 ∧ b.weight = x.2 := by
  obtain ⟨hp, hpe⟩ := lists_of_run hnodup hevents h
  refine ⟨hpe, fun id => ?_, ?_, fun s hs hid => ?_, fun s hs s' hs' hid hid' => ?_,
    fun s hs hid s' hs' hpa hcl => ?_, ?_, ?_⟩
  · rw [hp.isEligible_iff, eligibleBackends, hp.eligibleMap_eq, mem_map]
  · rw [eligibleBackends, hp.eligibleMap_eq, map_eq_nil_iff, offered_eq_nil_iff,
      candidates_eq_nil_iff]
  · have ho := (hp.id_mem_eligibleBackends_iff hs).mp hid
    exact (mem_candidates_iff.mp (mem_offered_iff.mp ho).1).2.2
  · obtain ⟨hc, hb⟩ := mem_offered_iff.mp ((hp.id_mem_eligibleBackends_iff hs).mp hid)
    obtain ⟨hc', hb'⟩ := mem_offered_iff.mp ((hp.id_mem_eligibleBackends_iff hs').mp hid')
    exact le_antisymm (hb s' hc') (hb' s hc)
  · obtain ⟨hc, hb⟩ := mem_offered_iff.mp ((hp.id_mem_eligibleBackends_iff hs).mp hid)
    refine hb s' (mem_candidates_iff.mpr ⟨hs', hpa, fun ha => ?_⟩)
    exact (mem_candidates_iff.mp hc).2.2 (hcl ▸ ha)
  · rw [eligibleWithWeights, eligibleBackends, hp.eligibleMap_eq, hp.eligibleMap_eq, map_map]
    rfl
  · intro x hx
    rw [eligibleWithWeights, hp.eligibleMap_eq] at hx
    obtain ⟨s, hs, rfl⟩ := mem_map.mp hx
    have hm := mem_members_of_mem_offered hs
    exact ⟨s.backend, hpe.subset (mem_map_of_mem hm), hp.backend_id s hm, rfl⟩

/-- A circuit opens and a refresh then raises a weight: the standby takes over. -/
theorem eligible_set_exact_failover :
    let primary : Backend := ⟨"primary", "10.0.0.1:80", 1, none, 0⟩
    let standby : Backend := ⟨"standby", "10.0.0.2:80", 1, none, 1⟩
    ∃ p, Run PoolEvent.Step (withMaxEjectedFraction [primary, standby] (some (1 / 2)))
        [.setCircuitOpen "primary" true 7,
          .applyResolved [primary, { standby with weight := 3 }]] p ∧
      p.eligibleWithWeights = [("standby", 3)] ∧
      ∀ id, p.isEligible id = true ↔ id ∈ ["standby"] := by
  intro primary standby
  have hr : Run PoolEvent.Step (withMaxEjectedFraction [primary, standby] (some (1 / 2)))
      ([] ++ [.setCircuitOpen "primary" true 7] ++
        [.applyResolved [primary, { standby with weight := 3 }]]) _ :=
    (Run.start.next rfl).next rfl
  obtain ⟨-, hv, -⟩ := eligible_set_exact (by decide) (by decide) hr
  refine ⟨_, hr, by decide +kernel, fun id => (hv id).trans ?_⟩
  exact iff_of_eq (congrArg (id ∈ ·) (by decide +kernel))

end BackendPool

end LoadBalancer.Core
