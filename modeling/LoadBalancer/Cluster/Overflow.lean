import LoadBalancer.Cluster.Admission
import LoadBalancer.Cluster.NodeRun

/-!
# The key cap of a node

A request whose key is new is counted under its own key while there is room and under its
listener's overflow key afterwards, which is stored even when the store is full.  A merge stores a
new key only while there is room.

A listener's overflow key is an ordinary key to everything else: the requests counted under it all
have the listener's limit, since the name before the separator tells the listener, and the bound of
`Admission.lean` applies to it.
-/

namespace LoadBalancer.Cluster

open Finset

def overflowKeyOf (name : String) : String := name ++ "\x01\x00overflow"

section

variable {name : String} (hname : '\x01' ∉ name.toList)

include hname

lemma splitNext_namespaced (limit : ℕ) (key : String) :
    splitNext '\x01' ((ListenerCoordinator.mk name limit).namespaced key) = name :=
  splitNext_append hname key

lemma splitNext_overflowKeyOf : splitNext '\x01' (overflowKeyOf name) = name := by
  have hk : overflowKeyOf name = name ++ String.singleton '\x01' ++ "\x00overflow" := by
    rw [String.append_assoc]
    rfl
  rw [hk, splitNext_append hname]

lemma overflowKey_namespaced (limit : ℕ) (key : String) :
    overflowKey ((ListenerCoordinator.mk name limit).namespaced key) = overflowKeyOf name := by
  rw [overflowKey, splitNext_namespaced hname]
  rfl

lemma splitNext_trackedKey (s : CounterStore) (limit : ℕ) (key : String) :
    splitNext '\x01' (s.trackedKey ((ListenerCoordinator.mk name limit).namespaced key))
      = name := by
  unfold CounterStore.trackedKey
  split_ifs
  · exact splitNext_namespaced hname limit key
  · rw [overflowKey_namespaced hname]
    exact splitNext_overflowKeyOf hname
  · exact splitNext_namespaced hname limit key

end

/-! ## Tracked keys -/

namespace CounterStore

/-- At most `maxTrackedKeys` keys, not counting those of `exempt`. -/
def WithinCap (exempt : Finset String) (s : CounterStore) : Prop :=
  (s.keys.keys.toFinset \ exempt).card ≤ maxTrackedKeys

variable {s s' : CounterStore} {exempt : Finset String}

lemma mem_toFinset_keys {k : String} : k ∈ s.keys.keys.toFinset ↔ k ∈ s.keys := by
  rw [List.mem_toFinset, ← AList.mem_keys]

lemma card_toFinset_keys : s.keys.keys.toFinset.card = s.keys.size := by
  rw [List.toFinset_card_of_nodup s.keys.keys_nodup, ← AList.size_eq_length_keys]

variable (h : WithinCap exempt s)

include h

lemma WithinCap.mono (hs : ∀ k ∈ s'.keys, k ∈ s.keys) : WithinCap exempt s' := by
  refine (card_le_card (sdiff_subset_sdiff (fun k hk => ?_) subset_rfl)).trans h
  exact mem_toFinset_keys.mpr (hs k (mem_toFinset_keys.mp hk))

lemma WithinCap.insert (key : String) (hs : ∀ k ∈ s'.keys, k = key ∨ k ∈ s.keys)
    (hr : key ∈ s.keys ∨ key ∈ exempt ∨ s.keys.size < maxTrackedKeys) : WithinCap exempt s' := by
  rcases hr with ho | he | hr
  · exact h.mono fun k hk => (hs k hk).elim (fun hke => hke ▸ ho) id
  · refine (card_le_card fun k hk => ?_).trans h
    rw [mem_sdiff, mem_toFinset_keys] at hk ⊢
    exact ⟨(hs k hk.1).resolve_left fun hke => hk.2 (hke ▸ he), hk.2⟩
  · have hc : s'.keys.keys.toFinset.card ≤ s.keys.keys.toFinset.card + 1 := by
      refine (card_le_card fun k hk => ?_).trans (card_insert_le key _)
      rw [mem_insert, mem_toFinset_keys]
      exact hs k (mem_toFinset_keys.mp hk)
    rw [card_toFinset_keys (s := s)] at hc
    exact (card_le_card sdiff_subset).trans (hc.trans hr)

lemma WithinCap.size_le : s.keys.size ≤ maxTrackedKeys + exempt.card := by
  rw [← card_toFinset_keys]
  have hc := card_le_card_sdiff_add_card (s := s.keys.keys.toFinset) (t := exempt)
  rw [WithinCap] at h
  omega

lemma WithinCap.mergeAll (calls : List MergeCall) (now : ℕ) :
    WithinCap exempt (s.mergeAll calls now) := by
  induction calls generalizing s with
  | nil => exact h
  | cons c calls ih =>
    refine ih ?_
    by_cases hr : s.keys.size < maxTrackedKeys
    · refine h.insert c.key (fun k hk => ?_) (Or.inr (Or.inr hr))
      rcases (s.mem_keys_merge _ _ _ _ k).mp hk with ho | ⟨rfl, -⟩
      · exact Or.inr ho
      · exact Or.inl rfl
    · refine h.mono fun k hk => ?_
      exact ((s.mem_keys_merge _ _ _ _ k).mp hk).resolve_right fun hn => hr hn.2.2

lemma WithinCap.prune (now : ℕ) : WithinCap exempt (s.prune now) :=
  h.mono fun _ hk => s.mem_keys_of_mem_prune hk

end CounterStore

/-! ## Steps of a node -/

/-- The listeners of a node: their names, without the separator, and the limit of each. -/
structure Listeners where
  names : Finset String
  limit : String → ℕ
  names_valid : ∀ name ∈ names, '\x01' ∉ name.toList
  /-- Limits are `u64`s. -/
  limit_lt : ∀ name ∈ names, limit name < 2 ^ 64

namespace Listeners

variable (listeners : Listeners)

def overflowKeys : Finset String := listeners.names.image overflowKeyOf

/-- The call, if it is a request, is one of a listener's. -/
def Made : NodeEvent → Prop
  | .tryAdmit listener _ _ _ _ =>
    listener.nameSpace ∈ listeners.names ∧ listener.limit = listeners.limit listener.nameSpace
  | _ => True

end Listeners

namespace NodeEvent

variable {listeners : Listeners} {node node' : ClusterNode} {e : NodeEvent}

lemma Step.withinCap (h : e.Step node node') (hm : listeners.Made e)
    (hc : node.store.WithinCap listeners.overflowKeys) :
    node'.store.WithinCap listeners.overflowKeys := by
  rw [← h.eq_apply]
  cases e with
  | tryAdmit listener key now counted admitted =>
    have hke : ∀ k ∈ (listener.tryAdmit node key now).2.store.keys,
        k = node.store.trackedKey (listener.namespaced key) ∨ k ∈ node.store.keys := fun k hk => by
      have hins := node.store.keys_tryAdmit (listener.namespaced key) node.nodeId now
        listener.limit
      exact (AList.mem_insert _).mp (hins ▸ hk)
    refine hc.insert _ hke ?_
    by_cases ho : listener.namespaced key ∈ node.store.keys
    · rw [CounterStore.trackedKey, if_pos ho]
      exact Or.inl ho
    · by_cases hr : node.store.keys.size < maxTrackedKeys
      · exact Or.inr (Or.inr hr)
      · rw [CounterStore.trackedKey, if_neg ho, if_pos (not_lt.mp hr),
          overflowKey_namespaced (listeners.names_valid _ hm.1)]
        exact Or.inr (Or.inl (mem_image_of_mem _ hm.1))
  | mergeMessage msg now outcome =>
    rw [apply, ClusterNode.mergeMessage]
    split_ifs
    · exact hc
    · exact hc.mergeAll _ _
  | prune now => exact hc.prune now
  | snapshotMessage now msg =>
    refine hc.mono fun k hk => ?_
    have hke : (node.snapshotMessage now).2.store.keys = node.store.keys :=
      node.store.keys_snapshotOwnCapped _ _ _ _
    exact hke ▸ hk

lemma Step.window (h : e.Step node node') (hm : listeners.Made e)
    (hc : Unwrapped node.store) {name : String} (hname : name ∈ listeners.names) :
    Window.Step node.store.windowSecs (listeners.limit name)
      (node.store.counts (overflowKeyOf name)).secondSum
      (e.now, e.admitsUnder (overflowKeyOf name))
      (node'.store.counts (overflowKeyOf name)).secondSum := by
  have hma := listeners.limit_lt name hname
  cases e with
  | tryAdmit listener key now counted admitted =>
    have hs := h.store_tryAdmit
    obtain ⟨rfl, -⟩ := h
    have hw := hs.window hc (overflowKeyOf name) (fun k _ _ l _ he hk => ?_) hma
    · cases admitted with
      | false | true => exact hw
    · -- the name before the separator tells the listener, and with it the limit
      obtain ⟨rfl, -, -, rfl, -⟩ := StoreEvent.tryAdmit.inj he
      have hsa := splitNext_trackedKey (listeners.names_valid _ hm.1) node.store
        listener.limit key
      rw [hk, splitNext_overflowKeyOf (listeners.names_valid name hname)] at hsa
      rw [hm.2, hsa]
  | mergeMessage msg now outcome =>
    rw [← h.eq_apply, apply, ClusterNode.mergeMessage]
    split_ifs
    · exact .of_le fun _ _ => le_rfl
    · refine .of_le fun t _ => KeyCounts.secondSum_mono fun slot => ?_
      exact getD_le_getD_of_level_le (node.store.level_le_level_mergeAll _ _ _ _ _)
  | prune now =>
    have hs : StoreEvent.Step node.store (.prune now) node'.store := by
      rw [← show node.prune now = node' from h]
      rfl
    exact hs.window hc (overflowKeyOf name) (fun _ _ _ _ _ he => by cases he) hma
  | snapshotMessage now msg =>
    rw [← h.eq_apply, apply, node.counts_snapshotMessage]
    exact .of_le fun _ _ => le_rfl

end NodeEvent

def admissionsUnder (key : String) (events : List NodeEvent) : List ℕ :=
  (events.filter fun e => e.admitsUnder key).map NodeEvent.now

section

variable {listeners : Listeners} {node node' : ClusterNode} {events : List NodeEvent}

lemma withinCap_of_run (he : node.store.keys = ∅)
    (hr : Run NodeEvent.Step node events node') (hm : ∀ e ∈ events, listeners.Made e) :
    node'.store.WithinCap listeners.overflowKeys := by
  refine (hr.with_events hm).invariant
    (I := fun node => node.store.WithinCap listeners.overflowKeys)
    (fun _ _ _ hs hc => hs.2.withinCap hs.1 hc) ?_
  simp [CounterStore.WithinCap, he]

lemma run_window {name : String} (hname : name ∈ listeners.names)
    (hr : Run (Guarded (fun node => Unwrapped node.store) NodeEvent.Step) node events node')
    (hm : ∀ e ∈ events, listeners.Made e) :
    node'.store.windowSecs = node.store.windowSecs ∧
      Run (Window.Step node.store.windowSecs (listeners.limit name))
        (node.store.counts (overflowKeyOf name)).secondSum
        (events.map fun e => (e.now, e.admitsUnder (overflowKeyOf name)))
        (node'.store.counts (overflowKeyOf name)).secondSum := by
  induction hr with
  | start => exact ⟨rfl, .start⟩
  | next _ hs ih =>
    rw [List.forall_mem_append, List.forall_mem_singleton] at hm
    obtain ⟨hw, ih⟩ := ih hm.1
    have hst := hs.2.1.window hm.2 hs.1 hname
    rw [hw] at hst
    rw [List.map_append]
    exact ⟨hs.2.1.windowSecs_eq.trans hw, ih.next hst⟩

lemma admitted_eq_admissionsUnder (key : String) (events : List NodeEvent) :
    Window.admitted (events.map fun e => (e.now, e.admitsUnder key))
      = admissionsUnder key events := by
  rw [Window.admitted, List.filter_map, List.map_map]
  rfl

/-- **The key cap.**  With requests of any fixed set of listeners, messages of any content and
prunes, the tracked keys are at most `maxTrackedKeys` and one for each listener.  If the clock does
not go back and no key's counts add up to `2 ^ 64`, the requests admitted under a listener's
overflow key in any `windowSecs` consecutive seconds are at most the listener's limit. -/
theorem overflow_within_limits (listeners : Listeners) (hempty : node.store.keys = ∅)
    (hrun : Run (Guarded (fun node => Unwrapped node.store) NodeEvent.Step) node events node')
    (hmade : ∀ e ∈ events, listeners.Made e)
    (hclock : events.Pairwise fun e e' => e.now ≤ e'.now) :
    node'.store.trackedKeys ≤ maxTrackedKeys + listeners.names.card ∧
      ∀ name ∈ listeners.names, ∀ t,
        ((admissionsUnder (overflowKeyOf name) events).filter fun a =>
          t ≤ a ∧ a < t + node.store.windowSecs).length ≤ listeners.limit name := by
  refine ⟨?_, fun name hname t => ?_⟩
  · have hc := withinCap_of_run hempty (hrun.mono fun _ _ _ hs => hs.2.1) hmade
    have hk : listeners.overflowKeys.card ≤ listeners.names.card := card_image_le
    exact hc.size_le.trans (Nat.add_le_add_left hk _)
  · rw [← admitted_eq_admissionsUnder]
    exact Window.admitted_le (run_window hname hrun hmade).2 (List.pairwise_map.mpr hclock) t

end

/-- A client that names the overflow key itself: the second request in its window is refused. -/
theorem overflow_within_limits_named :
    let listener : ListenerCoordinator := ⟨"web", 1⟩
    let node := ClusterNode.new "a" 10 (some 7) []
    let events : List NodeEvent :=
      [.tryAdmit listener "\x00overflow" 100 "web\x01\x00overflow" true,
        .tryAdmit listener "\x00overflow" 101 "web\x01\x00overflow" false]
    ∃ node', Run (Guarded (fun node => Unwrapped node.store) NodeEvent.Step) node events node' ∧
      admissionsUnder (overflowKeyOf "web") events = [100] ∧
      node'.store.trackedKeys ≤ maxTrackedKeys + 1 ∧
      ((admissionsUnder (overflowKeyOf "web") events).filter fun a =>
        100 ≤ a ∧ a < 100 + node.store.windowSecs).length ≤ 1 := by
  intro listener node events
  let listeners : Listeners :=
    ⟨{"web"}, fun _ => 1, fun name h => by rw [mem_singleton.mp h]; decide,
      fun _ _ => by norm_num⟩
  have hf : Guarded (fun node => Unwrapped node.store) NodeEvent.Step node
      (.tryAdmit listener "\x00overflow" 100 "web\x01\x00overflow" true)
      (listener.tryAdmit node "\x00overflow" 100).2 :=
    ⟨by decide, ⟨by decide, Prod.ext (by decide) rfl⟩, by decide⟩
  have hs : Guarded (fun node => Unwrapped node.store) NodeEvent.Step
      (listener.tryAdmit node "\x00overflow" 100).2
      (.tryAdmit listener "\x00overflow" 101 "web\x01\x00overflow" false)
      (listener.tryAdmit (listener.tryAdmit node "\x00overflow" 100).2 "\x00overflow" 101).2 :=
    ⟨by decide, ⟨by decide, Prod.ext (by decide) rfl⟩, by decide⟩
  have hr := (Run.start.next hf).next hs
  have hm : ∀ e ∈ events, listeners.Made e := by
    simp [events, Listeners.Made, listeners, listener]
  obtain ⟨hk, hl⟩ := overflow_within_limits listeners rfl hr hm
    (by simp [NodeEvent.now])
  exact ⟨_, hr, by decide, hk, hl "web" (by simp [listeners]) 100⟩

end LoadBalancer.Cluster
