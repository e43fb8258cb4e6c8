import LoadBalancer.Cluster.Merge
import LoadBalancer.Cluster.Protocol

/-!
# Cluster nodes

A `ClusterNode` (`crates/lb-cluster/src/coordinator.rs`) is one boot of one node: its id, the
incarnation that tells this boot from earlier ones, and its counter store.  Listeners admit
requests through it, and it exchanges `SyncMessage`s with its peers.

A peer's counts are stored under the slot `nodeSlot id incarnation`, this node's own under its
bare id.  `nodeSlot_inj` and `nodeSlot_ne_of_notMem` say that ids without NUL keep all of these
apart.
-/

namespace LoadBalancer.Cluster

/-- A reading of `Clock::unix_secs`: `SystemTime` holds its seconds in an `i64`. -/
structure UnixSecs where
  secs : ℕ
  secs_lt : secs < 2 ^ 63
  deriving DecidableEq

lemma UnixSecs.le_maxEpochSecs (t : UnixSecs) : t.secs ≤ maxEpochSecs t.secs := by
  have := t.secs_lt
  unfold maxEpochSecs futureSkewToleranceSecs
  rw [wrap64_of_lt (by omega)]
  omega

/-! ## Slots -/

lemma splitNext_append {sep : Char} {s : String} (h : sep ∉ s.toList) (t : String) :
    splitNext sep (s ++ String.singleton sep ++ t) = s := by
  unfold splitNext
  have ht : (s ++ String.singleton sep ++ t).toList.takeWhile (fun c => decide (c ≠ sep))
      = s.toList := by
    rw [String.toList_append, String.toList_append, String.toList_singleton, List.append_assoc,
      List.takeWhile_append_of_pos]
    · simp
    · intro c hc
      simpa using ne_of_mem_of_not_mem hc h
  rw [ht, String.ofList_toList]

lemma nodeSlot_of_ne_zero (nodeId : String) {incarnation : ℕ} (h : incarnation ≠ 0) :
    nodeSlot nodeId incarnation = nodeId ++ String.singleton '\x00' ++ incarnation.repr :=
  if_neg h

lemma nodeSlot_inj {n n' : String} {i i' : ℕ} (hn : '\x00' ∉ n.toList) (hn' : '\x00' ∉ n'.toList)
    (hi : i ≠ 0) (hi' : i' ≠ 0) (h : nodeSlot n i = nodeSlot n' i') : n = n' ∧ i = i' := by
  rw [nodeSlot_of_ne_zero n hi, nodeSlot_of_ne_zero n' hi'] at h
  have hid : n = n' := by
    rw [← splitNext_append hn i.repr, h, splitNext_append hn' i'.repr]
  subst hid
  exact ⟨rfl, Nat.repr_injective ((String.append_right_inj _).mp h)⟩

lemma nodeSlot_ne_of_notMem {n r : String} {i : ℕ} (hr : '\x00' ∉ r.toList) (hi : i ≠ 0) :
    nodeSlot n i ≠ r := by
  rintro rfl
  rw [nodeSlot_of_ne_zero n hi] at hr
  simp at hr

/-! ## The node -/

inductive MergeOutcome
  | merged
  /-- The message claimed this node's own id. -/
  | ownNodeIdEcho
  deriving DecidableEq, Repr

structure ClusterNode where
  nodeId : String
  incarnation : ℕ
  store : CounterStore
  secret : Bytes

namespace ClusterNode

/-- A boot whose system clock read `bootNanos` nanoseconds after the epoch, `none` when it read
a time before the epoch. -/
def new (nodeId : String) (windowSecs : ℕ) (bootNanos : Option ℕ) (secret : Bytes) :
    ClusterNode where
  nodeId := nodeId
  incarnation := max ((bootNanos.map wrap64).getD 1) 1
  store := CounterStore.new windowSecs
  secret := secret

def withIncarnation (node : ClusterNode) (incarnation : ℕ) : ClusterNode :=
  { node with incarnation := incarnation }

def messageCalls (msg : SyncMessage) : List MergeCall :=
  msg.entries.map fun entry => ⟨entry.key, nodeSlot msg.nodeId msg.incarnation, entry.buckets⟩

def mergeMessage (node : ClusterNode) (msg : SyncMessage) (now : ℕ) :
    MergeOutcome × ClusterNode :=
  if msg.nodeId = node.nodeId then (.ownNodeIdEcho, node)
  else (.merged, { node with store := node.store.mergeAll (messageCalls msg) now })

def snapshotMessage (node : ClusterNode) (now : ℕ) : SyncMessage × ClusterNode :=
  let (snapshot, store) := node.store.snapshotOwn node.nodeId now
  (⟨node.nodeId, node.incarnation, snapshot.map fun entry => ⟨entry.1, entry.2⟩⟩,
    { node with store := store })

def prune (node : ClusterNode) (now : ℕ) : ClusterNode :=
  { node with store := node.store.prune now }

end ClusterNode

/-- One listener's view of the cluster budget. -/
structure ListenerCoordinator where
  nameSpace : String
  limit : ℕ

namespace ListenerCoordinator

def namespaced (l : ListenerCoordinator) (key : String) : String := l.nameSpace ++ "\x01" ++ key

def tryAdmit (l : ListenerCoordinator) (node : ClusterNode) (key : String) (now : ℕ) :
    Bool × ClusterNode :=
  let (admitted, store) := node.store.tryAdmit (l.namespaced key) node.nodeId now l.limit
  (admitted, { node with store := store })

end ListenerCoordinator

/-! ## What a message does to the totals

A message raises the cells of one slot.  The total of a key is a sum of cells that wraps at
`2 ^ 64`, so a peer that reports a large enough count takes the total past the modulus and
lowers it.  `growth` is what a message adds to a key's counts before wrapping. -/

namespace ClusterNode

variable (node : ClusterNode) (msg : SyncMessage)

/-- The largest count the message has for a cell, as far as a merge at `now` accepts it. -/
def bestCount (now : ℕ) (key : String) (epoch : ℕ) : ℕ :=
  ((((msg.entries.filter fun entry => entry.key = key).flatMap fun entry => entry.buckets).filter
    fun b => b.1 = epoch ∧ b.1 ≤ maxEpochSecs now).map fun b => b.2).foldr max 0

/-- What merging the message at `now` adds to the counts of `key` in the window that ends at
`t`. -/
def growth (now : ℕ) (key : String) (t : ℕ) : ℕ :=
  if msg.nodeId = node.nodeId then 0
  else ∑ epoch ∈ Finset.Icc (cutoffSecs t node.store.windowSecs) t,
    (bestCount msg now key epoch -
      node.store.count key (nodeSlot msg.nodeId msg.incarnation) epoch)

lemma foldr_max_le_iff (l : List ℕ) (n : ℕ) : l.foldr max 0 ≤ n ↔ ∀ v ∈ l, v ≤ n := by
  induction l with
  | nil => simp
  | cons v l ih => rw [List.foldr_cons, max_le_iff, ih, List.forall_mem_cons]

variable (now : ℕ) (key : String)

lemma bestCount_le_iff (epoch n : ℕ) :
    bestCount msg now key epoch ≤ n ↔ ∀ v,
      Accepts (messageCalls msg) now key (nodeSlot msg.nodeId msg.incarnation) epoch v →
        v ≤ n := by
  rw [bestCount, foldr_max_le_iff]
  refine forall_congr' fun v => imp_congr_left ?_
  simp only [List.mem_map, List.mem_filter, List.mem_flatMap, decide_eq_true_eq, Prod.exists,
    Accepts, messageCalls]
  constructor
  · rintro ⟨e, v, ⟨⟨entry, ⟨hm, rfl⟩, hb⟩, rfl, hle⟩, rfl⟩
    exact ⟨_, ⟨entry, hm, rfl⟩, rfl, rfl, hb, hle⟩
  · rintro ⟨_, ⟨entry, hm, rfl⟩, rfl, -, hb, hle⟩
    exact ⟨epoch, v, ⟨⟨entry, ⟨hm, rfl⟩, hb⟩, rfl, hle⟩, rfl⟩

lemma count_mergeMessage {key : String} (hk : key ∈ node.store.keys) (now : ℕ)
    (hid : msg.nodeId ≠ node.nodeId) (slot : String) (epoch : ℕ) :
    (node.mergeMessage msg now).2.store.count key slot epoch = node.store.count key slot epoch +
      if slot = nodeSlot msg.nodeId msg.incarnation then
        bestCount msg now key epoch - node.store.count key slot epoch else 0 := by
  rw [mergeMessage, if_neg hid]
  dsimp only
  apply eq_of_forall_ge_iff
  intro n
  rw [node.store.count_mergeAll_le_iff (Or.inl hk)]
  split_ifs with hs
  · subst hs
    rw [← bestCount_le_iff]
    omega
  · refine and_iff_left fun v ha => ?_
    obtain ⟨c, hc, -, rfl, -⟩ := ha
    obtain ⟨entry, -, rfl⟩ := List.mem_map.mp hc
    exact absurd rfl hs

lemma sum_countsInWindow_mergeMessage {key : String} (hk : key ∈ node.store.keys) (now t : ℕ) :
    (((node.mergeMessage msg now).2.store.counts key).countsInWindow t
        node.store.windowSecs).sum
      = ((node.store.counts key).countsInWindow t node.store.windowSecs).sum
        + growth node msg now key t := by
  by_cases hid : msg.nodeId = node.nodeId
  · rw [mergeMessage, if_pos hid, growth, if_pos hid, add_zero]
  set c := node.store.counts key
  set c' := (node.mergeMessage msg now).2.store.counts key
  set slot := nodeSlot msg.nodeId msg.incarnation
  let S : Finset String := insert slot (c.perNode.keys.toFinset ∪ c'.perNode.keys.toFinset)
  rw [c.sum_countsInWindow t _ S (fun s hs => by simp [S, AList.mem_keys.mp hs]),
    c'.sum_countsInWindow t _ S (fun s hs => by simp [S, AList.mem_keys.mp hs]), growth,
    if_neg hid]
  have hc : ∀ s e, c'.count s e = c.count s e +
      if s = slot then bestCount msg now key e - c.count s e else 0 := fun s e =>
    count_mergeMessage node msg hk now hid s e
  simp only [hc, Finset.sum_add_distrib]
  congr 1
  rw [Finset.sum_eq_single_of_mem slot (Finset.mem_insert_self _ _)
    (fun s _ hs => by simp [hs])]
  simp [CounterStore.count, c, slot]

lemma windowSecs_mergeMessage :
    (node.mergeMessage msg now).2.store.windowSecs = node.store.windowSecs := by
  unfold mergeMessage
  split_ifs
  · rfl
  · exact CounterStore.windowSecs_mergeAll _ _ _

lemma wrap64_le_wrap64_add_iff (a b : ℕ) :
    wrap64 a ≤ wrap64 (a + b) ↔ wrap64 a + wrap64 b < 2 ^ 64 := by
  unfold wrap64
  omega

lemma totalInWindow_eq_zero_of_notMem {s : CounterStore} {key : String} (h : key ∉ s.keys)
    (t : ℕ) : s.totalInWindow key t = 0 := by
  rw [CounterStore.totalInWindow, AList.get_eq_none_iff.mpr h]
  rfl

lemma totalInWindow_le_mergeMessage_iff (t : ℕ) :
    node.store.totalInWindow key t ≤ (node.mergeMessage msg now).2.store.totalInWindow key t ↔
      node.store.totalInWindow key t + wrap64 (growth node msg now key t) < 2 ^ 64 := by
  by_cases hk : key ∈ node.store.keys
  · rw [CounterStore.totalInWindow_eq, CounterStore.totalInWindow_eq, windowSecs_mergeMessage,
      KeyCounts.totalInWindow, KeyCounts.totalInWindow, sum_countsInWindow_mergeMessage _ _ hk,
      wrap64_le_wrap64_add_iff]
  · rw [totalInWindow_eq_zero_of_notMem hk, zero_add]
    exact iff_of_true (Nat.zero_le _) (wrap64_lt _)

lemma trackedKey_mergeMessage {t : ℕ}
    (h : 0 < node.store.totalInWindow (node.store.trackedKey key) t) :
    (node.mergeMessage msg now).2.store.trackedKey key = node.store.trackedKey key := by
  unfold mergeMessage
  split_ifs with hid
  · rfl
  dsimp only
  by_cases hk : key ∈ node.store.keys
  · rw [CounterStore.trackedKey, CounterStore.trackedKey, if_pos hk,
      if_pos (node.store.mem_keys_mergeAll_of_mem hk _ _)]
  -- a new key of a store with room has an empty total, so the store is full
  have hf : maxTrackedKeys ≤ node.store.keys.size := by
    by_contra hlt
    rw [node.store.trackedKey_eq_of_lt (not_le.mp hlt), totalInWindow_eq_zero_of_notMem hk] at h
    exact h.ne rfl
  have hk' := mt (node.store.mem_keys_mergeAll_of_full hf (messageCalls msg) now key).mp hk
  rw [CounterStore.trackedKey, CounterStore.trackedKey, if_neg hk, if_neg hk', if_pos hf,
    if_pos (hf.trans (node.store.size_keys_le_mergeAll _ _))]

/-- **When learning from a peer cannot loosen the limit.**  A message lowers no total and turns
no refusal into an admission exactly when, for every key, the key's total and what the message
adds to its counts stay together below `2 ^ 64`. -/
theorem mergeMessage_never_loosens_iff (now t : ℕ) :
    (∀ key,
      node.store.totalInWindow key t ≤ (node.mergeMessage msg now).2.store.totalInWindow key t ∧
      ∀ nodeId limit, (node.store.tryAdmit key nodeId t limit).1 = false →
        ((node.mergeMessage msg now).2.store.tryAdmit key nodeId t limit).1 = false) ↔
    ∀ key, node.store.totalInWindow key t + wrap64 (growth node msg now key t) < 2 ^ 64 := by
  constructor
  · intro h key
    exact (totalInWindow_le_mergeMessage_iff node msg now key t).mp (h key).1
  · intro h
    have hle := fun key => (totalInWindow_le_mergeMessage_iff node msg now key t).mpr (h key)
    refine fun key => ⟨hle key, fun nodeId limit hr => ?_⟩
    rw [CounterStore.tryAdmit_fst, decide_eq_false_iff_not, not_lt] at hr ⊢
    rcases Nat.eq_zero_or_pos (node.store.totalInWindow (node.store.trackedKey key) t)
      with hz | hp
    · omega
    · rw [trackedKey_mergeMessage node msg now key hp]
      exact hr.trans (hle _)

/-- Five requests against a limit of five, and a peer that reports `2 ^ 64 - 5` more for the
same second: the total drops from 5 to 0 and a refused request is admitted. -/
theorem mergeMessage_loosens :
    let l : ListenerCoordinator := ⟨"web", 5⟩
    let request := fun node : ClusterNode => (l.tryAdmit node "10.0.0.7" 100).2
    let node := request^[5] (ClusterNode.new "a" 10 (some 1) [])
    let msg : SyncMessage := ⟨"b", 1, [⟨"web\x0110.0.0.7", [(100, 2 ^ 64 - 5)]⟩]⟩
    let node' := (node.mergeMessage msg 100).2
    node.store.totalInWindow "web\x0110.0.0.7" 100 = 5 ∧
      (l.tryAdmit node "10.0.0.7" 100).1 = false ∧
      node'.store.totalInWindow "web\x0110.0.0.7" 100 = 0 ∧
      (l.tryAdmit node' "10.0.0.7" 100).1 = true := by
  decide

end ClusterNode

end LoadBalancer.Cluster
