import LoadBalancer.Cluster.Coordinator
import LoadBalancer.Cluster.StoreRun

/-!
# Runs of a cluster node

The calls on one boot of a `ClusterNode` as events of a transition system: the requests of its
listeners, the messages of its peers, and its own prunes and snapshots.  Each event has the clock
reading it was made with and what it returned; a request also has the key that it was counted
under, which is the listener's overflow key once the store is full.
-/

namespace LoadBalancer.Cluster

namespace ClusterNode

variable (node : ClusterNode)

lemma count_prune (now : ℕ) (key slot : String) (epoch : ℕ) :
    (node.prune now).store.count key slot epoch =
      if cutoffSecs now node.store.windowSecs ≤ epoch then node.store.count key slot epoch
      else 0 := by
  have h := node.store.cell_prune now key slot epoch
  rw [prune, CounterStore.count, KeyCounts.count]
  rw [CounterStore.cell] at h
  rw [h]
  split_ifs <;> rfl

lemma counts_snapshotMessage (now : ℕ) (key : String) :
    (node.snapshotMessage now).2.store.counts key = node.store.counts key := by
  have hk : (node.snapshotMessage now).2.store.keys = node.store.keys :=
    node.store.keys_snapshotOwnCapped _ _ _ _
  rw [CounterStore.counts, hk]
  rfl

lemma cell_of_mem_snapshotMessage {now : ℕ} {entry : KeyEntry}
    (h : entry ∈ (node.snapshotMessage now).1.entries) (epoch v : ℕ) :
    (epoch, v) ∈ entry.buckets ↔ cutoffSecs now node.store.windowSecs ≤ epoch ∧
      node.store.cell entry.key node.nodeId epoch = some v := by
  obtain ⟨⟨key, buckets⟩, hm, rfl⟩ := List.mem_map.mp h
  exact node.store.mem_of_ownInWindow_eq_some node.nodeId
    (node.store.ownInWindow_of_mem_snapshot node.nodeId hm) epoch v

lemma cell_mergeMessage_of_ne {slot : String} {msg : SyncMessage}
    (hs : slot ≠ nodeSlot msg.nodeId msg.incarnation) (now : ℕ) (key : String) (epoch : ℕ) :
    (node.mergeMessage msg now).2.store.cell key slot epoch = node.store.cell key slot epoch := by
  unfold mergeMessage
  split_ifs
  · rfl
  · refine node.store.cell_mergeAll_of_ne (fun c hc => ?_) now key epoch
    obtain ⟨entry, -, rfl⟩ := List.mem_map.mp hc
    exact hs

end ClusterNode

inductive NodeEvent
  | tryAdmit (listener : ListenerCoordinator) (key : String) (now : ℕ) (counted : String)
      (admitted : Bool)
  | mergeMessage (msg : SyncMessage) (now : ℕ) (outcome : MergeOutcome)
  | prune (now : ℕ)
  | snapshotMessage (now : ℕ) (msg : SyncMessage)

namespace NodeEvent

/-- The clock reading of the call. -/
def now : NodeEvent → ℕ
  | tryAdmit _ _ now _ _ => now
  | mergeMessage _ now _ => now
  | prune now => now
  | snapshotMessage now _ => now

/-- The request was admitted and counted under `key`. -/
def admitsUnder (key : String) : NodeEvent → Bool
  | tryAdmit _ _ _ counted admitted => admitted && counted = key
  | _ => false

def Step (node : ClusterNode) : NodeEvent → ClusterNode → Prop
  | tryAdmit listener key now counted admitted, node' =>
    node.store.trackedKey (listener.namespaced key) = counted ∧
      listener.tryAdmit node key now = (admitted, node')
  | mergeMessage msg now outcome, node' => node.mergeMessage msg now = (outcome, node')
  | prune now, node' => node.prune now = node'
  | snapshotMessage now msg, node' => node.snapshotMessage now = (msg, node')

variable {node node' : ClusterNode} {e : NodeEvent}

def apply (node : ClusterNode) : NodeEvent → ClusterNode
  | tryAdmit listener key now _ _ => (listener.tryAdmit node key now).2
  | mergeMessage msg now _ => (node.mergeMessage msg now).2
  | prune now => node.prune now
  | snapshotMessage now _ => (node.snapshotMessage now).2

lemma Step.eq_apply (h : e.Step node node') : e.apply node = node' := by
  cases e with
  | tryAdmit => exact congrArg Prod.snd h.2
  | prune => exact h
  | mergeMessage | snapshotMessage => exact congrArg Prod.snd h

lemma Step.store_tryAdmit {listener : ListenerCoordinator} {key counted : String} {now : ℕ}
    {admitted : Bool} (h : (tryAdmit listener key now counted admitted).Step node node') :
    StoreEvent.Step node.store (.tryAdmit (listener.namespaced key) node.nodeId now listener.limit
      admitted) node'.store := by
  rw [← h.eq_apply]
  exact .tryAdmit (congrArg Prod.fst h.2)

lemma Step.nodeId_eq (h : e.Step node node') : node'.nodeId = node.nodeId := by
  rw [← h.eq_apply]
  cases e with
  | mergeMessage msg now outcome =>
    rw [apply, ClusterNode.mergeMessage]
    split_ifs <;> rfl
  | tryAdmit | prune | snapshotMessage => rfl

lemma Step.windowSecs_eq (h : e.Step node node') :
    node'.store.windowSecs = node.store.windowSecs := by
  rw [← h.eq_apply]
  cases e with
  | tryAdmit => exact node.store.windowSecs_tryAdmit _ _ _ _
  | mergeMessage msg now outcome => exact ClusterNode.windowSecs_mergeMessage node msg now
  | prune => rfl
  | snapshotMessage => exact node.store.windowSecs_snapshotOwnCapped _ _ _ _

lemma nodeId_windowSecs_of_run {events : List NodeEvent} (hr : Run Step node events node') :
    node'.nodeId = node.nodeId ∧ node'.store.windowSecs = node.store.windowSecs :=
  hr.invariant (I := fun n => n.nodeId = node.nodeId ∧
    n.store.windowSecs = node.store.windowSecs)
    (fun _ _ _ hs h => ⟨hs.nodeId_eq.trans h.1, hs.windowSecs_eq.trans h.2⟩) ⟨rfl, rfl⟩

end NodeEvent

end LoadBalancer.Cluster
