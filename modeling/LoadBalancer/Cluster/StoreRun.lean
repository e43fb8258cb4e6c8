import LoadBalancer.Cluster.Merge
import LoadBalancer.Cluster.Snapshot
import LoadBalancer.Lib.Run

/-!
# Runs of a counter store

The calls on a `CounterStore` as events of a transition system, each with the clock reading it is
made with and the result it returns.
-/

namespace LoadBalancer.Cluster

/-- The calls on a store, with their clock readings and results. -/
inductive StoreEvent
  | tryAdmit (key nodeId : String) (now limit : ℕ) (admitted : Bool)
  | merge (key nodeId : String) (buckets : List (ℕ × ℕ)) (now : ℕ)
  | prune (now : ℕ)
  | snapshot (nodeId : String) (now maxEntries maxBytes : ℕ) (out : List (String × List (ℕ × ℕ)))
  deriving DecidableEq

namespace StoreEvent

/-- The clock reading of the call. -/
def now : StoreEvent → ℕ
  | tryAdmit _ _ now _ _ => now
  | merge _ _ _ now => now
  | prune now => now
  | snapshot _ now _ _ _ => now

/-- The node counts under its own id and merges under other slots. -/
def IsOwn (nodeId : String) : StoreEvent → Prop
  | tryAdmit _ n _ _ _ => n = nodeId
  | merge _ n _ _ => n ≠ nodeId
  | prune _ | snapshot .. => True

/-- One call, with the result that the store gives. -/
def Step (s : CounterStore) : StoreEvent → CounterStore → Prop
  | tryAdmit key nodeId now limit admitted, s' =>
    s.tryAdmit key nodeId now limit = (admitted, s')
  | merge key nodeId buckets now, s' => s.merge key nodeId buckets now = s'
  | prune now, s' => s.prune now = s'
  | snapshot nodeId now maxEntries maxBytes out, s' =>
    s.snapshotOwnCapped nodeId now maxEntries maxBytes = (out, s')

variable {s s' : CounterStore} {e : StoreEvent}

variable {maxEntries now : ℕ} {out : List (String × List (ℕ × ℕ))} {nodeId : String} {maxBytes : ℕ}
  (h : (snapshot nodeId now maxEntries maxBytes out).Step s s')

lemma step_tryAdmit_iff {key : String} {limit : ℕ} {admitted : Bool} :
    (tryAdmit key nodeId now limit admitted).Step s s' ↔
      (s.tryAdmit key nodeId now limit).1 = admitted ∧
        (s.tryAdmit key nodeId now limit).2 = s' :=
  Prod.ext_iff

lemma Step.tryAdmit {key : String} {limit : ℕ} {admitted : Bool}
    (h : (s.tryAdmit key nodeId now limit).1 = admitted) :
    (StoreEvent.tryAdmit key nodeId now limit admitted).Step s
      (s.tryAdmit key nodeId now limit).2 :=
  step_tryAdmit_iff.mpr ⟨h, rfl⟩

lemma Step.windowSecs_eq (h : e.Step s s') : s'.windowSecs = s.windowSecs := by
  cases e with
  | tryAdmit key nodeId now limit admitted =>
    rw [← s.windowSecs_tryAdmit key nodeId now limit,
      show s.tryAdmit key nodeId now limit = _ from h]
  | merge key nodeId buckets now =>
    rw [← show s.merge key nodeId buckets now = s' from h, s.windowSecs_merge]
  | prune now => rw [← show s.prune now = s' from h, s.windowSecs_prune]
  | snapshot nodeId now maxEntries maxBytes out =>
    rw [← s.windowSecs_snapshotOwnCapped nodeId now maxEntries maxBytes,
      show s.snapshotOwnCapped nodeId now maxEntries maxBytes = _ from h]

include h

lemma Step.keys_snapshot : s'.keys = s.keys := by
  rw [← s.keys_snapshotOwnCapped nodeId now maxEntries maxBytes,
    show s.snapshotOwnCapped nodeId now maxEntries maxBytes = _ from h]

lemma Step.counts_snapshot (key : String) : s'.counts key = s.counts key := by
  rw [CounterStore.counts, h.keys_snapshot]
  rfl

lemma Step.changed_snapshot_subset : ∀ k ∈ s'.changed, k ∈ s.changed := by
  obtain rfl : (s.snapshotOwnCapped nodeId now maxEntries maxBytes).2 = s' := congrArg Prod.snd h
  exact s.mem_changed_snapshotOwnCapped nodeId now maxEntries maxBytes

end StoreEvent

end LoadBalancer.Cluster
