import LoadBalancer.Cluster.NodeRun

/-!
# A node's own books

A node counts what it admits under its bare id and what its peers report under slots made of an id
and an incarnation.  The slot of a message is built from whatever the message says, so that gossip
leaves the node's own cells alone is a fact about the encoding: an id without NUL is no slot with
an incarnation, and a message that claims the node's own id without one is turned away.

What the node announces is read from its own cells only, so gossip does not change the next
announcement in any way (`snapshotMessage_mergeMessage`).
-/

namespace LoadBalancer.Cluster

open List

/-! ## One message -/

namespace CounterStore

variable (s : CounterStore) {nodeId : String}

def slotBuckets (key slot : String) : Option Buckets := (s.counts key).perNode.get slot

lemma slotBuckets_eq (key slot : String) :
    s.slotBuckets key slot = (s.keys.get key).bind fun item => item.perNode.get slot := by
  unfold slotBuckets counts
  cases s.keys.get key <;> rfl

lemma slotBuckets_merge_of_ne {slot : String} (h : nodeId ≠ slot) (key : String)
    (buckets : List (ℕ × ℕ)) (now : ℕ) (k : String) :
    (s.merge key slot buckets now).slotBuckets k nodeId = s.slotBuckets k nodeId := by
  unfold slotBuckets counts
  rw [keys_merge]
  split_ifs with hc
  · rw [AList.get_insert]
    by_cases hk : k = key
    · subst hk
      rw [if_pos rfl, Option.getD_some]
      unfold mergeInto
      cases (s.counts k).perNode.get slot with
      | some old => exact AList.get_insert_of_ne _ _ h
      | none =>
        dsimp only
        split_ifs
        · exact AList.get_insert_of_ne _ _ h
        · rfl
    · rw [if_neg hk]
  · rfl

lemma slotBuckets_mergeAll_of_ne {calls : List MergeCall} (h : ∀ c ∈ calls, nodeId ≠ c.slot)
    (now : ℕ) (k : String) :
    (s.mergeAll calls now).slotBuckets k nodeId = s.slotBuckets k nodeId := by
  induction calls generalizing s with
  | nil => rfl
  | cons c calls ih =>
    rw [mergeAll_cons, ih _ fun c' hc' => h c' (mem_cons_of_mem c hc')]
    exact s.slotBuckets_merge_of_ne (h c mem_cons_self) _ _ _ _

/-! ### What a snapshot reads -/

lemma ownInWindow_congr {s s' : CounterStore} {key : String}
    (h : s'.slotBuckets key nodeId = s.slotBuckets key nodeId) (cutoff : ℕ) :
    s'.ownInWindow key nodeId cutoff = s.ownInWindow key nodeId cutoff := by
  rw [slotBuckets_eq, slotBuckets_eq] at h
  rw [ownInWindow, ownInWindow, ← Option.bind_assoc, ← Option.bind_assoc, h]

lemma mem_ownKeys {key : String} : key ∈ s.ownKeys nodeId ↔ (s.slotBuckets key nodeId).isSome := by
  rw [ownKeys, mem_insertionSort, mem_map, slotBuckets_eq]
  constructor
  · rintro ⟨⟨k, item⟩, hm, rfl⟩
    rw [mem_filter, AList.mem_entries_iff_get] at hm
    rw [hm.1, Option.bind_some, AList.get_isSome_iff]
    simpa using hm.2
  · intro hs
    obtain ⟨buckets, hb⟩ := Option.isSome_iff_exists.mp hs
    obtain ⟨item, hite, hg⟩ := Option.bind_eq_some_iff.mp hb
    refine ⟨⟨key, item⟩, ?_, rfl⟩
    rw [mem_filter, AList.mem_entries_iff_get]
    exact ⟨hite, by simpa using AList.mem_of_get_eq_some hg⟩

lemma ownKeys_congr {s s' : CounterStore}
    (h : ∀ key, s'.slotBuckets key nodeId = s.slotBuckets key nodeId) :
    s'.ownKeys nodeId = s.ownKeys nodeId := by
  have hp : (s'.ownKeys nodeId).Perm (s.ownKeys nodeId) :=
    (perm_ext_iff_of_nodup (s'.ownKeys_nodup nodeId) (s.ownKeys_nodup nodeId)).mpr fun key => by
      rw [mem_ownKeys, mem_ownKeys, h]
  exact hp.eq_of_pairwise' (pairwise_insertionSort _ _) (pairwise_insertionSort _ _)

section

variable {s s' : CounterStore} (h : ∀ key, s'.slotBuckets key nodeId = s.slotBuckets key nodeId)
  (cutoff maxEntries maxBytes : ℕ)

include h

lemma snapshotChanged_congr : ∀ (keys : List String) (changed : Table String Unit)
    (acc : SnapshotAcc), s'.snapshotChanged nodeId cutoff maxEntries maxBytes keys changed acc
      = s.snapshotChanged nodeId cutoff maxEntries maxBytes keys changed acc
  | [], _, _ => rfl
  | key :: rest, changed, acc => by
      rw [snapshotChanged, snapshotChanged, ownInWindow_congr (h key)]
      cases s.ownInWindow key nodeId cutoff with
      | none => exact snapshotChanged_congr rest _ _
      | some inWindow =>
        dsimp only
        rw [snapshotChanged_congr rest]

lemma snapshotRotation_congr (keys included : List String) : ∀ (n idx : ℕ) (acc : SnapshotAcc),
    s'.snapshotRotation nodeId cutoff maxEntries maxBytes keys included n idx acc
      = s.snapshotRotation nodeId cutoff maxEntries maxBytes keys included n idx acc
  | 0, _, _ => rfl
  | n + 1, idx, acc => by
      rw [snapshotRotation, snapshotRotation, ownInWindow_congr (h _)]
      dsimp only
      rw [snapshotRotation_congr keys included n]
      cases s.ownInWindow (keys.getD idx "") nodeId cutoff with
      | none => rfl
      | some inWindow =>
        dsimp only
        rw [snapshotRotation_congr keys included n]

lemma snapshotOwnCapped_congr (hw : s'.windowSecs = s.windowSecs)
    (hc : s'.changed = s.changed) (hcu : s'.snapshotCursor = s.snapshotCursor)
    (now : ℕ) : (s'.snapshotOwnCapped nodeId now maxEntries maxBytes).1
      = (s.snapshotOwnCapped nodeId now maxEntries maxBytes).1 := by
  unfold snapshotOwnCapped changedKeys
  rw [ownKeys_congr h, hw, hc, hcu]
  dsimp only
  rw [snapshotChanged_congr h, snapshotRotation_congr h]
  split_ifs <;> rfl

end

lemma changed_cursor_mergeAll (calls : List MergeCall) (now : ℕ) :
    (s.mergeAll calls now).changed = s.changed ∧
      (s.mergeAll calls now).snapshotCursor = s.snapshotCursor := by
  induction calls generalizing s with
  | nil => exact ⟨rfl, rfl⟩
  | cons c calls ih =>
    obtain ⟨_, _, hm⟩ := s.merge_eq c.key c.slot c.buckets now
    obtain ⟨hc, hcu⟩ := ih (s.merge c.key c.slot c.buckets now)
    rw [mergeAll_cons, hc, hcu, hm]
    exact ⟨rfl, rfl⟩

end CounterStore

namespace ClusterNode

variable {node : ClusterNode} (hid : '\x00' ∉ node.nodeId.toList) (msg : SyncMessage) (now : ℕ)

include hid

/-- **The slot of a message that is merged is never the node's own.** -/
lemma nodeId_ne_nodeSlot (hne : msg.nodeId ≠ node.nodeId) :
    node.nodeId ≠ nodeSlot msg.nodeId msg.incarnation := by
  by_cases hz : msg.incarnation = 0
  · rw [hz]
    exact hne.symm
  · exact (nodeSlot_ne_of_notMem hid hz).symm

lemma cell_own_mergeMessage (key : String) (epoch : ℕ) :
    (node.mergeMessage msg now).2.store.cell key node.nodeId epoch
      = node.store.cell key node.nodeId epoch := by
  by_cases he : msg.nodeId = node.nodeId
  · rw [mergeMessage, if_pos he]
  · exact node.cell_mergeMessage_of_ne (nodeId_ne_nodeSlot hid msg he) now key epoch

/-- **Gossip does not change the next announcement.** -/
lemma snapshotMessage_mergeMessage (t : ℕ) :
    ((node.mergeMessage msg now).2.snapshotMessage t).1 = (node.snapshotMessage t).1 := by
  by_cases he : msg.nodeId = node.nodeId
  · rw [mergeMessage, if_pos he]
  have hsl : ∀ key, (node.store.mergeAll (messageCalls msg) now).slotBuckets key node.nodeId
      = node.store.slotBuckets key node.nodeId := fun key => by
    refine node.store.slotBuckets_mergeAll_of_ne (fun c hc => ?_) now key
    obtain ⟨entry, -, rfl⟩ := mem_map.mp hc
    exact nodeId_ne_nodeSlot hid msg he
  obtain ⟨hch, hcu⟩ := node.store.changed_cursor_mergeAll (messageCalls msg) now
  have hs := CounterStore.snapshotOwnCapped_congr hsl maxSnapshotBucketEntries
    maxSnapshotBytes (node.store.windowSecs_mergeAll _ _) hch hcu t
  rw [mergeMessage, if_neg he]
  exact congrArg (fun out => SyncMessage.mk node.nodeId node.incarnation
    (out.map fun entry => KeyEntry.mk entry.1 entry.2)) hs

end ClusterNode

/-! ## Runs -/

namespace NodeEvent

/-- A request that was admitted in second `epoch` and counted under `key`. -/
def Admits (key : String) (epoch : ℕ) (e : NodeEvent) : Bool :=
  e.admitsUnder key && e.now = epoch

/-- A prune that drops the cells of second `epoch`. -/
def Drops (windowSecs epoch : ℕ) : NodeEvent → Bool
  | prune now => epoch < cutoffSecs now windowSecs
  | _ => false

def book (windowSecs : ℕ) (key : String) (epoch n : ℕ) (e : NodeEvent) : ℕ :=
  if e.Drops windowSecs epoch then 0 else if e.Admits key epoch then n + 1 else n

section

variable {node node' : ClusterNode} {e : NodeEvent}

/-- **One step.**  The node's own cells change by its own admissions and prunes, and by nothing
else. -/
lemma Step.count_own (h : e.Step node node') (hid : '\x00' ∉ node.nodeId.toList) (key : String)
    (epoch : ℕ) : node'.store.count key node.nodeId epoch =
      if e.Drops node.store.windowSecs epoch then 0
      else if e.Admits key epoch then wrap64 (node.store.count key node.nodeId epoch + 1)
      else node.store.count key node.nodeId epoch := by
  cases e with
  | tryAdmit listener k now counted admitted =>
    obtain ⟨ha, hs⟩ := StoreEvent.step_tryAdmit_iff.mp h.store_tryAdmit
    have hc := node.store.cell_tryAdmit (listener.namespaced k) node.nodeId key node.nodeId now
      listener.limit epoch
    rw [ha, h.1, hs] at hc
    have hco : node'.store.count key node.nodeId epoch =
        (node'.store.cell key node.nodeId epoch).getD 0 := rfl
    have hd : (tryAdmit listener k now counted admitted).Drops node.store.windowSecs epoch
        = false := rfl
    rw [hco, hc, hd, if_neg Bool.false_ne_true, Admits, admitsUnder, NodeEvent.now]
    by_cases hy : admitted = true ∧ counted = key ∧ now = epoch
    · obtain ⟨rfl, rfl, rfl⟩ := hy
      simp
    · rw [if_neg fun h => hy ⟨h.1, h.2.1.symm, h.2.2.2.symm⟩,
        if_neg (by simpa [and_assoc] using hy)]
      rfl
  | mergeMessage msg now outcome =>
    obtain rfl : (node.mergeMessage msg now).2 = node' := congrArg Prod.snd h
    exact congrArg (·.getD 0) (ClusterNode.cell_own_mergeMessage hid msg now key epoch)
  | prune now =>
    obtain rfl : node.prune now = node' := h
    rw [ClusterNode.count_prune, Drops]
    by_cases hle : cutoffSecs now node.store.windowSecs ≤ epoch
    · rw [if_pos hle, if_neg (by simpa using hle)]
      rfl
    · rw [if_neg hle, if_pos (by simpa using hle)]
  | snapshotMessage now msg =>
    obtain rfl : (node.snapshotMessage now).2 = node' := congrArg Prod.snd h
    rw [CounterStore.count, node.counts_snapshotMessage]
    rfl

end

end NodeEvent

/-- What the node has booked for a key and a second: its admissions since the last prune that
dropped the second. -/
def booked (windowSecs : ℕ) (key : String) (epoch : ℕ) (events : List NodeEvent) : ℕ :=
  events.foldl (NodeEvent.book windowSecs key epoch) 0

def admittedUnder (key : String) (epoch : ℕ) (events : List NodeEvent) : ℕ :=
  events.countP (NodeEvent.Admits key epoch)

section

variable {node node' : ClusterNode} {events : List NodeEvent}

lemma booked_snoc (windowSecs : ℕ) (key : String) (epoch : ℕ) (events : List NodeEvent)
    (e : NodeEvent) : booked windowSecs key epoch (events ++ [e])
      = e.book windowSecs key epoch (booked windowSecs key epoch events) := by
  rw [booked, foldl_append]
  rfl

lemma count_own_of_run (hid : '\x00' ∉ node.nodeId.toList) (he : node.store.keys = ∅)
    (hr : Run NodeEvent.Step node events node') (key : String) (epoch : ℕ) :
    node'.store.count key node.nodeId epoch
      = wrap64 (booked node.store.windowSecs key epoch events) := by
  induction hr with
  | start =>
    rw [CounterStore.count, CounterStore.counts, he]
    rfl
  | @next events node₁ node' e hr hs ih =>
    obtain ⟨hid₁, hw⟩ := NodeEvent.nodeId_windowSecs_of_run hr
    have hc := hs.count_own (hid₁ ▸ hid) key epoch
    rw [hid₁, hw, ih] at hc
    rw [hc, booked_snoc, NodeEvent.book]
    have hwr : ∀ n, wrap64 (wrap64 n + 1) = wrap64 (n + 1) := fun n => Nat.mod_add_mod n _ 1
    split_ifs
    · rfl
    · exact hwr _
    · rfl

lemma booked_eq_admittedUnder {windowSecs t epoch : ℕ} (hc : ∀ e ∈ events, e.now ≤ t)
    (he : cutoffSecs t windowSecs ≤ epoch) (key : String) :
    booked windowSecs key epoch events = admittedUnder key epoch events := by
  induction events using List.reverseRecOn with
  | nil => rfl
  | append_singleton events e ih =>
    rw [forall_mem_append, forall_mem_singleton] at hc
    have hk : e.Drops windowSecs epoch = false := by
      cases e with
      | prune now =>
        have hcu := cutoffSecs_mono hc.2 windowSecs
        simpa [NodeEvent.Drops, NodeEvent.now] using hcu.trans he
      | tryAdmit | mergeMessage | snapshotMessage => rfl
    rw [booked_snoc, NodeEvent.book, hk, ih hc.1, admittedUnder, admittedUnder,
      countP_append, countP_singleton, if_neg Bool.false_ne_true]
    split_ifs <;> rfl

end

/-- **Gossip never alters a node's own books.**  Let the node's id have no NUL.

* Whatever message arrives, the node's own cells stay as they are, no cell of anyone is lowered or
  removed, and the node's next announcement stays what it was.
* No two messages of different boots change the same cell, at any nodes.
* In every run from an empty store, each count that the node announces is the number of requests it
  admitted in that second under that key since the last prune that dropped the second, and with a
  clock that does not go back the number of all of them, as a `u64`. -/
theorem gossip_keeps_own_books (node : ClusterNode) (hid : '\x00' ∉ node.nodeId.toList) :
    (∀ msg now,
      (∀ key epoch, (node.mergeMessage msg now).2.store.cell key node.nodeId epoch
        = node.store.cell key node.nodeId epoch) ∧
      (∀ key slot epoch v, node.store.cell key slot epoch = some v →
        ∃ v', v ≤ v' ∧ (node.mergeMessage msg now).2.store.cell key slot epoch = some v') ∧
      ∀ t, ((node.mergeMessage msg now).2.snapshotMessage t).1 = (node.snapshotMessage t).1) ∧
    (∀ msg msg' : SyncMessage, '\x00' ∉ msg.nodeId.toList → '\x00' ∉ msg'.nodeId.toList →
      msg.incarnation ≠ 0 → msg'.incarnation ≠ 0 →
      (msg.nodeId, msg.incarnation) ≠ (msg'.nodeId, msg'.incarnation) →
      ∀ (node₁ node₂ : ClusterNode) now₁ now₂ key slot epoch,
        (node₁.mergeMessage msg now₁).2.store.cell key slot epoch
          = node₁.store.cell key slot epoch ∨
        (node₂.mergeMessage msg' now₂).2.store.cell key slot epoch
          = node₂.store.cell key slot epoch) ∧
    (node.store.keys = ∅ → ∀ events node', Run NodeEvent.Step node events node' →
      ∀ t, ∀ entry ∈ (node'.snapshotMessage t).1.entries, ∀ b ∈ entry.buckets,
        b.2 = wrap64 (booked node.store.windowSecs entry.key b.1 events) ∧
        ((∀ e ∈ events, e.now ≤ t) → b.2 = wrap64 (admittedUnder entry.key b.1 events))) := by
  refine ⟨fun msg now => ⟨ClusterNode.cell_own_mergeMessage hid msg now, ?_,
    ClusterNode.snapshotMessage_mergeMessage hid msg now⟩, ?_, ?_⟩
  · intro key slot epoch v hv
    unfold ClusterNode.mergeMessage
    split_ifs
    · exact ⟨v, le_rfl, hv⟩
    · have hle := node.store.level_le_level_mergeAll (ClusterNode.messageCalls msg) now key slot
        epoch
      rw [hv] at hle
      exact exists_of_level_some_le hle
  · intro msg msg' hm hm' hi hi' hne node₁ node₂ now₁ now₂ key slot epoch
    by_cases hs : slot = nodeSlot msg.nodeId msg.incarnation
    · refine Or.inr (node₂.cell_mergeMessage_of_ne (fun hs' => hne ?_) now₂ key epoch)
      obtain ⟨hid', hi''⟩ := nodeSlot_inj hm hm' hi hi' (hs.symm.trans hs')
      rw [hid', hi'']
    · exact Or.inl (node₁.cell_mergeMessage_of_ne hs now₁ key epoch)
  · rintro he events node' hr t entry hen ⟨epoch, v⟩ hb
    obtain ⟨hid', hw⟩ := NodeEvent.nodeId_windowSecs_of_run hr
    obtain ⟨hcu, hce⟩ := (node'.cell_of_mem_snapshotMessage hen epoch v).mp hb
    have hv : v = wrap64 (booked node.store.windowSecs entry.key epoch events) := by
      rw [← count_own_of_run hid he hr, ← hid']
      exact (CounterStore.count_eq_of_cell hce).symm
    refine ⟨hv, fun hc => ?_⟩
    rw [hw] at hcu
    rw [← booked_eq_admittedUnder hc hcu]
    exact hv

/-- One request admitted, and a peer that reports fifty under the same key and second: the node
announces one. -/
theorem gossip_keeps_own_books_after_report :
    let node := ClusterNode.new "a" 10 (some 7) []
    let listener : ListenerCoordinator := ⟨"web", 5⟩
    let msg : SyncMessage := ⟨"b", 1, [⟨"web\x01k", [(100, 50)]⟩]⟩
    let node' := ((listener.tryAdmit node "k" 100).2.mergeMessage msg 100).2
    (node'.snapshotMessage 100).1.entries = [⟨"web\x01k", [(100, 1)]⟩] ∧
      ∀ entry ∈ (node'.snapshotMessage 100).1.entries, ∀ b ∈ entry.buckets,
        b.2 = wrap64 (admittedUnder entry.key b.1
          [.tryAdmit listener "k" 100 "web\x01k" true, .mergeMessage msg 100 .merged]) := by
  intro node listener msg node'
  have had : NodeEvent.Step node (.tryAdmit listener "k" 100 "web\x01k" true)
      (listener.tryAdmit node "k" 100).2 := ⟨by decide, Prod.ext (by decide) rfl⟩
  have hm : NodeEvent.Step (listener.tryAdmit node "k" 100).2
      (.mergeMessage msg 100 .merged) node' := Prod.ext (by decide) rfl
  have hr := (Run.start.next had).next hm
  obtain ⟨-, -, ha⟩ := gossip_keeps_own_books node (by decide)
  refine ⟨by decide, fun entry he b hb => ?_⟩
  refine (ha rfl _ _ hr 100 entry he b hb).2 ?_
  simp [NodeEvent.now]

end LoadBalancer.Cluster
