import LoadBalancer.Cluster.NodeRun

/-!
# Gossip over an unreliable network

A cluster is the current boot of every node and the messages that were ever sent.  A message stays
in the network: delivering it does not remove it, so it may be lost, duplicated, reordered and
delayed at will.  A node restarts by booting again, with an empty store and a new incarnation.

Nothing is over-counted, since a message carries at most what its sender had admitted, and the slot
a merge raises belongs to one boot (`count_slot_le`).  Counts converge, since a snapshot taken
after the last in-window admission of a boot carries the true counts (`count_own`), and a merged
message stays merged while its seconds are in the window (`le_count_of_deliver`).
-/

namespace LoadBalancer.Cluster

open List

structure Boot where
  nodeId : String
  incarnation : ℕ
  deriving DecidableEq

def Boot.slot (b : Boot) : String := nodeSlot b.nodeId b.incarnation

def Boot.Valid (b : Boot) : Prop := '\x00' ∉ b.nodeId.toList ∧ b.incarnation ≠ 0

instance (b : Boot) : Decidable b.Valid := inferInstanceAs (Decidable (_ ∧ _))

lemma Boot.Valid.slot_inj {b b' : Boot} (hb : b.Valid) (hb' : b'.Valid)
    (h : b.slot = b'.slot) : b = b' := by
  obtain ⟨h1, h2⟩ := nodeSlot_inj hb.1 hb'.1 hb.2 hb'.2 h
  cases b
  cases b'
  simp_all

lemma Boot.Valid.slot_ne {b r : Boot} (hb : b.Valid) (hr : r.Valid) : b.slot ≠ r.nodeId :=
  nodeSlot_ne_of_notMem hr.1 hb.2

def ClusterNode.boot (node : ClusterNode) : Boot := ⟨node.nodeId, node.incarnation⟩

def SyncMessage.boot (msg : SyncMessage) : Boot := ⟨msg.nodeId, msg.incarnation⟩

structure Network where
  /-- The current boot of each node, by node id. -/
  nodes : Table String ClusterNode
  /-- Every message sent so far. -/
  sent : List SyncMessage

inductive NetEvent
  | boot (b : Boot) (windowSecs : ℕ) (secret : Bytes)
  | tryAdmit (b : Boot) (listener : ListenerCoordinator) (key : String) (now : UnixSecs)
      (admitted : Bool)
  | snapshot (b : Boot) (now : UnixSecs) (msg : SyncMessage)
  | prune (b : Boot) (now : UnixSecs)
  | deliver (b : Boot) (msg : SyncMessage) (now : UnixSecs)

namespace Network

def empty : Network := ⟨∅, []⟩

/-- `node` is the state of boot `b`, which is the current one of its node. -/
def Alive (c : Network) (b : Boot) (node : ClusterNode) : Prop :=
  c.nodes.get b.nodeId = some node ∧ node.boot = b

def setNode (c : Network) (node : ClusterNode) : Network :=
  { c with nodes := c.nodes.insert node.nodeId node }

def BelowCap (c : Network) : Prop :=
  ∀ node ∈ c.nodes.entries, node.2.store.keys.size < maxTrackedKeys

instance (c : Network) : Decidable c.BelowCap := List.decidableBAll _ _

end Network

namespace NetEvent

open Network

def Step (c : Network) : NetEvent → Network → Prop
  | boot b windowSecs secret, c' =>
    c' = c.setNode ((ClusterNode.new b.nodeId windowSecs none secret).withIncarnation b.incarnation)
  | tryAdmit b listener key now admitted, c' => ∃ node, c.Alive b node ∧
    (listener.tryAdmit node key now.secs).1 = admitted ∧
    c' = c.setNode (listener.tryAdmit node key now.secs).2
  | snapshot b now msg, c' => ∃ node, c.Alive b node ∧
    (node.snapshotMessage now.secs).1 = msg ∧
    c' = { c.setNode (node.snapshotMessage now.secs).2 with sent := msg :: c.sent }
  | prune b now, c' => ∃ node, c.Alive b node ∧ c' = c.setNode (node.prune now.secs)
  | deliver b msg now, c' => ∃ node, c.Alive b node ∧ msg ∈ c.sent ∧
    c' = c.setNode (node.mergeMessage msg now.secs).2

def actor : NetEvent → Boot
  | boot b _ _ | tryAdmit b _ _ _ _ | snapshot b _ _ | prune b _ | deliver b _ _ => b

def now : NetEvent → Option ℕ
  | boot .. => none
  | tryAdmit _ _ _ now _ | snapshot _ now _ | prune _ now | deliver _ _ now => some now.secs

end NetEvent

/-! ## What happened -/

def boots (events : List NetEvent) : List Boot :=
  events.filterMap fun
    | .boot b _ _ => some b
    | _ => none

def admittedBy (b : Boot) (key : String) (events : List NetEvent) : List ℕ :=
  events.filterMap fun
    | .tryAdmit b' listener k now true =>
      if b' = b ∧ listener.namespaced k = key then some now.secs else none
    | _ => none

def admittedIn (b : Boot) (key : String) (epoch : ℕ) (events : List NetEvent) : ℕ :=
  (admittedBy b key events).count epoch

/-- The node ids are NUL-free, and every boot has its own nonzero incarnation. -/
structure WellFormed (events : List NetEvent) : Prop where
  valid : ∀ b ∈ boots events, b.Valid
  nodup : (boots events).Nodup

lemma boots_append (events events' : List NetEvent) :
    boots (events ++ events') = boots events ++ boots events' := filterMap_append

lemma admittedIn_append (b : Boot) (key : String) (epoch : ℕ) (events events' : List NetEvent) :
    admittedIn b key epoch (events ++ events') =
      admittedIn b key epoch events + admittedIn b key epoch events' := by
  rw [admittedIn, admittedBy, filterMap_append, count_append]
  rfl

lemma admittedIn_tryAdmit_true (b b' : Boot) (listener : ListenerCoordinator) (k key : String)
    (now : UnixSecs) (epoch : ℕ) :
    admittedIn b key epoch [.tryAdmit b' listener k now true] =
      if b' = b ∧ listener.namespaced k = key ∧ now.secs = epoch then 1 else 0 := by
  unfold admittedIn admittedBy
  by_cases h : b' = b ∧ listener.namespaced k = key
  · simp [h, count_singleton']
  · rw [if_neg fun hc => h ⟨hc.1, hc.2.1⟩]
    simp [h]

lemma admittedIn_singleton_of_actor_ne {b : Boot} {e : NetEvent} (h : e.actor ≠ b) (key : String)
    (epoch : ℕ) : admittedIn b key epoch [e] = 0 := by
  cases e with
  | tryAdmit b' listener k now admitted =>
    cases admitted with
    | false => rfl
    | true => rw [admittedIn_tryAdmit_true, if_neg fun hc => h hc.1]
  | boot | snapshot | prune | deliver => rfl

lemma exists_event_of_admittedIn {b : Boot} {key : String} {epoch : ℕ} {events : List NetEvent}
    (h : admittedIn b key epoch events ≠ 0) :
    ∃ e ∈ events, e.actor = b ∧ e.now = some epoch := by
  obtain ⟨e, he, hs⟩ := mem_filterMap.mp (count_pos_iff.mp (Nat.pos_of_ne_zero h))
  refine ⟨e, he, ?_⟩
  split at hs
  · split_ifs at hs with hc
    exact ⟨hc.1, hs⟩
  · cases hs

lemma WellFormed.of_append {events events' : List NetEvent}
    (h : WellFormed (events ++ events')) : WellFormed events := by
  obtain ⟨h1, h2⟩ := h
  rw [boots_append] at h1 h2
  exact ⟨fun b hb => h1 b (mem_append_left _ hb), h2.of_append_left⟩

/-! ## One step, at one node -/

/-- Where the state `node'` of a boot after event `e` comes from. -/
inductive Origin (c : Network) (b : Boot) (node' : ClusterNode) : NetEvent → Prop
  | booted (windowSecs : ℕ) (secret : Bytes)
      (h : node' =
        (ClusterNode.new b.nodeId windowSecs none secret).withIncarnation b.incarnation) :
      Origin c b node' (.boot b windowSecs secret)
  | untouched {e : NetEvent} (halive : c.Alive b node') (h : e.actor ≠ b) : Origin c b node' e
  | tried (node : ClusterNode) (listener : ListenerCoordinator) (key : String) (now : UnixSecs)
      (halive : c.Alive b node) (h : node' = (listener.tryAdmit node key now.secs).2) :
      Origin c b node' (.tryAdmit b listener key now (listener.tryAdmit node key now.secs).1)
  | snapshotted (node : ClusterNode) (now : UnixSecs) (halive : c.Alive b node)
      (h : node' = (node.snapshotMessage now.secs).2) :
      Origin c b node' (.snapshot b now (node.snapshotMessage now.secs).1)
  | pruned (node : ClusterNode) (now : UnixSecs) (halive : c.Alive b node)
      (h : node' = node.prune now.secs) : Origin c b node' (.prune b now)
  | merged (node : ClusterNode) (msg : SyncMessage) (now : UnixSecs) (halive : c.Alive b node)
      (hsent : msg ∈ c.sent) (h : node' = (node.mergeMessage msg now.secs).2) :
      Origin c b node' (.deliver b msg now)

namespace Network

variable {c : Network} {b b' : Boot} {node node' : ClusterNode}

lemma Alive.nodeId_eq (h : c.Alive b node) : node.nodeId = b.nodeId := congrArg Boot.nodeId h.2

lemma alive_setNode (h : (c.setNode node).Alive b node') :
    (node' = node ∧ b = node.boot) ∨ (c.Alive b node' ∧ node.boot ≠ b) := by
  obtain ⟨hg, hbo⟩ := h
  rw [setNode, AList.get_insert] at hg
  split_ifs at hg with hid
  · cases hg
    exact Or.inl ⟨rfl, hbo.symm⟩
  · exact Or.inr ⟨⟨hg, hbo⟩, fun hb => hid (by rw [← hb]; rfl)⟩

end Network

namespace ClusterNode

variable (node : ClusterNode)

lemma boot_mergeMessage (msg : SyncMessage) (now : ℕ) :
    (node.mergeMessage msg now).2.boot = node.boot := by
  unfold mergeMessage
  split_ifs <;> rfl

lemma count_mergeMessage_le_iff {msg : SyncMessage} {now : ℕ} (hid : msg.nodeId ≠ node.nodeId)
    (hs : (node.mergeMessage msg now).2.store.keys.size < maxTrackedKeys)
    (key slot : String) (epoch n : ℕ) :
    (node.mergeMessage msg now).2.store.count key slot epoch ≤ n ↔
      node.store.count key slot epoch ≤ n ∧ (slot = msg.boot.slot → ∀ entry ∈ msg.entries,
        entry.key = key → ∀ v, (epoch, v) ∈ entry.buckets → epoch ≤ maxEpochSecs now → v ≤ n) := by
  rw [mergeMessage, if_neg hid] at hs ⊢
  rw [node.store.count_mergeAll_le_iff (Or.inr (node.store.room_of_size_lt hs))]
  refine and_congr_right fun _ => ?_
  constructor
  · rintro h rfl entry hm rfl v hv hle
    exact h v ⟨_, mem_map_of_mem hm, rfl, rfl, hv, hle⟩
  · rintro h v ⟨_, hm, rfl, rfl, hv, hle⟩
    obtain ⟨entry, hm', rfl⟩ := mem_map.mp hm
    exact h rfl entry hm' rfl v hv hle

lemma count_mergeMessage_of_ne {msg : SyncMessage} {now : ℕ}
    (hs : (node.mergeMessage msg now).2.store.keys.size < maxTrackedKeys) {slot : String}
    (hsl : slot ≠ msg.boot.slot) (key : String) (epoch : ℕ) :
    (node.mergeMessage msg now).2.store.count key slot epoch = node.store.count key slot epoch := by
  by_cases hid : msg.nodeId = node.nodeId
  · rw [mergeMessage, if_pos hid]
  · refine eq_of_forall_ge_iff fun n => ?_
    rw [node.count_mergeMessage_le_iff hid hs]
    exact and_iff_left fun h => absurd h hsl

lemma count_tryAdmit (hs : node.store.keys.size < maxTrackedKeys) (l : ListenerCoordinator)
    (k : String) (now : ℕ) (key slot : String) (epoch : ℕ) :
    (l.tryAdmit node k now).2.store.count key slot epoch =
      if (l.tryAdmit node k now).1 = true ∧ l.namespaced k = key ∧ slot = node.nodeId ∧
          epoch = now then
        wrap64 (node.store.count key node.nodeId now + 1)
      else node.store.count key slot epoch := by
  have h := node.store.cell_tryAdmit (l.namespaced k) node.nodeId key slot now l.limit epoch
  rw [node.store.trackedKey_eq_of_lt hs] at h
  have hco : (l.tryAdmit node k now).2.store.count key slot epoch =
      ((l.tryAdmit node k now).2.store.cell key slot epoch).getD 0 := rfl
  rw [hco, show (l.tryAdmit node k now).2.store.cell key slot epoch = _ from h]
  by_cases hc : (l.tryAdmit node k now).1 = true ∧ l.namespaced k = key ∧ slot = node.nodeId ∧
      epoch = now
  · rw [if_pos hc, if_pos ⟨hc.1, hc.2.1.symm, hc.2.2⟩]
    rfl
  · rw [if_neg hc, if_neg (fun h => hc ⟨h.1, h.2.1.symm, h.2.2⟩)]
    rfl

end ClusterNode

lemma NetEvent.Step.mem_sent {c c' : Network} {e : NetEvent} (h : e.Step c c')
    {msg : SyncMessage} (hs : msg ∈ c'.sent) :
    msg ∈ c.sent ∨ ∃ now node, e = .snapshot msg.boot now msg ∧ c.Alive msg.boot node ∧
      (node.snapshotMessage now.secs).1 = msg := by
  cases e with
  | boot =>
    obtain rfl : c' = _ := h
    exact Or.inl hs
  | snapshot b now m =>
    obtain ⟨node, halive, rfl, rfl⟩ := h
    rcases mem_cons.mp hs with rfl | hs
    · have hb : b = (node.snapshotMessage now.secs).1.boot := halive.2.symm
      subst hb
      exact Or.inr ⟨now, node, rfl, halive, rfl⟩
    · exact Or.inl hs
  | prune =>
    obtain ⟨_, _, rfl⟩ := h
    exact Or.inl hs
  | tryAdmit | deliver =>
    obtain ⟨_, _, _, rfl⟩ := h
    exact Or.inl hs

lemma NetEvent.Step.origin {c c' : Network} {e : NetEvent} (h : e.Step c c') {b : Boot}
    {node' : ClusterNode} (halive : c'.Alive b node') : Origin c b node' e := by
  cases e with
  | boot b₀ windowSecs secret =>
    obtain rfl : c' = _ := h
    obtain ⟨rfl, rfl⟩ | ⟨ho, hne⟩ := Network.alive_setNode halive
    · exact .booted windowSecs secret rfl
    · exact .untouched ho hne
  | tryAdmit b₀ listener key now admitted =>
    obtain ⟨node, hn, rfl, rfl⟩ := h
    obtain ⟨rfl, rfl⟩ | ⟨ho, hne⟩ := Network.alive_setNode halive
    · have hb : b₀ = node.boot := hn.2.symm
      subst hb
      exact .tried node listener key now hn rfl
    · exact .untouched ho (hn.2 ▸ hne)
  | snapshot b₀ now msg =>
    obtain ⟨node, hn, rfl, rfl⟩ := h
    have ha' : (c.setNode (node.snapshotMessage now.secs).2).Alive b node' := halive
    obtain ⟨rfl, rfl⟩ | ⟨ho, hne⟩ := Network.alive_setNode ha'
    · have hb : b₀ = node.boot := hn.2.symm
      subst hb
      exact .snapshotted node now hn rfl
    · exact .untouched ho (hn.2 ▸ hne)
  | prune b₀ now =>
    obtain ⟨node, hn, rfl⟩ := h
    obtain ⟨rfl, rfl⟩ | ⟨ho, hne⟩ := Network.alive_setNode halive
    · have hb : b₀ = node.boot := hn.2.symm
      subst hb
      exact .pruned node now hn rfl
    · exact .untouched ho (hn.2 ▸ hne)
  | deliver b₀ msg now =>
    obtain ⟨node, hn, hs, rfl⟩ := h
    obtain ⟨rfl, rfl⟩ | ⟨ho, hne⟩ := Network.alive_setNode halive
    · have hb : b₀ = node.boot := hn.2.symm
      rw [node.boot_mergeMessage]
      subst hb
      exact .merged node msg now hn hs rfl
    · rw [node.boot_mergeMessage] at hne
      exact .untouched ho (hn.2 ▸ hne)

/-! ## Windows and clocks -/

def SameWindow (windowSecs : ℕ) (events : List NetEvent) : Prop :=
  ∀ e ∈ events, ∀ b w secret, e = .boot b w secret → w = windowSecs

lemma SameWindow.of_append {windowSecs : ℕ} {events events' : List NetEvent}
    (h : SameWindow windowSecs (events ++ events')) : SameWindow windowSecs events :=
  fun e he => h e (mem_append_left _ he)

def readings (events : List NetEvent) : List ℕ := events.filterMap NetEvent.now

lemma readings_append (events events' : List NetEvent) :
    readings (events ++ events') = readings events ++ readings events' := filterMap_append

lemma mem_readings_of_now {events : List NetEvent} {e : NetEvent} {t : ℕ} (he : e ∈ events)
    (ht : e.now = some t) :
    t ∈ readings events :=
  mem_filterMap.mpr ⟨e, he, ht⟩

/-- A snapshot of `b` that contains `key`, taken after `b`'s last admission of `key` from
`cutoff` on, has been merged by `r`. -/
def Synced (b r : Boot) (key : String) (cutoff : ℕ) (events : List NetEvent) : Prop :=
  ∃ (before after : List NetEvent) (now : UnixSecs) (msg : SyncMessage),
    events = before ++ .snapshot b now msg :: after ∧ (∃ entry ∈ msg.entries, entry.key = key) ∧
    (∃ now', .deliver r msg now' ∈ after) ∧
    ∀ epoch, cutoff ≤ epoch → admittedIn b key epoch after = 0

/-- The requests for `key` that boot `b` admitted in the window that ends at `now`. -/
def admittedInWindow (b : Boot) (key : String) (windowSecs now : ℕ) (events : List NetEvent) :
    ℕ :=
  ((admittedBy b key events).filter
    (· ∈ Finset.Icc (cutoffSecs now (max windowSecs 1)) now)).length

/-- What the total of `r` should be: the admissions of its current boot and of all boots of the
other nodes. -/
def trueTotal (r : Boot) (key : String) (windowSecs now : ℕ) (events : List NetEvent) : ℕ :=
  admittedInWindow r key windowSecs now events +
    (((boots events).filter (·.nodeId ≠ r.nodeId)).map
      (admittedInWindow · key windowSecs now events)).sum

lemma admittedInWindow_eq (b : Boot) (key : String) (windowSecs now : ℕ)
    (events : List NetEvent) :
    admittedInWindow b key windowSecs now events =
      ∑ epoch ∈ Finset.Icc (cutoffSecs now (max windowSecs 1)) now,
        admittedIn b key epoch events :=
  (sum_count_eq_length_filter _ _).symm

lemma admittedIn_le_admittedInWindow (b : Boot) (key : String) {windowSecs now epoch : ℕ}
    (hep : epoch ∈ Finset.Icc (cutoffSecs now (max windowSecs 1)) now)
    (events : List NetEvent) :
    admittedIn b key epoch events ≤ admittedInWindow b key windowSecs now events := by
  rw [admittedInWindow_eq]
  exact Finset.single_le_sum (f := fun epoch => admittedIn b key epoch events)
    (fun _ _ => Nat.zero_le _) hep

lemma admittedInWindow_le_trueTotal {events : List NetEvent} {b r : Boot} (key : String)
    (windowSecs now : ℕ)
    (hb : b ∈ boots events) (hne : b.nodeId ≠ r.nodeId) :
    admittedInWindow b key windowSecs now events ≤ trueTotal r key windowSecs now events := by
  refine le_trans ?_ (Nat.le_add_left _ _)
  refine le_sum_of_mem (mem_map.mpr ⟨b, ?_, rfl⟩)
  simp [hb, hne]

lemma sum_countsInWindow_of_slots (k : KeyCounts) (own : String) (bs : Finset Boot) (now w : ℕ)
    (hinj : ∀ b ∈ bs, ∀ b' ∈ bs, b.slot = b'.slot → b = b') (ho : ∀ b ∈ bs, b.slot ≠ own)
    (hz : ∀ slot epoch, 0 < k.count slot epoch → slot = own ∨ ∃ b ∈ bs, slot = b.slot) :
    (k.countsInWindow now w).sum =
      ∑ epoch ∈ Finset.Icc (cutoffSecs now w) now, k.count own epoch +
        ∑ b ∈ bs, ∑ epoch ∈ Finset.Icc (cutoffSecs now w) now, k.count b.slot epoch := by
  let S : Finset String := insert own (bs.image Boot.slot)
  rw [k.sum_countsInWindow now w (S ∪ k.perNode.keys.toFinset)
    (fun slot hs => by simp [AList.mem_keys.mp hs])]
  have hsu : ∑ slot ∈ S, ∑ epoch ∈ Finset.Icc (cutoffSecs now w) now, k.count slot epoch =
      ∑ slot ∈ S ∪ k.perNode.keys.toFinset,
        ∑ epoch ∈ Finset.Icc (cutoffSecs now w) now, k.count slot epoch := by
    refine Finset.sum_subset Finset.subset_union_left fun slot _ hsl => ?_
    refine Finset.sum_eq_zero fun epoch _ => ?_
    by_contra hne
    rcases hz slot epoch (Nat.pos_of_ne_zero hne) with rfl | ⟨b, hb, rfl⟩
    · exact hsl (Finset.mem_insert_self _ _)
    · exact hsl (Finset.mem_insert_of_mem (Finset.mem_image_of_mem _ hb))
  rw [← hsu, Finset.sum_insert, Finset.sum_image fun b hb b' hb' => hinj b hb b' hb']
  simpa using ho

/-- All nodes have the window `windowSecs` and read one clock that does not go back, and `now`
is not before any of its readings. -/
structure OneClock (windowSecs now : ℕ) (events : List NetEvent) : Prop where
  same_window : SameWindow windowSecs events
  ordered : (readings events).Pairwise (· ≤ ·)
  le_now : ∀ u ∈ readings events, u ≤ now

/-! ## Nothing is over-counted -/

section

variable {events : List NetEvent} {c c' : Network} {e : NetEvent} {r b : Boot} {node : ClusterNode}
  {msg : SyncMessage} {key slot : String} {epoch windowSecs t : ℕ}

lemma Network.BelowCap.size_lt (h : c.BelowCap) (halive : c.Alive r node) :
    node.store.keys.size < maxTrackedKeys :=
  h ⟨r.nodeId, node⟩ (AList.mem_entries_iff_get.mpr halive.1)

/-- What an event makes of one cell of a boot: `n` is the count after it. -/
inductive CellStep (c : Network) (r : Boot) (key slot : String) (epoch n : ℕ) : NetEvent → Prop
  | booted {windowSecs : ℕ} {secret : Bytes} (h : n = 0) :
      CellStep c r key slot epoch n (.boot r windowSecs secret)
  | kept {e : NetEvent} {node : ClusterNode} (halive : c.Alive r node)
      (h : n = node.store.count key slot epoch)
      (hnone : slot = r.nodeId → admittedIn r key epoch [e] = 0) :
      CellStep c r key slot epoch n e
  | admitted {e : NetEvent} {node : ClusterNode} (halive : c.Alive r node) (hslot : slot = r.nodeId)
      (h : n = wrap64 (node.store.count key slot epoch + 1))
      (hone : admittedIn r key epoch [e] = 1) : CellStep c r key slot epoch n e
  | pruned {node : ClusterNode} {now : UnixSecs} (halive : c.Alive r node)
      (hout : ¬ cutoffSecs now.secs node.store.windowSecs ≤ epoch) (h : n = 0) :
      CellStep c r key slot epoch n (.prune r now)
  | merged {node : ClusterNode} {msg : SyncMessage} {now : UnixSecs} (halive : c.Alive r node)
      (hsent : msg ∈ c.sent) (hid : msg.nodeId ≠ r.nodeId) (hslot : slot = msg.boot.slot)
      (h : ∀ m, n ≤ m ↔ node.store.count key slot epoch ≤ m ∧ ∀ entry ∈ msg.entries,
        entry.key = key → ∀ v, (epoch, v) ∈ entry.buckets → epoch ≤ maxEpochSecs now.secs → v ≤ m) :
      CellStep c r key slot epoch n (.deliver r msg now)

lemma cellStep (hst : Guarded Network.BelowCap NetEvent.Step c e c') (halive : c'.Alive r node)
    (key slot : String) (epoch : ℕ) :
    CellStep c r key slot epoch (node.store.count key slot epoch) e := by
  have hca := hst.2.2.size_lt halive
  cases hst.2.1.origin halive with
  | booted windowSecs secret h =>
    subst h
    exact .booted rfl
  | untouched hal hne => exact .kept hal rfl fun _ => admittedIn_singleton_of_actor_ne hne ..
  | tried node listener k now hal h =>
    subst h
    rw [node.count_tryAdmit (hst.1.size_lt hal), hal.nodeId_eq]
    split_ifs with hc
    · obtain ⟨hy, rfl, rfl, rfl⟩ := hc
      exact .admitted hal rfl rfl (by rw [hy, admittedIn_tryAdmit_true, if_pos ⟨rfl, rfl, rfl⟩])
    · refine .kept hal rfl fun hs => ?_
      cases hy : (listener.tryAdmit node k now.secs).1 with
      | false => rfl
      | true => rw [admittedIn_tryAdmit_true, if_neg fun h => hc ⟨hy, h.2.1, hs, h.2.2.symm⟩]
  | snapshotted node now hal h =>
    subst h
    exact .kept hal (by rw [CounterStore.count, node.counts_snapshotMessage]; rfl) fun _ => rfl
  | pruned node now hal h =>
    subst h
    rw [node.count_prune]
    split_ifs with hin
    · exact .kept hal rfl fun _ => rfl
    · exact .pruned hal hin rfl
  | merged node msg now hal hse h =>
    subst h
    by_cases hid : msg.nodeId = node.nodeId
    · exact .kept hal (by rw [ClusterNode.mergeMessage, if_pos hid]) fun _ => rfl
    by_cases hs : slot = msg.boot.slot
    · refine .merged hal hse (hal.nodeId_eq ▸ hid) hs fun m => ?_
      rw [node.count_mergeMessage_le_iff hid hca, forall_prop_of_true hs]
    · exact .kept hal (node.count_mergeMessage_of_ne hca hs key epoch) fun _ => rfl

variable (hrun : Run (Guarded Network.BelowCap NetEvent.Step) .empty events c)
include hrun

lemma mem_boots_of_alive (halive : c.Alive r node) : r ∈ boots events := by
  induction hrun generalizing r node with
  | start => cases halive.1
  | next _ hs ih =>
    rw [boots_append, mem_append]
    cases hs.2.1.origin halive with
    | booted => exact Or.inr (mem_singleton_self r)
    | untouched halive => exact Or.inl (ih halive)
    | tried _ _ _ _ halive => exact Or.inl (ih halive)
    | snapshotted _ _ halive => exact Or.inl (ih halive)
    | pruned _ _ halive => exact Or.inl (ih halive)
    | merged _ _ _ halive => exact Or.inl (ih halive)

lemma actor_mem_boots (he : e ∈ events) : e.actor ∈ boots events := by
  induction hrun with
  | start => cases he
  | @next events s s' e' hrun hs ih =>
    rw [boots_append, mem_append]
    rcases mem_append.mp he with he | he
    · exact Or.inl (ih he)
    obtain rfl := mem_singleton.mp he
    cases e with
    | boot => exact Or.inr (mem_singleton_self _)
    | tryAdmit | snapshot | prune | deliver =>
      obtain ⟨node, halive, -⟩ := hs.2.1
      exact Or.inl (mem_boots_of_alive hrun halive)

lemma actor_ne_of_boot {secret : Bytes} (hwf : WellFormed (events ++ [.boot b windowSecs secret]))
    (he : e ∈ events) : e.actor ≠ b := by
  intro h
  have hn := hwf.nodup
  rw [boots_append, nodup_append] at hn
  exact hn.2.2 b (h ▸ actor_mem_boots hrun he) b (mem_singleton_self b) rfl

lemma mem_boots_of_sent (hs : msg ∈ c.sent) : msg.boot ∈ boots events := by
  induction hrun with
  | start => cases hs
  | next hrun hst ih =>
    rw [boots_append, mem_append]
    obtain hs | ⟨now, node, -, halive, hm⟩ := hst.2.1.mem_sent hs
    · exact Or.inl (ih hs)
    · subst hm
      exact Or.inl (mem_boots_of_alive hrun halive)

lemma boot_mem_boots_of_deliver {now : UnixSecs} (h : .deliver r msg now ∈ events) :
    msg.boot ∈ boots events := by
  obtain ⟨l, l', rfl⟩ := append_of_mem h
  obtain ⟨c₁, _, hr₁, hst, -⟩ := hrun.split
  obtain ⟨_, _, hs, -⟩ := hst.2.1
  rw [boots_append]
  exact mem_append_left _ (mem_boots_of_sent hr₁ hs)

lemma slot_cases (halive : c.Alive r node) (hp : 0 < node.store.count key slot epoch) :
    slot = r.nodeId ∨ ∃ b ∈ boots events, b.nodeId ≠ r.nodeId ∧ slot = b.slot := by
  induction hrun generalizing r node with
  | start => cases halive.1
  | @next events s s' e hrun hst ih =>
    have hm : (slot = r.nodeId ∨ ∃ b ∈ boots events, b.nodeId ≠ r.nodeId ∧ slot = b.slot) →
        slot = r.nodeId ∨ ∃ b ∈ boots (events ++ [e]), b.nodeId ≠ r.nodeId ∧ slot = b.slot := by
      rw [boots_append]
      rintro (h | ⟨b, hb, h⟩)
      · exact Or.inl h
      · exact Or.inr ⟨b, mem_append_left _ hb, h⟩
    cases cellStep hst halive key slot epoch with
    | booted h | pruned _ _ h => exact absurd h hp.ne'
    | kept halive h => exact hm (ih halive (h ▸ hp))
    | admitted _ hs => exact Or.inl hs
    | merged _ hse hid hs =>
      exact hm (Or.inr ⟨_, mem_boots_of_sent hrun hse, hid, hs⟩)

lemma windowSecs_of_alive (hwin : SameWindow windowSecs events) (halive : c.Alive r node) :
    node.store.windowSecs = max windowSecs 1 := by
  induction hrun generalizing r node with
  | start => cases halive.1
  | @next events s s' e hrun hs ih =>
    cases hs.2.1.origin halive with
    | booted w secret h =>
      subst h
      rw [← hwin _ (mem_append_right _ (mem_singleton_self _)) r w secret rfl]
      rfl
    | untouched hal => exact ih hwin.of_append hal
    | tried node listener k now hal h =>
      subst h
      exact (node.store.windowSecs_tryAdmit _ _ _ _).trans (ih hwin.of_append hal)
    | snapshotted node now hal h =>
      subst h
      exact (node.store.windowSecs_snapshotOwnCapped _ _ _ _).trans (ih hwin.of_append hal)
    | pruned node now hal h =>
      subst h
      exact (node.store.windowSecs_prune now.secs).trans (ih hwin.of_append hal)
    | merged node msg now hal hse h =>
      subst h
      exact (node.windowSecs_mergeMessage msg now.secs).trans (ih hwin.of_append hal)

variable (hwf : WellFormed events)
include hwf

lemma slot_ne_of_sent (halive : c.Alive r node) (hs : msg ∈ c.sent) : r.nodeId ≠ msg.boot.slot :=
  ((hwf.valid _ (mem_boots_of_sent hrun hs)).slot_ne
    (hwf.valid _ (mem_boots_of_alive hrun halive))).symm

lemma count_own_le (halive : c.Alive r node) (key : String) (epoch : ℕ) :
    node.store.count key r.nodeId epoch ≤ admittedIn r key epoch events := by
  induction hrun generalizing r node with
  | start => cases halive.1
  | @next events s s' e hrun hst ih =>
    rw [admittedIn_append]
    cases cellStep hst halive key r.nodeId epoch with
    | booted h | pruned _ _ h => exact h ▸ Nat.zero_le _
    | kept halive h => exact h ▸ (ih hwf.of_append halive).trans (Nat.le_add_right _ _)
    | admitted halive _ h ho =>
      rw [h, ho]
      exact (wrap64_le _).trans (Nat.add_le_add_right (ih hwf.of_append halive) 1)
    | merged halive hs _ hsl =>
      exact absurd hsl (slot_ne_of_sent hrun hwf.of_append halive hs)

lemma sent_le (hs : msg ∈ c.sent) {entry : KeyEntry} (he : entry ∈ msg.entries) {v : ℕ}
    (hv : (epoch, v) ∈ entry.buckets) : v ≤ admittedIn msg.boot entry.key epoch events := by
  induction hrun with
  | start => cases hs
  | next hrun hst ih =>
    rw [admittedIn_append]
    refine le_trans ?_ (Nat.le_add_right _ _)
    obtain hs | ⟨now, node, -, halive, hm⟩ := hst.2.1.mem_sent hs
    · exact ih hwf.of_append hs
    · subst hm
      have hce := ((node.cell_of_mem_snapshotMessage he epoch v).mp hv).2
      have hc := count_own_le hrun hwf.of_append halive entry.key epoch
      exact (CounterStore.count_eq_of_cell hce).ge.trans hc

/-- **Nothing is over-counted.**  What a node stores under the slot of a boot is at most what
the boot admitted. -/
lemma count_slot_le (halive : c.Alive r node) (hb : b.Valid) (key : String) (epoch : ℕ) :
    node.store.count key b.slot epoch ≤ admittedIn b key epoch events := by
  induction hrun generalizing r node with
  | start => cases halive.1
  | @next events s s' e hrun hst ih =>
    have hr := hwf.valid r (mem_boots_of_alive (hrun.next hst) halive)
    rw [admittedIn_append]
    refine le_trans ?_ (Nat.le_add_right _ _)
    cases cellStep hst halive key b.slot epoch with
    | booted h | pruned _ _ h => exact h ▸ Nat.zero_le _
    | kept halive h => exact h ▸ ih hwf.of_append halive
    | admitted _ hs => exact absurd hs (hb.slot_ne hr)
    | merged halive hse _ hs h =>
      refine (h _).mpr ⟨ih hwf.of_append halive, ?_⟩
      rintro entry he rfl v hv -
      obtain rfl := hb.slot_inj (hwf.of_append.valid _ (mem_boots_of_sent hrun hse)) hs
      exact sent_le hrun hwf.of_append hse he hv

/-! ## Counts converge -/

section

variable (hwin : SameWindow windowSecs events) (ht : ∀ u ∈ readings events, u ≤ t)
  (hep : cutoffSecs t (max windowSecs 1) ≤ epoch)
include hwin ht hep

omit hwf ht in
/-- A prune of the run drops nothing that the window of `t` sees. -/
lemma cutoffSecs_le_of_prune {now : UnixSecs} {node : ClusterNode} (halive : c.Alive r node)
    (hn : now.secs ≤ t) : cutoffSecs now.secs node.store.windowSecs ≤ epoch := by
  rw [windowSecs_of_alive hrun hwin halive]
  exact (cutoffSecs_mono hn _).trans hep

/-- **A boot's own cells are what it admitted**, in every second that the window of a time `t`,
not before any reading of the run, still sees. -/
lemma count_own (halive : c.Alive r node) (key : String) :
    node.store.count key r.nodeId epoch = wrap64 (admittedIn r key epoch events) := by
  induction hrun generalizing r node with
  | start => cases halive.1
  | @next events s s' e hrun hst ih =>
    rw [readings_append] at ht
    have ho : ∀ u ∈ readings events, u ≤ t := fun u hu => ht u (mem_append_left _ hu)
    have ih := fun {r node} => @ih r node hwf.of_append hwin.of_append ho
    rw [admittedIn_append]
    cases cellStep hst halive key r.nodeId epoch with
    | booted h =>
      have hz : admittedIn r key epoch events = 0 := by
        by_contra hne
        obtain ⟨e, he, hb, -⟩ := exists_event_of_admittedIn hne
        exact actor_ne_of_boot hrun hwf he hb
      rw [h, hz]
      rfl
    | kept halive h hn => rw [h, hn rfl, add_zero, ih halive]
    | admitted halive _ h hon =>
      rw [h, hon, ih halive]
      exact Nat.mod_add_mod _ _ _
    | pruned halive hou =>
      exact absurd (cutoffSecs_le_of_prune hrun hwin.of_append hep halive
        (ht _ (mem_append_right _ (mem_singleton_self _)))) hou
    | merged halive hs _ hsl =>
      exact absurd hsl (slot_ne_of_sent hrun hwf.of_append halive hs)

/-- **A merged message stays merged** while its seconds are in the window. -/
lemma le_count_of_deliver (halive : c.Alive r node) {now : UnixSecs}
    (hd : .deliver r msg now ∈ events) (hid : msg.nodeId ≠ r.nodeId) {entry : KeyEntry}
    (he : entry ∈ msg.entries) {v : ℕ} (hv : (epoch, v) ∈ entry.buckets)
    (hno : epoch ≤ now.secs) : v ≤ node.store.count entry.key msg.boot.slot epoch := by
  induction hrun generalizing node with
  | start => cases hd
  | @next events s s' e hrun hs ih =>
    have hb := hwf.valid _ (boot_mem_boots_of_deliver (hrun.next hs) hd)
    have hr := hwf.valid r (mem_boots_of_alive (hrun.next hs) halive)
    rw [readings_append] at ht
    have ih := fun {node} => @ih node hwf.of_append hwin.of_append
      fun u hu => ht u (mem_append_left _ hu)
    have hc := cellStep hs halive entry.key msg.boot.slot epoch
    rcases mem_append.mp hd with ho | hn
    · cases hc with
      | booted => exact (actor_ne_of_boot hrun hwf ho rfl).elim
      | kept halive h => exact h ▸ ih halive ho
      | admitted _ hsl => exact absurd hsl (hb.slot_ne hr)
      | pruned halive hou =>
        exact absurd (cutoffSecs_le_of_prune hrun hwin.of_append hep halive
          (ht _ (mem_append_right _ (mem_singleton_self _)))) hou
      | merged halive _ _ _ h => exact (ih halive ho).trans ((h _).mp le_rfl).1
    · obtain rfl := mem_singleton.mp hn
      cases hs.2.1.origin halive with
      | untouched hal hne => exact absurd rfl hne
      | merged node _ _ hal hse h =>
        subst h
        exact ((node.count_mergeMessage_le_iff (hal.nodeId_eq ▸ hid)
          (hs.2.2.size_lt halive) _ _ _ _).mp le_rfl).2 rfl entry he rfl v hv
          (hno.trans now.le_maxEpochSecs)

lemma Synced.count_slot (hclock : (readings events).Pairwise (· ≤ ·)) (halive : c.Alive r node)
    (hb : b.nodeId ≠ r.nodeId)
    (hs : Synced b r key (cutoffSecs t (max windowSecs 1)) events)
    (hlt : admittedIn b key epoch events < 2 ^ 64) :
    admittedIn b key epoch events ≤ node.store.count key b.slot epoch := by
  obtain ⟨before, after, now, msg, rfl, ⟨entry, hen, rfl⟩, ⟨now', hd⟩, ha⟩ := hs
  have hbe : admittedIn b entry.key epoch (before ++ .snapshot b now msg :: after) =
      admittedIn b entry.key epoch before := by
    rw [append_cons, admittedIn_append, admittedIn_append, ha epoch hep]
    rfl
  rw [hbe] at hlt ⊢
  rcases Nat.eq_zero_or_pos (admittedIn b entry.key epoch before) with hz | hp
  · rw [hz]
    exact Nat.zero_le _
  obtain ⟨c₁, _, hr₁, hst, -⟩ := hrun.split
  obtain ⟨node₁, ha₁, rfl, -⟩ := hst.2.1
  have hr : readings (before ++ .snapshot b now (node₁.snapshotMessage now.secs).1 :: after) =
      readings before ++ now.secs :: readings after := readings_append _ _
  rw [hr] at hclock
  -- the snapshot carries the true count ...
  have ho := count_own hr₁ hwf.of_append hwin.of_append
    (fun u hu => ht u (hr ▸ mem_append_left _ hu)) hep ha₁ entry.key
  rw [wrap64_of_lt hlt, ← ha₁.nodeId_eq] at ho
  have hc := CounterStore.cell_eq_of_count_pos (ho ▸ hp)
  rw [ho] at hc
  have hn : now.secs ≤ t := ht _ (hr ▸ mem_append_right _ (mem_cons_self ..))
  have hcu : cutoffSecs now.secs node₁.store.windowSecs ≤ epoch :=
    cutoffSecs_le_of_prune hr₁ hwin.of_append hep ha₁ hn
  have hv := (node₁.cell_of_mem_snapshotMessage hen epoch _).mpr ⟨hcu, hc⟩
  -- ... and was merged after the second it is for
  obtain ⟨e, he, -, hre⟩ := exists_event_of_admittedIn hp.ne'
  have hle : epoch ≤ now'.secs := (pairwise_append.mp hclock).2.2 _
    (mem_readings_of_now he hre) _ (mem_cons_of_mem _ (mem_readings_of_now hd rfl))
  have hbo : (node₁.snapshotMessage now.secs).1.boot = b := ha₁.2
  have hid : (node₁.snapshotMessage now.secs).1.nodeId ≠ r.nodeId :=
    (congrArg Boot.nodeId hbo).trans_ne hb
  rw [← hbo]
  exact le_count_of_deliver hrun hwf hwin ht hep halive
    (mem_append_right _ (mem_cons_of_mem _ hd)) hid hen (hbo ▸ hv) hle

end

variable {now : ℕ} (hclock : OneClock windowSecs now events) (halive : c.Alive r node)
  (hlt : trueTotal r key windowSecs now events < 2 ^ 64)
  (hep : epoch ∈ Finset.Icc (cutoffSecs now (max windowSecs 1)) now)
include hclock halive hlt hep

lemma count_own_eq : node.store.count key r.nodeId epoch = admittedIn r key epoch events := by
  rw [count_own hrun hwf hclock.same_window hclock.le_now (Finset.mem_Icc.mp hep).1 halive key]
  have hle := admittedIn_le_admittedInWindow r key hep events
  exact wrap64_of_lt ((hle.trans (Nat.le_add_right _ _)).trans_lt hlt)

lemma count_slot_eq (hb : b ∈ boots events) (hne : b.nodeId ≠ r.nodeId)
    (hs : admittedInWindow b key windowSecs now events ≠ 0 →
      Synced b r key (cutoffSecs now (max windowSecs 1)) events) :
    node.store.count key b.slot epoch = admittedIn b key epoch events := by
  refine le_antisymm (count_slot_le hrun hwf halive (hwf.valid b hb) key epoch) ?_
  have hle := admittedIn_le_admittedInWindow b key hep events
  have hto := admittedInWindow_le_trueTotal key windowSecs now hb hne
  rcases Nat.eq_zero_or_pos (admittedIn b key epoch events) with hz | hp
  · rw [hz]
    exact Nat.zero_le _
  · exact Synced.count_slot hrun hwf hclock.same_window hclock.le_now (Finset.mem_Icc.mp hep).1
      hclock.ordered halive hne (hs (by omega)) (by omega)

end

/-- **Cluster counters never over-count and converge**, with NUL-free ids, a nonzero incarnation
for each boot, and all stores below the key cap:

* a node stores for a boot, key and second at most what the boot admitted;
* when all nodes have one window and read one clock that does not go back, and for each boot of the
  other nodes a snapshot taken after its last in-window admission has been merged by the current
  boot `r` of a node, the total of `r` is the number of requests that `r` and these boots admitted
  in the window — as far as that number is a `u64`. -/
theorem counters_converge {events : List NetEvent} {c : Network}
    (hrun : Run (Guarded Network.BelowCap NetEvent.Step) .empty events c)
    (hwf : WellFormed events) :
    (∀ r node, c.Alive r node → ∀ b ∈ boots events, ∀ key epoch,
      node.store.count key b.slot epoch ≤ admittedIn b key epoch events) ∧
    (∀ windowSecs now, OneClock windowSecs now events → ∀ r node, c.Alive r node → ∀ key,
      (∀ b ∈ boots events, b.nodeId ≠ r.nodeId → admittedInWindow b key windowSecs now events ≠ 0 →
        Synced b r key (cutoffSecs now (max windowSecs 1)) events) →
      trueTotal r key windowSecs now events < 2 ^ 64 →
      node.store.totalInWindow key now = trueTotal r key windowSecs now events) := by
  refine ⟨fun r node halive b hb => count_slot_le hrun hwf halive (hwf.valid b hb), ?_⟩
  intro windowSecs now hclock r node halive key hs hlt
  let others := (boots events).filter (·.nodeId ≠ r.nodeId)
  have ho : ∀ b ∈ others.toFinset, b ∈ boots events ∧ b.nodeId ≠ r.nodeId := by
    intro b hb
    simpa [others] using hb
  have hv := fun b hb => hwf.valid b (ho b hb).1
  have hr := hwf.valid r (mem_boots_of_alive hrun halive)
  have hsl : ∀ slot epoch, 0 < (node.store.counts key).count slot epoch →
      slot = r.nodeId ∨ ∃ b ∈ others.toFinset, slot = b.slot := by
    intro slot epoch hp
    rcases slot_cases hrun halive hp with h | ⟨b, hb, hne, h⟩
    · exact Or.inl h
    · exact Or.inr ⟨b, by simp [others, hb, hne], h⟩
  have hsu : ((node.store.counts key).countsInWindow now (max windowSecs 1)).sum
      = trueTotal r key windowSecs now events := by
    rw [sum_countsInWindow_of_slots _ r.nodeId others.toFinset now (max windowSecs 1)
      (fun b hb b' hb' => (hv b hb).slot_inj (hv b' hb'))
      (fun b hb => (hv b hb).slot_ne hr) hsl, trueTotal, admittedInWindow_eq,
      ← sum_toFinset _ (hwf.nodup.filter _)]
    congr 1
    · exact Finset.sum_congr rfl fun epoch he => count_own_eq hrun hwf hclock halive hlt he
    · refine Finset.sum_congr rfl fun b hb => ?_
      obtain ⟨hb, hne⟩ := ho b hb
      rw [admittedInWindow_eq]
      exact Finset.sum_congr rfl fun epoch he =>
        count_slot_eq hrun hwf hclock halive hlt he hb hne (hs b hb hne)
  rw [CounterStore.totalInWindow_eq, windowSecs_of_alive hrun hclock.same_window halive,
    KeyCounts.totalInWindow, hsu, wrap64_of_lt hlt]

/-- Two nodes: `b` admits a request, and `a` has merged the snapshot `b` took after it. -/
theorem counters_converge_two_nodes :
    let a : Boot := ⟨"a", 1⟩
    let b : Boot := ⟨"b", 2⟩
    let l : ListenerCoordinator := ⟨"web", 10⟩
    let t : UnixSecs := ⟨100, by norm_num⟩
    let node := (l.tryAdmit ((ClusterNode.new "b" 10 none []).withIncarnation 2) "k" 100).2
    let msg := (node.snapshotMessage 100).1
    let events : List NetEvent := [.boot a 10 [], .boot b 10 [], .tryAdmit b l "k" t true,
      .snapshot b t msg, .deliver a msg t]
    ∃ c node, Run (Guarded Network.BelowCap NetEvent.Step) .empty events c ∧ c.Alive a node ∧
      node.store.totalInWindow "web\x01k" 100 = 1 := by
  intro a b l t node msg events
  let c₁ := Network.empty.setNode ((ClusterNode.new "a" 10 none []).withIncarnation 1)
  let c₂ := c₁.setNode ((ClusterNode.new "b" 10 none []).withIncarnation 2)
  let c₃ := c₂.setNode node
  let c₄ : Network := { c₃.setNode (node.snapshotMessage 100).2 with sent := [msg] }
  let node' := (((ClusterNode.new "a" 10 none []).withIncarnation 1).mergeMessage msg 100).2
  let c₅ := c₄.setNode node'
  have h₁ : Guarded Network.BelowCap NetEvent.Step .empty (.boot a 10 []) c₁ :=
    ⟨by decide, rfl, by decide⟩
  have h₂ : Guarded Network.BelowCap NetEvent.Step c₁ (.boot b 10 []) c₂ :=
    ⟨by decide, rfl, by decide⟩
  have h₃ : Guarded Network.BelowCap NetEvent.Step c₂ (.tryAdmit b l "k" t true) c₃ :=
    ⟨by decide, ⟨_, ⟨rfl, rfl⟩, by decide, rfl⟩, by decide⟩
  have h₄ : Guarded Network.BelowCap NetEvent.Step c₃ (.snapshot b t msg) c₄ :=
    ⟨by decide, ⟨node, ⟨rfl, rfl⟩, rfl, rfl⟩, by decide⟩
  have h₅ : Guarded Network.BelowCap NetEvent.Step c₄ (.deliver a msg t) c₅ :=
    ⟨by decide, ⟨_, ⟨rfl, rfl⟩, mem_singleton_self _, rfl⟩, by decide⟩
  have hrun : Run (Guarded Network.BelowCap NetEvent.Step) .empty events c₅ :=
    ((((Run.start.next h₁).next h₂).next h₃).next h₄).next h₅
  have hwf : WellFormed events := ⟨by decide, by decide⟩
  have hclock : OneClock 10 100 events := by
    refine ⟨?_, by decide, by decide⟩
    intro e he b' w secret h
    subst h
    simp [events] at he
    omega
  have halive : c₅.Alive a node' := ⟨rfl, rfl⟩
  have hs : ∀ b' ∈ boots events, b'.nodeId ≠ a.nodeId →
      admittedInWindow b' "web\x01k" 10 100 events ≠ 0 →
      Synced b' a "web\x01k" (cutoffSecs 100 (max 10 1)) events := by
    intro b' hb' hne _
    obtain rfl : b' = b := by
      have : b' ∈ [a, b] := hb'
      simp only [mem_cons, not_mem_nil, or_false] at this
      rcases this with rfl | rfl
      · exact absurd rfl hne
      · rfl
    exact ⟨[.boot a 10 [], .boot b 10 [], .tryAdmit b l "k" t true], [.deliver a msg t], t, msg,
      rfl, ⟨⟨"web\x01k", [(100, 1)]⟩, by decide, rfl⟩, ⟨t, mem_singleton_self _⟩,
      fun _ _ => rfl⟩
  refine ⟨c₅, node', hrun, halive, ?_⟩
  exact ((counters_converge hrun hwf).2 10 100 hclock a node' halive "web\x01k" hs
    (by decide)).trans (by decide)

end LoadBalancer.Cluster
