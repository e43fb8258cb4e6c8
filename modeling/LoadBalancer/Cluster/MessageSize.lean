import LoadBalancer.Cluster.Coordinator
import LoadBalancer.Cluster.StoreRun
import LoadBalancer.Core.Config

/-!
# How long a gossip message gets

A peer refuses a frame of more than `maxMessageBytes`.  The sender bounds its snapshots by an
estimate of their JSON text, `estimatedSnapshotBytes`, and always takes the first key whatever its
size.

The estimate is good: an entry has at most two bytes more than estimated.  The first key is the
gap.  Its text grows with the number of its in-window buckets, up to one for each second of the
window, and with the length of its name, and neither is bounded by the configuration.
-/

namespace LoadBalancer.Cluster

open String (utf8Len)
open List hiding Vector

/-! ## The exact size of a message -/

/-- The payload is the text `serde_json` prints. -/
def WireCrates.PrintsJson (W : WireCrates) : Prop :=
  ∀ msg, W.toVec msg = .ok (Json.toUtf8 msg.toJson)

/-- The frame of the message, without the four bytes of the length, is within the limit. -/
def Receivable (W : WireCrates) (secret : Bytes) (msg : SyncMessage) : Prop :=
  ∃ frame, encode W msg secret = .ok frame ∧ frame.length - 4 ≤ maxMessageBytes

section

variable {W : WireCrates} (hW : W.PrintsJson) (secret : Bytes) (msg : SyncMessage)

include hW

lemma encode_eq_ok : encode W msg secret = .ok
    (BigEndian.toBytes 4 ((hmacTagLen + utf8Len msg.toJson) % 2 ^ 32) ++
      (W.tagFor secret (Json.toUtf8 msg.toJson)).toList ++ Json.toUtf8 msg.toJson) := by
  rw [encode, Except.bind_eq_ok_iff, ← Json.length_toUtf8]
  exact ⟨_, hW msg, rfl⟩

lemma receivable_iff :
    Receivable W secret msg ↔ hmacTagLen + utf8Len msg.toJson ≤ maxMessageBytes := by
  unfold Receivable
  rw [encode_eq_ok hW]
  constructor
  · rintro ⟨frame, hf, hle⟩
    cases hf
    simp only [length_append, BigEndian.length_toBytes, Vector.length_toList,
      Json.length_toUtf8] at hle
    omega
  · intro h
    refine ⟨_, rfl, ?_⟩
    simp only [length_append, BigEndian.length_toBytes, Vector.length_toList,
      Json.length_toUtf8]
    omega

lemma readMessage_of_not_receivable (h : ¬ Receivable W secret msg)
    (hlt : hmacTagLen + utf8Len msg.toJson < 2 ^ 32) {frame : Bytes}
    (hf : encode W msg secret = .ok frame) {reader : ChunkStream UInt8}
    (hr : reader.content = frame) :
    readMessage W reader secret = .error ⟨.invalidData, "peer announced " ++
      toString (hmacTagLen + utf8Len msg.toJson) ++ " byte message, over the " ++
      toString maxMessageBytes ++ " limit"⟩ := by
  rw [receivable_iff hW, not_le] at h
  rw [encode_eq_ok hW, Nat.mod_eq_of_lt hlt] at hf
  cases hf
  rw [append_assoc] at hr
  obtain ⟨reader', hre, -⟩ := exists_readExact_eq_ok hr
  rw [← BigEndian.ofBytes_toBytes (show _ < 256 ^ 4 from hlt)] at h ⊢
  exact readMessage_of_announced W hre h

end

lemma utf8Len_bucket (b : ℕ × ℕ) : utf8Len (Json.arr [Json.nat b.1, Json.nat b.2])
    = utf8Len (Json.nat b.1) + utf8Len (Json.nat b.2) + 3 := by
  rw [Json.utf8Len_arr]
  simp only [map_cons, map_nil, sum_cons, sum_nil, length_cons,
    length_nil]
  omega

lemma KeyEntry.utf8Len_toJson (entry : KeyEntry) :
    utf8Len entry.toJson = utf8Len (Json.str entry.key) + 21 + (entry.buckets.length - 1) +
      (entry.buckets.map fun b =>
        utf8Len (Json.nat b.1) + utf8Len (Json.nat b.2) + 3).sum := by
  have hk : utf8Len (Json.str "key") = 5 := by decide
  have hb : utf8Len (Json.str "buckets") = 9 := by decide
  have ha : utf8Len (Json.arr (entry.buckets.map fun b => Json.arr [Json.nat b.1, Json.nat b.2]))
      = (entry.buckets.map fun b => utf8Len (Json.nat b.1) + utf8Len (Json.nat b.2) + 3).sum +
        (entry.buckets.length - 1) + 2 := by
    rw [Json.utf8Len_arr, map_map, length_map]
    simp only [Function.comp_def, utf8Len_bucket]
  rw [toJson, Json.utf8Len_obj]
  simp only [map_cons, map_nil, sum_cons, sum_nil, length_cons,
    length_nil]
  omega

lemma SyncMessage.utf8Len_toJson (msg : SyncMessage) :
    utf8Len msg.toJson = utf8Len (Json.str msg.nodeId) + utf8Len (Json.nat msg.incarnation) + 40 +
      (msg.entries.length - 1) + (msg.entries.map fun entry => utf8Len entry.toJson).sum := by
  have hid : utf8Len (Json.str "node_id") = 9 := by decide
  have hinc : utf8Len (Json.str "incarnation") = 13 := by decide
  have he : utf8Len (Json.str "entries") = 9 := by decide
  rw [toJson, Json.utf8Len_obj]
  simp only [map_cons, map_nil, sum_cons, sum_nil, length_cons,
    length_nil, Json.utf8Len_arr, map_map, length_map,
    Function.comp_def]
  omega

lemma SyncMessage.utf8Len_toJson_singleton (nodeId : String) (incarnation : ℕ)
    (entry : KeyEntry) : utf8Len (toJson ⟨nodeId, incarnation, [entry]⟩)
      = utf8Len (Json.str nodeId) + utf8Len (Json.nat incarnation) + 40 + utf8Len entry.toJson := by
  rw [utf8Len_toJson]
  simp

lemma SyncMessage.utf8Len_toJson_of_mem {msg : SyncMessage} {entry : KeyEntry}
    (h : entry ∈ msg.entries) :
    utf8Len (Json.str msg.nodeId) + utf8Len (Json.nat msg.incarnation) + 40 +
      utf8Len entry.toJson ≤ utf8Len msg.toJson := by
  have hle := single_le_sum (fun _ _ => Nat.zero_le _) _
    (mem_map_of_mem (f := fun entry : KeyEntry => utf8Len entry.toJson) h)
  rw [utf8Len_toJson]
  omega

def KeyEntry.InRange (entry : KeyEntry) : Prop :=
  ∀ b ∈ entry.buckets, b.1 < 2 ^ 64 ∧ b.2 < 2 ^ 64

lemma KeyEntry.utf8Len_toJson_le {entry : KeyEntry} (hr : entry.InRange)
    (hne : entry.buckets ≠ []) :
    utf8Len entry.toJson ≤ estimatedSnapshotBytes entry.key entry.buckets.length + 2 := by
  have hsu : (entry.buckets.map fun b =>
      utf8Len (Json.nat b.1) + utf8Len (Json.nat b.2) + 3).sum ≤ entry.buckets.length * 43 := by
    refine (sum_le_card_nsmul _ 43 ?_).trans ?_
    · intro n hn
      obtain ⟨b, hb, rfl⟩ := mem_map.mp hn
      have h₁ := Json.utf8Len_nat_le_of_lt (hr b hb).1
      have h₂ := Json.utf8Len_nat_le_of_lt (hr b hb).2
      omega
    · rw [length_map, smul_eq_mul]
  have hp := length_pos_iff.mpr hne
  have hk := (Json.utf8Len_str entry.key).2
  rw [utf8Len_toJson, estimatedSnapshotBytes]
  omega

lemma KeyEntry.le_utf8Len_toJson (entry : KeyEntry) :
    entry.buckets.length * 5 ≤ utf8Len entry.toJson := by
  have hsu : entry.buckets.length * 5 ≤ (entry.buckets.map fun b =>
      utf8Len (Json.nat b.1) + utf8Len (Json.nat b.2) + 3).sum := by
    refine le_trans ?_ (card_nsmul_le_sum _ 5 ?_)
    · rw [length_map, smul_eq_mul]
    · intro n hn
      obtain ⟨b, hb, rfl⟩ := mem_map.mp hn
      have h₁ := Json.utf8Len_nat_pos b.1
      have h₂ := Json.utf8Len_nat_pos b.2
      omega
  rw [utf8Len_toJson]
  omega

/-! ## Snapshots of more than one key -/

namespace SnapshotAcc

/-- What the running totals say about the entries pushed so far: as soon as there are two, the
caps hold. -/
structure Capped (maxEntries maxBytes : ℕ) (acc : SnapshotAcc) : Prop where
  length_le : acc.out.length ≤ acc.totalEntries
  totalBytes_eq : acc.totalBytes
    = (acc.out.map fun item => estimatedSnapshotBytes item.1 item.2.length).sum
  capped : acc.out.length ≤ 1 ∨ acc.totalEntries ≤ maxEntries ∧ acc.totalBytes ≤ maxBytes

lemma Capped.push {maxEntries maxBytes : ℕ} {acc : SnapshotAcc}
    (h : acc.Capped maxEntries maxBytes) (key : String) {inWindow : List (ℕ × ℕ)}
    (hne : inWindow ≠ []) (ho : acc.overBudget maxEntries maxBytes inWindow.length
      (estimatedSnapshotBytes key inWindow.length) = false) :
    (acc.push key inWindow).Capped maxEntries maxBytes := by
  have hp := length_pos_iff.mpr hne
  have hl := h.length_le
  refine ⟨?_, ?_, ?_⟩
  · simp only [SnapshotAcc.push, length_append, length_singleton]
    omega
  · rw [SnapshotAcc.push, map_append, sum_append, ← h.totalBytes_eq]
    simp
  · rw [overBudget, Bool.and_eq_false_iff, Bool.or_eq_false_iff, decide_eq_false_iff_not,
      decide_eq_false_iff_not, decide_eq_false_iff_not] at ho
    rcases ho with hf | ⟨he, hb⟩
    · -- nothing was pushed before, so this is the only entry
      left
      simp only [SnapshotAcc.push, length_append, length_singleton]
      omega
    · right
      simp only [SnapshotAcc.push]
      omega

end SnapshotAcc

lemma CounterStore.snapshotOwnCapped_capped (s : CounterStore) (nodeId : String)
    (now maxEntries maxBytes : ℕ) :
    let out := (s.snapshotOwnCapped nodeId now maxEntries maxBytes).1
    out.length ≤ 1 ∨ out.length ≤ maxEntries ∧
      (out.map fun item => estimatedSnapshotBytes item.1 item.2.length).sum ≤ maxBytes := by
  obtain ⟨acc, ha, hou⟩ := s.snapshotOwnCapped_induction nodeId now maxEntries maxBytes
    (I := SnapshotAcc.Capped maxEntries maxBytes) ⟨le_rfl, rfl, Or.inl (Nat.zero_le 1)⟩
    (fun acc key inWindow h hr ho => h.push key (s.ownInWindow_ne_nil nodeId hr) ho)
  dsimp only
  rw [← hou, ← ha.totalBytes_eq]
  exact ha.capped.imp_right fun h => ⟨ha.length_le.trans h.1, h.2⟩

/-! ## What a snapshot contains and what it leaves -/

namespace CounterStore

variable (s : CounterStore) (nodeId : String) (now maxEntries maxBytes : ℕ)

def HasOwnInWindow (key : String) : Prop :=
  ∃ epoch v, cutoffSecs now s.windowSecs ≤ epoch ∧ s.cell key nodeId epoch = some v

/-- The snapshot `out`, which leaves the store `s'`, has each key once and with its own in-window
cells; it keeps to both caps or has a single key; it has a key if there is one to send; and the
changed keys it leaves out are still marked. -/
structure SnapshotExact (out : List (String × List (ℕ × ℕ))) (s' : CounterStore) : Prop where
  keys_nodup : (out.map Prod.fst).Nodup
  entries : ∀ item ∈ out, (item.2.map Prod.fst).Nodup ∧ ∀ epoch v, (epoch, v) ∈ item.2 ↔
    cutoffSecs now s.windowSecs ≤ epoch ∧ s.cell item.1 nodeId epoch = some v
  capped : out.length = 1 ∨ (out.map fun item => item.2.length).sum ≤ maxEntries ∧
    (out.map fun item => estimatedSnapshotBytes item.1 item.2.length).sum ≤ maxBytes
  ne_nil : (∃ key, s.HasOwnInWindow nodeId now key) → out ≠ []
  queued : ∀ key ∈ s.changed, s.HasOwnInWindow nodeId now key → key ∉ out.map Prod.fst →
    key ∈ s'.changed

lemma snapshotOwnCapped_totals :
    let out := (s.snapshotOwnCapped nodeId now maxEntries maxBytes).1
    out.length = 1 ∨ (out.map fun item => item.2.length).sum ≤ maxEntries ∧
      (out.map fun item => estimatedSnapshotBytes item.1 item.2.length).sum ≤ maxBytes := by
  obtain ⟨acc, ⟨ha, he⟩, hou⟩ := s.snapshotOwnCapped_induction nodeId now maxEntries
    maxBytes (I := fun acc => acc.Capped maxEntries maxBytes ∧
      acc.totalEntries = (acc.out.map fun item => item.2.length).sum)
    ⟨⟨le_rfl, rfl, Or.inl (Nat.zero_le 1)⟩, rfl⟩
    (fun acc key inWindow h hr ho =>
      ⟨h.1.push key (s.ownInWindow_ne_nil nodeId hr) ho, by simp [SnapshotAcc.push, h.2]⟩)
  dsimp only
  rw [← hou, ← ha.totalBytes_eq, ← he]
  rcases ha.capped with hon | hc
  · rcases Nat.le_one_iff_eq_zero_or_eq_one.mp hon with hz | hon
    · -- nothing is sent
      have hn := length_eq_zero_iff.mp hz
      rw [ha.totalBytes_eq, he, hn]
      exact Or.inr ⟨Nat.zero_le _, Nat.zero_le _⟩
    · exact Or.inl hon
  · exact Or.inr hc

/-- **Snapshots keep to their caps and repeat no key**, for every store. -/
theorem snapshot_exact :
    s.SnapshotExact nodeId now maxEntries maxBytes
      (s.snapshotOwnCapped nodeId now maxEntries maxBytes).1
      (s.snapshotOwnCapped nodeId now maxEntries maxBytes).2 where
  keys_nodup := s.keys_nodup_snapshotOwnCapped nodeId now maxEntries maxBytes
  entries := fun _ hitem =>
    have hown := s.ownInWindow_of_mem_snapshot nodeId hitem
    ⟨s.ownInWindow_nodup nodeId hown, s.mem_of_ownInWindow_eq_some nodeId hown⟩
  capped := s.snapshotOwnCapped_totals nodeId now maxEntries maxBytes
  ne_nil := by
    rintro ⟨key, epoch, v, hle, hc⟩ hni
    obtain ⟨inWindow, hown⟩ := s.exists_ownInWindow_of_cell nodeId hc hle
    have hf := s.head?_snapshotOwnCapped nodeId now maxEntries maxBytes
    rw [hni, List.head?_nil, eq_comm, firstOwn, List.findSome?_eq_none_iff] at hf
    have hm := s.mem_ownKeys_of_ownInWindow nodeId hown
    have hn := hf key (mem_append_right _ (mem_rotate.mpr hm))
    rw [ownEntry, hown] at hn
    cases hn
  queued := by
    rintro key hk ⟨epoch, v, hle, hc⟩ hl
    obtain ⟨inWindow, hown⟩ := s.exists_ownInWindow_of_cell nodeId hc hle
    obtain ⟨hch, hse⟩ := s.snapshotOwnCapped_queue nodeId hown maxEntries maxBytes
    rw [hch]
    refine (s.mem_changed_or_mem_out nodeId _ maxEntries maxBytes hown _ _ _ hk).resolve_right ?_
    exact fun ho => hl (mem_map_of_mem (hse _ ho))

end CounterStore

/-! ## The numbers in a node's own cells -/

/-- The cells of this node's slot are `u64`s at `u64` seconds. -/
def CounterStore.OwnInRange (nodeId : String) (s : CounterStore) : Prop :=
  ∀ key epoch v, s.cell key nodeId epoch = some v → epoch < 2 ^ 64 ∧ v < 2 ^ 64

/-- A call a node makes on its store at a `u64` time. -/
def StoreEvent.IsLocal (nodeId : String) (e : StoreEvent) : Prop :=
  e.now < 2 ^ 64 ∧ e.IsOwn nodeId

section

variable {nodeId : String} {s s' : CounterStore} {e : StoreEvent}

lemma StoreEvent.Step.ownInRange (h : e.Step s s') (hl : e.IsLocal nodeId)
    (hs : s.OwnInRange nodeId) : s'.OwnInRange nodeId := by
  intro key epoch v hc
  cases e with
  | tryAdmit k n now limit admitted =>
    obtain ⟨hn, rfl⟩ := hl
    obtain ⟨-, rfl⟩ := step_tryAdmit_iff.mp h
    rw [s.cell_tryAdmit] at hc
    split_ifs at hc with hb
    · obtain ⟨-, -, -, rfl⟩ := hb
      exact ⟨hn, Option.some.inj hc ▸ wrap64_lt _⟩
    · exact hs key epoch v hc
  | merge k n buckets now =>
    obtain rfl : s.merge k n buckets now = s' := h
    rw [s.cell_merge_of_ne hl.2.symm] at hc
    exact hs key epoch v hc
  | prune now =>
    obtain rfl : s.prune now = s' := h
    rw [s.cell_prune] at hc
    split_ifs at hc
    · exact hs key epoch v hc
  | snapshot n now maxEntries maxBytes out =>
    rw [CounterStore.cell, h.counts_snapshot] at hc
    exact hs key epoch v hc

lemma ownInRange_of_run {windowSecs : ℕ} {events : List StoreEvent}
    (hr : Run StoreEvent.Step (.new windowSecs) events s)
    (he : ∀ e ∈ events, e.IsLocal nodeId) : s.OwnInRange nodeId := by
  induction hr with
  | start =>
    intro key epoch v hc
    cases hc
  | next _ h ih =>
    rw [forall_mem_append, forall_mem_singleton] at he
    exact h.ownInRange he.2 (ih he.1)

end

/-! ## Which messages are within the limit -/

namespace ClusterNode

variable (node : ClusterNode) (now : ℕ)

lemma nodeId_snapshotMessage : (node.snapshotMessage now).1.nodeId = node.nodeId := rfl

lemma incarnation_snapshotMessage :
    (node.snapshotMessage now).1.incarnation = node.incarnation := rfl

lemma entries_snapshotMessage : (node.snapshotMessage now).1.entries
    = (node.store.snapshotOwn node.nodeId now).1.map fun item => ⟨item.1, item.2⟩ := rfl

variable (hs : node.store.OwnInRange node.nodeId)

include hs

lemma inRange_of_mem_entries {entry : KeyEntry} (h : entry ∈ (node.snapshotMessage now).1.entries) :
    entry.InRange ∧ entry.buckets ≠ [] := by
  rw [entries_snapshotMessage, mem_map] at h
  obtain ⟨⟨key, buckets⟩, hm, rfl⟩ := h
  have hr := node.store.ownInWindow_of_mem_snapshot node.nodeId hm
  refine ⟨fun b hb => ?_, node.store.ownInWindow_ne_nil _ hr⟩
  exact hs key b.1 b.2 ((node.store.mem_of_ownInWindow_eq_some _ hr b.1 b.2).mp hb).2

lemma sum_utf8Len_entries_le :
    ((node.snapshotMessage now).1.entries.map fun entry => utf8Len entry.toJson).sum ≤
      ((node.store.snapshotOwn node.nodeId now).1.map fun item =>
        estimatedSnapshotBytes item.1 item.2.length).sum +
      2 * (node.store.snapshotOwn node.nodeId now).1.length := by
  have hle : ∀ item ∈ (node.store.snapshotOwn node.nodeId now).1,
      utf8Len (KeyEntry.toJson ⟨item.1, item.2⟩)
        ≤ estimatedSnapshotBytes item.1 item.2.length + 2 := by
    intro item hite
    have hm : (⟨item.1, item.2⟩ : KeyEntry) ∈ (node.snapshotMessage now).1.entries :=
      mem_map_of_mem hite
    obtain ⟨hr, hne⟩ := node.inRange_of_mem_entries now hs hm
    exact KeyEntry.utf8Len_toJson_le hr hne
  calc ((node.snapshotMessage now).1.entries.map fun entry => utf8Len entry.toJson).sum
      = ((node.store.snapshotOwn node.nodeId now).1.map fun item =>
          utf8Len (KeyEntry.toJson ⟨item.1, item.2⟩)).sum := by
        rw [entries_snapshotMessage, map_map]
        rfl
    _ ≤ ((node.store.snapshotOwn node.nodeId now).1.map fun item =>
          estimatedSnapshotBytes item.1 item.2.length + 2).sum := sum_le_sum hle
    _ = _ := by
        rw [sum_map_add, map_const', sum_replicate, smul_eq_mul, mul_comm]

/-- A message of two or more keys is within the limit, unless the node's id alone is most of
it. -/
lemma utf8Len_snapshotMessage_le (hid : utf8Len (Json.str node.nodeId) ≤ 3000000)
    (hinc : node.incarnation < 2 ^ 64) (hl : (node.snapshotMessage now).1.entries.length ≠ 1) :
    hmacTagLen + utf8Len (node.snapshotMessage now).1.toJson ≤ maxMessageBytes := by
  have hsu := node.sum_utf8Len_entries_le now hs
  have hca := node.store.snapshotOwnCapped_capped node.nodeId now maxSnapshotBucketEntries
    maxSnapshotBytes
  have hn := Json.utf8Len_nat_le_of_lt hinc
  have hc : (node.snapshotMessage now).1.entries.length
      = (node.store.snapshotOwn node.nodeId now).1.length := length_map _
  rw [SyncMessage.utf8Len_toJson, nodeId_snapshotMessage, incarnation_snapshotMessage]
  have he : (node.store.snapshotOwn node.nodeId now).1.length = 0 →
      ((node.store.snapshotOwn node.nodeId now).1.map fun item =>
        estimatedSnapshotBytes item.1 item.2.length).sum = 0 := by
    intro h
    rw [length_eq_zero_iff.mp h]
    rfl
  unfold CounterStore.snapshotOwn at *
  simp only [maxSnapshotBucketEntries, maxSnapshotBytes, maxMessageBytes, hmacTagLen] at *
  omega

lemma utf8Len_snapshotMessage_le_of_mem (hinc : node.incarnation < 2 ^ 64) {entry : KeyEntry}
    (h : entry ∈ (node.snapshotMessage now).1.entries) :
    utf8Len (node.snapshotMessage now).1.toJson ≤ utf8Len (Json.str node.nodeId) + 15060 +
      max maxSnapshotBytes (estimatedSnapshotBytes entry.key entry.buckets.length) := by
  have hsu := node.sum_utf8Len_entries_le now hs
  have hn := Json.utf8Len_nat_le_of_lt hinc
  have hc : (node.snapshotMessage now).1.entries.length
      = (node.store.snapshotOwn node.nodeId now).1.length := length_map _
  rw [SyncMessage.utf8Len_toJson, nodeId_snapshotMessage, incarnation_snapshotMessage]
  rw [entries_snapshotMessage, mem_map] at h
  obtain ⟨item, hite, rfl⟩ := h
  have hca := node.store.snapshotOwnCapped_capped node.nodeId now maxSnapshotBucketEntries
    maxSnapshotBytes
  have hbo : (node.store.snapshotOwn node.nodeId now).1.length ≤ 5000 ∧
      ((node.store.snapshotOwn node.nodeId now).1.map fun item =>
        estimatedSnapshotBytes item.1 item.2.length).sum ≤
      max maxSnapshotBytes (estimatedSnapshotBytes item.1 item.2.length) := by
    rcases hca with ho | ⟨hl, hb⟩
    · obtain ⟨x, hx⟩ := length_eq_one_iff.mp
        (le_antisymm ho (length_pos_of_mem hite))
      have hou : (node.store.snapshotOwn node.nodeId now).1 = [item] := by
        rw [CounterStore.snapshotOwn, hx] at hite ⊢
        rw [mem_singleton.mp hite]
      rw [hou]
      exact ⟨by simp, by simp⟩
    · exact ⟨hl, hb.trans (le_max_left _ _)⟩
  dsimp only
  omega

omit hs

lemma incarnation_new_lt (nodeId : String) (windowSecs : ℕ) (bootNanos : Option ℕ)
    (secret : Bytes) :
    (ClusterNode.new nodeId windowSecs bootNanos secret).incarnation < 2 ^ 64 := by
  cases bootNanos with
  | none => exact (by norm_num : max 1 1 < 2 ^ 64)
  | some nanos => exact max_lt (wrap64_lt nanos) (by norm_num)

/-- **When a snapshot message is received.**  A node sends a message within the limit exactly when
the first key the snapshot comes to has few enough buckets and a short enough name to fit a message
of its own.  (The bound on the id leaves out ids that fill most of a message.) -/
theorem snapshotMessage_receivable_iff (W : WireCrates) (hW : W.PrintsJson) (nodeId : String)
    (hid : utf8Len (Json.str nodeId) ≤ 3000000) (windowSecs : ℕ) (bootNanos : Option ℕ)
    (secret : Bytes) {events : List StoreEvent} {s : CounterStore}
    (hrun : Run StoreEvent.Step (.new windowSecs) events s)
    (hevents : ∀ e ∈ events, e.IsLocal nodeId) (now : ℕ) :
    let node := { ClusterNode.new nodeId windowSecs bootNanos secret with store := s }
    Receivable W secret (node.snapshotMessage now).1 ↔
      ∀ key buckets, s.firstOwn nodeId now = some (key, buckets) →
        hmacTagLen + utf8Len (SyncMessage.toJson ⟨nodeId, node.incarnation, [⟨key, buckets⟩]⟩)
          ≤ maxMessageBytes := by
  intro node
  have hinc : node.incarnation < 2 ^ 64 := incarnation_new_lt nodeId windowSecs bootNanos secret
  have hf : (s.snapshotOwn nodeId now).1.head? = s.firstOwn nodeId now :=
    s.head?_snapshotOwnCapped nodeId now _ _
  rw [receivable_iff hW, ← hf]
  constructor
  · intro h key buckets hh
    have hen : ⟨key, buckets⟩ ∈ (node.snapshotMessage now).1.entries :=
      mem_map_of_mem (mem_of_mem_head? hh)
    have hle := SyncMessage.utf8Len_toJson_of_mem hen
    rw [SyncMessage.utf8Len_toJson_singleton]
    exact (Nat.add_le_add_left hle _).trans h
  · intro h
    by_cases hl : (node.snapshotMessage now).1.entries.length = 1
    · rw [entries_snapshotMessage, length_map] at hl
      obtain ⟨item, ho⟩ := length_eq_one_iff.mp hl
      have hm : (node.snapshotMessage now).1 =
          ⟨nodeId, node.incarnation, [⟨item.1, item.2⟩]⟩ := by
        have he := node.entries_snapshotMessage now
        rw [ho] at he
        exact congrArg (SyncMessage.mk nodeId node.incarnation) he
      rw [hm]
      exact h item.1 item.2 (congrArg List.head? ho)
    · exact node.utf8Len_snapshotMessage_le now (ownInRange_of_run hrun hevents) hid hinc hl

/-- Two requests for one key, sent in one message: with its JSON text and its HMAC-SHA256 tag
under `shared-test-secret`. -/
theorem snapshotMessage_receivable_two :
    let msg : SyncMessage := ⟨"b", 1, [⟨"k", [(100, 2)]⟩]⟩
    let tag : Vector UInt8 hmacTagLen := #v[157, 177, 106, 54, 145, 217, 169, 134, 241, 108, 40,
      44, 81, 69, 74, 202, 151, 84, 9, 57, 136, 204, 130, 56, 103, 248, 47, 200, 169, 149, 140, 174]
    let W : WireCrates :=
      { toVec := fun m => .ok (Json.toUtf8 m.toJson)
        fromSlice := fun b =>
          if b = Json.toUtf8 msg.toJson then .ok msg else .error "expected value"
        tagFor := fun _ _ => tag }
    let secret := Json.toUtf8 "shared-test-secret".toList
    let s := (((CounterStore.new 10).tryAdmit "k" "b" 100 5).2.tryAdmit "k" "b" 100 5).2
    let node := { ClusterNode.new "b" 10 (some 1) secret with store := s }
    (node.snapshotMessage 100).1 = msg ∧ Receivable W secret (node.snapshotMessage 100).1 := by
  intro msg tag W secret s node
  have hm : (node.snapshotMessage 100).1 = msg := by decide
  have hW : W.PrintsJson := fun _ => rfl
  have h₁ : StoreEvent.Step (.new 10) (.tryAdmit "k" "b" 100 5 true)
      ((CounterStore.new 10).tryAdmit "k" "b" 100 5).2 := .tryAdmit (by decide)
  have h₂ : StoreEvent.Step ((CounterStore.new 10).tryAdmit "k" "b" 100 5).2
      (.tryAdmit "k" "b" 100 5 true) s := .tryAdmit (by decide)
  have hl : ∀ e ∈ [] ++ [StoreEvent.tryAdmit "k" "b" 100 5 true]
      ++ [StoreEvent.tryAdmit "k" "b" 100 5 true], e.IsLocal "b" := by
    intro e he
    obtain rfl : e = StoreEvent.tryAdmit "k" "b" 100 5 true := by simpa using he
    exact ⟨(by decide : 100 < 2 ^ 64), rfl⟩
  refine ⟨hm, (snapshotMessage_receivable_iff W hW "b" (by decide) 10 (some 1) secret
    ((Run.start.next h₁).next h₂) hl 100).mpr ?_⟩
  intro key buckets hf
  have hk : s.firstOwn "b" 100 = some ("k", [(100, 2)]) := by decide
  cases Option.some.inj (hk.symm.trans hf)
  decide

end ClusterNode

/-! ## One request every second -/

/-- The store after one admitted request for `key` in each of `n` seconds from `start` on, and
nothing else. -/
structure Dense (key nodeId : String) (start windowSecs n : ℕ) (s : CounterStore) : Prop where
  windowSecs_eq : s.windowSecs = windowSecs
  room : key ∈ s.keys ∨ s.keys.size < maxTrackedKeys
  mem_changed : ∀ k, k ∈ s.changed ↔ k = key ∧ 0 < n
  cell_eq : ∀ slot epoch, s.cell key slot epoch =
    if slot = nodeId ∧ start ≤ epoch ∧ epoch < start + n then some 1 else none

namespace Dense

variable {key nodeId : String} {start windowSecs n : ℕ} {s : CounterStore}

variable (h : Dense key nodeId start windowSecs n s)

include h

lemma count_le (slot : String) (epoch : ℕ) :
    s.count key slot epoch ≤ if slot = nodeId then 1 else 0 := by
  unfold CounterStore.count KeyCounts.count
  rw [show (s.counts key).cell slot epoch = _ from h.cell_eq slot epoch]
  by_cases hsl : slot = nodeId
  · rw [if_pos hsl]
    split_ifs
    · exact le_rfl
    · exact Nat.zero_le 1
  · rw [if_neg fun hs => hsl hs.1]
    exact Nat.zero_le _

lemma totalInWindow_le (hw : 0 < windowSecs) (now : ℕ) : s.totalInWindow key now ≤ windowSecs := by
  rw [s.totalInWindow_eq, h.windowSecs_eq]
  refine (wrap64_le _).trans ?_
  rw [KeyCounts.sum_countsInWindow _ now windowSecs
    (insert nodeId (s.counts key).perNode.keys.toFinset) (fun slot hsl => by
      rw [Finset.mem_insert, mem_toFinset]
      exact Or.inr (AList.mem_keys.mp hsl))]
  calc ∑ slot ∈ insert nodeId (s.counts key).perNode.keys.toFinset,
        ∑ epoch ∈ Finset.Icc (cutoffSecs now windowSecs) now, (s.counts key).count slot epoch
      ≤ ∑ slot ∈ insert nodeId (s.counts key).perNode.keys.toFinset,
        ∑ epoch ∈ Finset.Icc (cutoffSecs now windowSecs) now, if slot = nodeId then 1 else 0 :=
        Finset.sum_le_sum fun slot _ => Finset.sum_le_sum fun epoch _ => h.count_le slot epoch
    _ = (Finset.Icc (cutoffSecs now windowSecs) now).card := by
        simp
    _ ≤ windowSecs := by
        rw [Nat.card_Icc, cutoffSecs]
        omega

lemma succ (hw : 0 < windowSecs) {limit : ℕ} (hl : windowSecs < limit) :
    (s.tryAdmit key nodeId (start + n) limit).1 = true ∧
      Dense key nodeId start windowSecs (n + 1) (s.tryAdmit key nodeId (start + n) limit).2 := by
  have ht : s.trackedKey key = key := by
    rcases h.room with hke | hsi
    · exact if_pos hke
    · exact s.trackedKey_eq_of_lt hsi
  have hy : (s.tryAdmit key nodeId (start + n) limit).1 = true := by
    rw [s.tryAdmit_fst, ht, decide_eq_true_iff]
    exact (h.totalInWindow_le hw _).trans_lt hl
  refine ⟨hy, ?_, ?_, ?_, ?_⟩
  · rw [s.windowSecs_tryAdmit, h.windowSecs_eq]
  · rw [s.keys_tryAdmit, ht]
    exact Or.inl ((AList.mem_insert _).mpr (Or.inl rfl))
  · intro k
    rw [s.mem_changed_tryAdmit, h.mem_changed, ht]
    simp only [hy, and_true]
    constructor
    · rintro (rfl | ⟨rfl, -⟩)
      · exact ⟨rfl, n.succ_pos⟩
      · exact ⟨rfl, n.succ_pos⟩
    · exact fun hk => Or.inl hk.1
  · intro slot epoch
    rw [s.cell_tryAdmit, ht]
    have hz : s.count key nodeId (start + n) = 0 := by
      rw [CounterStore.count, KeyCounts.count, show (s.counts key).cell nodeId (start + n) = _ from
        h.cell_eq nodeId (start + n), if_neg (fun hc => by omega)]
      rfl
    rw [h.cell_eq, hz]
    simp only [hy, true_and]
    by_cases hsl : slot = nodeId
    · simp only [hsl, true_and]
      split_ifs with hla ho hn ho hn
      all_goals first | rfl | omega
    · simp only [hsl, false_and, if_false]

omit h

lemma zero (key nodeId : String) (start : ℕ) (hw : 0 < windowSecs) :
    Dense key nodeId start windowSecs 0 (.new windowSecs) where
  windowSecs_eq := max_eq_left hw
  room := Or.inr (Nat.succ_pos 99999)
  mem_changed k := ⟨fun h => absurd h (AList.notMem_empty k), fun h => absurd h.2 (lt_irrefl 0)⟩
  cell_eq slot epoch := by rw [if_neg fun h => by omega]; rfl

lemma exists_run (key nodeId : String) (start : ℕ) (hw : 0 < windowSecs) {limit : ℕ}
    (hl : windowSecs < limit) : ∀ n, ∃ events s,
      Run StoreEvent.Step (.new windowSecs) events s ∧
        (∀ e ∈ events, ∃ t, t < start + n ∧ e = .tryAdmit key nodeId t limit true) ∧
        Dense key nodeId start windowSecs n s
  | 0 => ⟨[], _, .start, by simp, zero key nodeId start hw⟩
  | n + 1 => by
    obtain ⟨events, s, hr, hev, hd⟩ := exists_run key nodeId start hw hl n
    obtain ⟨hy, hn⟩ := hd.succ hw hl
    have hst : StoreEvent.Step s (.tryAdmit key nodeId (start + n) limit true)
        (s.tryAdmit key nodeId (start + n) limit).2 := .tryAdmit hy
    refine ⟨_, _, hr.next hst, ?_, hn⟩
    rw [forall_mem_append, forall_mem_singleton]
    refine ⟨fun e he => ?_, start + n, by omega, rfl⟩
    obtain ⟨t, ht, rfl⟩ := hev e he
    exact ⟨t, by omega, rfl⟩

include h

lemma exists_ownInWindow (hn : 0 < n) (hle : n ≤ windowSecs) : ∃ inWindow,
      s.ownInWindow key nodeId (cutoffSecs (start + n - 1) s.windowSecs) = some inWindow ∧
        inWindow.length = n := by
  have hcu : cutoffSecs (start + n - 1) s.windowSecs ≤ start := by
    rw [h.windowSecs_eq, cutoffSecs]
    omega
  obtain ⟨inWindow, hr⟩ := s.exists_ownInWindow_of_cell nodeId
    ((h.cell_eq nodeId start).trans (if_pos ⟨rfl, le_rfl, by omega⟩)) hcu
  refine ⟨inWindow, hr, ?_⟩
  have hp : (inWindow.map fun b => b.1).Perm (List.range' start n) := by
    rw [perm_ext_iff_of_nodup (s.ownInWindow_nodup nodeId hr) nodup_range']
    intro epoch
    rw [mem_range'_1, mem_map]
    constructor
    · rintro ⟨b, hb, rfl⟩
      have hce := ((s.mem_of_ownInWindow_eq_some nodeId hr b.1 b.2).mp hb).2
      rw [h.cell_eq] at hce
      split_ifs at hce with hc
      exact hc.2
    · intro he
      exact ⟨(epoch, 1), (s.mem_of_ownInWindow_eq_some nodeId hr epoch 1).mpr
        ⟨hcu.trans he.1, (h.cell_eq nodeId epoch).trans (if_pos ⟨rfl, he⟩)⟩, rfl⟩
  simpa using hp.length_eq

lemma changedKeys_eq (hn : 0 < n) : s.changedKeys = [key] := by
  refine perm_singleton.mp ((perm_ext_iff_of_nodup s.changedKeys_nodup
    (nodup_singleton key)).mpr fun k => ?_)
  rw [s.mem_changedKeys, h.mem_changed, mem_singleton]
  exact and_iff_left hn

lemma exists_mem_entries (hn : 0 < n) (hle : n ≤ windowSecs) (node : ClusterNode)
    (hid : node.nodeId = nodeId) (hst : node.store = s) :
    ∃ buckets : List (ℕ × ℕ), buckets.length = n ∧
      ⟨key, buckets⟩ ∈ (node.snapshotMessage (start + n - 1)).1.entries := by
  obtain ⟨inWindow, hr, hl⟩ := h.exists_ownInWindow hn hle
  refine ⟨inWindow, hl, ?_⟩
  rw [node.entries_snapshotMessage, hid, hst]
  have ho : (key, inWindow) ∈ (s.snapshotOwn nodeId (start + n - 1)).1 := by
    refine (s.snapshotOwnCapped_queue nodeId hr _ _).2 _ ?_
    rw [h.changedKeys_eq hn]
    exact s.head_mem_out nodeId _ _ _ hr [] s.changed
  exact mem_map_of_mem ho

end Dense

/-- **A message no peer accepts.**  A window of a million seconds passes validation.  One client
that sends one request a second, for the length of the window, then makes a single entry of a
million buckets, which every snapshot takes as its first. -/
theorem snapshotMessage_not_receivable :
    let cluster : Core.ClusterConfig String :=
      ⟨"lb-1", "10.0.0.1:7946", ["10.0.0.2:7946"], 200, 1000000, none, some "s3cret", none⟩
    let cfg : Core.Config String Unit Unit := ⟨[⟨"web", "0.0.0.0:8080", ()⟩], some cluster, ()⟩
    let web : ListenerCoordinator := ⟨"web", 10000000⟩
    (∀ validateListener validateSections,
      (∀ l ∈ cfg.listeners, validateListener l = .ok ()) → validateSections cfg = .ok () →
        cfg.validate validateListener validateSections = .ok ()) ∧
    ∃ events s, Run StoreEvent.Step (.new cluster.windowSecs) events s ∧
      (∀ e ∈ events, e.IsLocal cluster.nodeId ∧ ∃ t,
        e = .tryAdmit (web.namespaced "10.0.0.7") cluster.nodeId t web.limit true) ∧
      ∀ (W : WireCrates) (bootNanos : Option ℕ) (secret : Bytes), W.PrintsJson →
        let node := { ClusterNode.new cluster.nodeId cluster.windowSecs bootNanos secret with
          store := s }
        let msg := (node.snapshotMessage 1700999999).1
        ¬ Receivable W secret msg ∧ ∀ frame reader, encode W msg secret = .ok frame →
          reader.content = frame → readMessage W reader secret = .error ⟨.invalidData,
            "peer announced " ++ toString (hmacTagLen + utf8Len msg.toJson) ++
            " byte message, over the " ++ toString maxMessageBytes ++ " limit"⟩ := by
  intro cluster cfg web
  refine ⟨fun validateListener validateSections hl hs => ?_, ?_⟩
  · refine (Core.Config.validate_eq_ok_iff validateListener validateSections cfg).mpr
      ⟨by simp [cfg], by simp [cfg], by simp [cfg], hl, ?_, hs⟩
    intro c hc
    cases hc
    exact ⟨by decide, by decide, by decide, by decide, by decide, by decide⟩
  · obtain ⟨events, s, hru, hev, hd⟩ := Dense.exists_run (web.namespaced "10.0.0.7")
      cluster.nodeId 1700000000 (by decide : 0 < cluster.windowSecs)
      (by decide : cluster.windowSecs < web.limit) 1000000
    have hlo : ∀ e ∈ events, e.IsLocal cluster.nodeId := by
      intro e he
      obtain ⟨t, ht, rfl⟩ := hev e he
      exact ⟨ht.trans (by norm_num), rfl⟩
    refine ⟨events, s, hru, fun e he => ?_, fun W bootNanos secret hW => ?_⟩
    · obtain ⟨t, ht, heq⟩ := hev e he
      exact ⟨hlo e he, t, heq⟩
    · intro node msg
      obtain ⟨buckets, hle, hm⟩ := hd.exists_mem_entries (by norm_num) le_rfl node rfl rfl
      have hn : ¬ Receivable W secret msg := by
        have hlon := KeyEntry.le_utf8Len_toJson ⟨web.namespaced "10.0.0.7", buckets⟩
        have hen := SyncMessage.utf8Len_toJson_of_mem hm
        rw [receivable_iff hW, not_le]
        rw [hle] at hlon
        refine lt_of_lt_of_le ?_ ((Nat.le_add_left _ _).trans
          (hen.trans (Nat.le_add_left _ hmacTagLen)))
        exact lt_of_lt_of_le (by decide) hlon
      refine ⟨hn, fun frame reader hf hr => ?_⟩
      refine readMessage_of_not_receivable hW secret msg hn ?_ hf hr
      have hb := node.utf8Len_snapshotMessage_le_of_mem 1700999999
        (ownInRange_of_run hru hlo)
        (ClusterNode.incarnation_new_lt cluster.nodeId cluster.windowSecs bootNanos secret) hm
      have hsm : hmacTagLen + (utf8Len (Json.str "lb-1") + 15060 + max maxSnapshotBytes
          (estimatedSnapshotBytes (ListenerCoordinator.namespaced ⟨"web", 10000000⟩ "10.0.0.7")
            1000000)) < 2 ^ 32 := by decide
      rw [hle] at hb
      exact (Nat.add_le_add_left hb _).trans_lt hsm

end LoadBalancer.Cluster
