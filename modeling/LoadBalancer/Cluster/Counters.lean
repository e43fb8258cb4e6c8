import LoadBalancer.Lib.Table

/-!
# The cluster counter store

`CounterStore` (`crates/lb-cluster/src/counters.rs`) counts admitted requests in cells `(key, slot,
epoch second)`, where a slot is this node's own id or the id and incarnation of a peer's boot.

Maps are `Table`s, so iteration has an order but no result below depends on it.  A `DashSet` is a
`DashMap` with unit values, and is modelled as that.  Counts and their sums are `u64`s of a release
build: `wrap64` marks the places where they wrap.  `saturating_sub` is truncated subtraction on
`ℕ`.

The lemmas here are the equations of `cell`, the value of one counter cell, under each operation;
everything about the store that later files prove goes through them.
-/

namespace LoadBalancer.Cluster

open Option AList Finset

/-- `u64` arithmetic without overflow checks. -/
def wrap64 (n : ℕ) : ℕ := n % 2 ^ 64

lemma wrap64_of_lt {n : ℕ} (h : n < 2 ^ 64) : wrap64 n = n := Nat.mod_eq_of_lt h

lemma wrap64_le (n : ℕ) : wrap64 n ≤ n := Nat.mod_le _ _

lemma wrap64_lt (n : ℕ) : wrap64 n < 2 ^ 64 := Nat.mod_lt _ (by norm_num)

def maxTrackedKeys : ℕ := 100000

def maxSnapshotBucketEntries : ℕ := 5000

def maxSnapshotBytes : ℕ := 1024 * 1024

def futureSkewToleranceSecs : ℕ := 5

def maxSkewPeerLabels : ℕ := 64

def overflowPeerLabel : String := "other"

/-- `s.split(sep).next()`: the part of `s` before the first separator. -/
def splitNext (sep : Char) (s : String) : String :=
  String.ofList (s.toList.takeWhile (· ≠ sep))

def nodeSlot (nodeId : String) (incarnation : ℕ) : String :=
  if incarnation = 0 then nodeId else nodeId ++ "\x00" ++ incarnation.repr

def overflowKey (key : String) : String :=
  splitNext '\x01' key ++ "\x01\x00overflow"

/-! ## Counts of one key -/

abbrev Buckets := Table ℕ ℕ

/-- Per-key counts: `node_id -> (epoch_second -> count)`. -/
structure KeyCounts where
  perNode : Table String Buckets
  deriving DecidableEq

instance : Inhabited KeyCounts := ⟨⟨∅⟩⟩

def cutoffSecs (nowSecs windowSecs : ℕ) : ℕ := nowSecs - (windowSecs - 1)

lemma cutoffSecs_mono {t t' : ℕ} (h : t ≤ t') (w : ℕ) : cutoffSecs t w ≤ cutoffSecs t' w :=
  Nat.sub_le_sub_right h _

lemma cutoffSecs_le (t w : ℕ) : cutoffSecs t w ≤ t := Nat.sub_le _ _

namespace KeyCounts

def countsInWindow (c : KeyCounts) (nowSecs windowSecs : ℕ) : List ℕ :=
  ((c.perNode.entries.flatMap fun slot => slot.2.entries).filter fun b =>
    cutoffSecs nowSecs windowSecs ≤ b.1 && b.1 ≤ nowSecs).map fun b => b.2

def totalInWindow (c : KeyCounts) (nowSecs windowSecs : ℕ) : ℕ :=
  wrap64 (c.countsInWindow nowSecs windowSecs).sum

def prune (c : KeyCounts) (nowSecs windowSecs : ℕ) : KeyCounts where
  perNode := (c.perNode.mapValues fun buckets =>
    buckets.retain fun epoch _ => cutoffSecs nowSecs windowSecs ≤ epoch).retain
      fun _ buckets => buckets.size ≠ 0

end KeyCounts

/-- `*buckets.entry(now_secs).or_insert(0) += 1`. -/
def bump (buckets : Buckets) (nowSecs : ℕ) : Buckets :=
  buckets.insert nowSecs (wrap64 ((buckets.get nowSecs).getD 0 + 1))

def record (counts : KeyCounts) (nodeId : String) (nowSecs : ℕ) : KeyCounts :=
  match counts.perNode.get nodeId with
  | some buckets => ⟨counts.perNode.insert nodeId (bump buckets nowSecs)⟩
  | none => ⟨counts.perNode.insert nodeId (bump ∅ nowSecs)⟩

def tryRecord (counts : KeyCounts) (nodeId : String) (nowSecs windowSecs limit : ℕ) :
    Bool × KeyCounts :=
  if limit ≤ counts.totalInWindow nowSecs windowSecs then (false, counts)
  else (true, record counts nodeId nowSecs)

/-- The loop of `merge_into` over one slot's buckets: the new buckets and the number of
rejected entries. -/
def mergeBuckets (maxEpoch : ℕ) : List (ℕ × ℕ) → Buckets → ℕ → Buckets × ℕ
  | [], node, rejected => (node, rejected)
  | (epoch, count) :: rest, node, rejected =>
    if maxEpoch < epoch then mergeBuckets maxEpoch rest node (rejected + 1)
    else mergeBuckets maxEpoch rest
      (node.insert epoch (max ((node.get epoch).getD 0) count)) rejected

def mergeInto (counts : KeyCounts) (nodeId : String) (buckets : List (ℕ × ℕ)) (maxEpoch : ℕ) :
    KeyCounts × ℕ :=
  match counts.perNode.get nodeId with
  | some nodeBuckets =>
    let (merged, rejected) := mergeBuckets maxEpoch buckets nodeBuckets 0
    (⟨counts.perNode.insert nodeId merged⟩, rejected)
  | none =>
    if buckets.any fun b => b.1 ≤ maxEpoch then
      let (merged, rejected) := mergeBuckets maxEpoch buckets ∅ 0
      (⟨counts.perNode.insert nodeId merged⟩, rejected)
    else (counts, buckets.length)

/-! ## The store -/

def maxEpochSecs (nowSecs : ℕ) : ℕ := wrap64 (nowSecs + futureSkewToleranceSecs)

structure CounterStore where
  windowSecs : ℕ
  keys : Table String KeyCounts
  snapshotCursor : ℕ
  /-- The labelled rejection counter, when a metrics registry is attached. -/
  skewRejections : Option (Table String ℕ)
  skewLabeledPeers : Table String Unit
  changed : Table String Unit
  deriving DecidableEq

namespace CounterStore

def new (windowSecs : ℕ) : CounterStore where
  windowSecs := max windowSecs 1
  keys := ∅
  snapshotCursor := 0
  skewRejections := none
  skewLabeledPeers := ∅
  changed := ∅

def markChanged (s : CounterStore) (key : String) : CounterStore :=
  if key ∈ s.changed then s else { s with changed := s.changed.insert key () }

/-- The key a request is counted under: its own, or the listener's overflow key once the store
is full and the key is new. -/
def trackedKey (s : CounterStore) (key : String) : String :=
  if key ∈ s.keys then key
  else if maxTrackedKeys ≤ s.keys.size then overflowKey key else key

def tryAdmit (s : CounterStore) (key nodeId : String) (nowSecs limit : ℕ) :
    Bool × CounterStore :=
  match s.keys.get key with
  | some counts =>
    let (admitted, counts) := tryRecord counts nodeId nowSecs s.windowSecs limit
    let s := { s with keys := s.keys.insert key counts }
    (admitted, if admitted then s.markChanged key else s)
  | none =>
    let tracked := if maxTrackedKeys ≤ s.keys.size then overflowKey key else key
    let counts := (s.keys.get tracked).getD default
    let (admitted, counts) := tryRecord counts nodeId nowSecs s.windowSecs limit
    let s := { s with keys := s.keys.insert tracked counts }
    (admitted, if admitted then s.markChanged tracked else s)

/-- The in-window buckets of one slot of one key, `None` when there are none. -/
def ownInWindow (s : CounterStore) (key nodeId : String) (cutoff : ℕ) :
    Option (List (ℕ × ℕ)) :=
  (s.keys.get key).bind fun item =>
    (item.perNode.get nodeId).bind fun buckets =>
      let inWindow := (buckets.entries.filter fun b => cutoff ≤ b.1).map fun b => (b.1, b.2)
      if inWindow.isEmpty then none else some inWindow

def totalInWindow (s : CounterStore) (key : String) (nowSecs : ℕ) : ℕ :=
  ((s.keys.get key).map fun k => k.totalInWindow nowSecs s.windowSecs).getD 0

/-- The metrics label of a peer slot, with the set of labels in use. -/
def skewPeerLabel (s : CounterStore) (nodeId : String) : String × CounterStore :=
  let nodeId := splitNext '\x00' nodeId
  if nodeId ∈ s.skewLabeledPeers then (nodeId, s)
  else if s.skewLabeledPeers.size < maxSkewPeerLabels then
    (nodeId, { s with skewLabeledPeers := s.skewLabeledPeers.insert nodeId () })
  else (overflowPeerLabel, s)

def recordSkewRejections (s : CounterStore) (nodeId : String) (rejected : ℕ) : CounterStore :=
  if rejected = 0 then s
  else match s.skewRejections with
  | none => s
  | some counter =>
    let (label, s) := s.skewPeerLabel nodeId
    let counter := counter.insert label (wrap64 ((counter.get label).getD 0 + rejected))
    { s with skewRejections := some counter }

def merge (s : CounterStore) (key nodeId : String) (buckets : List (ℕ × ℕ)) (nowSecs : ℕ) :
    CounterStore :=
  let maxEpoch := maxEpochSecs nowSecs
  let inWindow := (buckets.filter fun b => b.1 ≤ maxEpoch).length
  if inWindow = 0 then s.recordSkewRejections nodeId buckets.length
  else match s.keys.get key with
  | some counts =>
    let (counts, rejected) := mergeInto counts nodeId buckets maxEpoch
    { s with keys := s.keys.insert key counts }.recordSkewRejections nodeId rejected
  | none =>
    if maxTrackedKeys ≤ s.keys.size then s
    else
      let (counts, rejected) := mergeInto default nodeId buckets maxEpoch
      { s with keys := s.keys.insert key counts }.recordSkewRejections nodeId rejected

def trackedKeys (s : CounterStore) : ℕ := s.keys.size

def prune (s : CounterStore) (nowSecs : ℕ) : CounterStore :=
  let keys := (s.keys.mapValues fun counts => counts.prune nowSecs s.windowSecs).retain
    fun _ counts => counts.perNode.size ≠ 0
  { s with keys := keys, changed := s.changed.retain fun key _ => key ∈ keys }

end CounterStore

/-! ## The capped snapshot -/

def estimatedSnapshotBytes (key : String) (entries : ℕ) : ℕ :=
  key.utf8ByteSize * 6 + 16 + entries * 48

/-- The running totals of `snapshot_own_capped` and the entries pushed so far. -/
structure SnapshotAcc where
  totalEntries : ℕ
  totalBytes : ℕ
  out : List (String × List (ℕ × ℕ))
  deriving DecidableEq

namespace SnapshotAcc

def start : SnapshotAcc := ⟨0, 0, []⟩

/-- The test that stops a snapshot: never before the first entry, then as soon as either cap
would be passed. -/
def overBudget (acc : SnapshotAcc) (maxEntries maxBytes entries bytes : ℕ) : Bool :=
  0 < acc.totalEntries &&
    (maxEntries < acc.totalEntries + entries || maxBytes < acc.totalBytes + bytes)

def push (acc : SnapshotAcc) (key : String) (inWindow : List (ℕ × ℕ)) : SnapshotAcc where
  totalEntries := acc.totalEntries + inWindow.length
  totalBytes := acc.totalBytes + estimatedSnapshotBytes key inWindow.length
  out := acc.out ++ [(key, inWindow)]

end SnapshotAcc

namespace CounterStore

variable (s : CounterStore) (nodeId : String) (cutoff maxEntries maxBytes : ℕ)

/-- The first loop: changed keys, in sorted order, each taken out of the changed set and put
back when it does not fit. -/
def snapshotChanged : List String → Table String Unit → SnapshotAcc →
    Table String Unit × SnapshotAcc
  | [], changed, acc => (changed, acc)
  | key :: rest, changed, acc =>
    match s.ownInWindow key nodeId cutoff with
    | none => snapshotChanged rest (changed.erase key) acc
    | some inWindow =>
      let bytes := estimatedSnapshotBytes key inWindow.length
      if acc.overBudget maxEntries maxBytes inWindow.length bytes then
        ((changed.erase key).insert key (), acc)
      else snapshotChanged rest (changed.erase key) (acc.push key inWindow)

/-- The second loop: from the cursor on, the keys the first loop did not include. -/
def snapshotRotation (keys : List String) (included : List String) :
    ℕ → ℕ → SnapshotAcc → ℕ × SnapshotAcc
  | 0, idx, acc => (idx, acc)
  | n + 1, idx, acc =>
    let key := keys.getD idx ""
    if key ∈ included then snapshotRotation keys included n ((idx + 1) % keys.length) acc
    else match s.ownInWindow key nodeId cutoff with
    | none => snapshotRotation keys included n ((idx + 1) % keys.length) acc
    | some inWindow =>
      let bytes := estimatedSnapshotBytes key inWindow.length
      if acc.overBudget maxEntries maxBytes inWindow.length bytes then (idx, acc)
      else snapshotRotation keys included n ((idx + 1) % keys.length) (acc.push key inWindow)

def ownKeys (s : CounterStore) (nodeId : String) : List String :=
  ((s.keys.entries.filter fun item => nodeId ∈ item.2.perNode).map fun item =>
    item.1).insertionSort (· ≤ ·)

def changedKeys (s : CounterStore) : List String := s.changed.keys.insertionSort (· ≤ ·)

def snapshotOwnCapped (s : CounterStore) (nodeId : String) (nowSecs maxEntries maxBytes : ℕ) :
    List (String × List (ℕ × ℕ)) × CounterStore :=
  let cutoff := cutoffSecs nowSecs s.windowSecs
  let keys := s.ownKeys nodeId
  if keys.isEmpty then ([], s)
  else
    let idx := s.snapshotCursor % keys.length
    let (changed, acc) :=
      s.snapshotChanged nodeId cutoff maxEntries maxBytes s.changedKeys s.changed .start
    let included := acc.out.map fun item => item.1
    let (idx, acc) :=
      s.snapshotRotation nodeId cutoff maxEntries maxBytes keys included keys.length idx acc
    (acc.out, { s with changed := changed, snapshotCursor := idx })

def snapshotOwn (s : CounterStore) (nodeId : String) (nowSecs : ℕ) :
    List (String × List (ℕ × ℕ)) × CounterStore :=
  s.snapshotOwnCapped nodeId nowSecs maxSnapshotBucketEntries maxSnapshotBytes

end CounterStore

/-! ## Cells of one key -/

namespace KeyCounts

/-- The cell of a slot and a second, `none` when it does not exist. -/
def cell (c : KeyCounts) (slot : String) (epoch : ℕ) : Option ℕ :=
  (c.perNode.get slot).bind fun buckets => buckets.get epoch

def count (c : KeyCounts) (slot : String) (epoch : ℕ) : ℕ := (c.cell slot epoch).getD 0

@[simp] lemma cell_default (slot : String) (epoch : ℕ) :
    (default : KeyCounts).cell slot epoch = none := rfl

variable (c : KeyCounts)

lemma record_eq (nodeId : String) (now : ℕ) :
    record c nodeId now
      = ⟨c.perNode.insert nodeId (bump ((c.perNode.get nodeId).getD ∅) now)⟩ := by
  unfold record
  cases c.perNode.get nodeId <;> rfl

lemma cell_record (nodeId slot : String) (now epoch : ℕ) :
    (record c nodeId now).cell slot epoch =
      if slot = nodeId ∧ epoch = now then some (wrap64 (c.count nodeId now + 1))
      else c.cell slot epoch := by
  rw [record_eq]
  unfold cell count cell
  rw [get_insert]
  by_cases hs : slot = nodeId
  · subst hs
    rw [if_pos rfl, bind_some, bump, get_insert]
    by_cases he : epoch = now
    · subst he
      cases c.perNode.get slot <;> simp
    · rw [if_neg he, if_neg (fun h => he h.2)]
      cases c.perNode.get slot <;> simp
  · rw [if_neg hs, if_neg (fun h => hs h.1)]

lemma cell_prune (now w : ℕ) (slot : String) (epoch : ℕ) :
    (c.prune now w).cell slot epoch =
      if cutoffSecs now w ≤ epoch then c.cell slot epoch else none := by
  unfold cell prune
  rw [get_retain, get_mapValues]
  cases hb : c.perNode.get slot with
  | none => simp
  | some buckets =>
    rw [map_some, bind_some]
    -- an emptied slot is dropped, which its cells cannot tell from an empty one
    by_cases hz : (buckets.retain fun epoch _ => cutoffSecs now w ≤ epoch).size = 0
    · have hn := eq_empty_iff_get.mp (size_eq_zero_iff.mp hz) epoch
      rw [get_retain] at hn
      have hd : Option.filter (fun b : Buckets => decide (b.size ≠ 0))
          (some (buckets.retain fun epoch _ => cutoffSecs now w ≤ epoch)) = none := by
        simp [Option.filter, hz]
      rw [hd, bind_none]
      split_ifs with he
      · cases hl : buckets.get epoch with
        | none => rfl
        | some v => simp [hl, he] at hn
      · rfl
    · have hd : Option.filter (fun b : Buckets => decide (b.size ≠ 0))
          (some (buckets.retain fun epoch _ => cutoffSecs now w ≤ epoch))
          = some (buckets.retain fun epoch _ => cutoffSecs now w ≤ epoch) := by
        simp [Option.filter, hz]
      rw [hd, bind_some, get_retain]
      split_ifs with he
      · cases buckets.get epoch <;> simp [he]
      · cases buckets.get epoch <;> simp [he]

/-- **The sum of the in-window counts, cell by cell**: over any set of slots that covers the
key's slots, and over the seconds of the window. -/
lemma sum_countsInWindow (now w : ℕ) (S : Finset String) (hS : ∀ slot ∈ c.perNode, slot ∈ S) :
    (c.countsInWindow now w).sum
      = ∑ slot ∈ S, ∑ epoch ∈ Finset.Icc (cutoffSecs now w) now, c.count slot epoch := by
  have hf : (c.countsInWindow now w).sum = (c.perNode.entries.map fun slot =>
      ((slot.2.entries.filter fun b => cutoffSecs now w ≤ b.1 && b.1 ≤ now).map
        fun b => b.2).sum).sum := by
    unfold countsInWindow
    rw [List.filter_flatMap, List.map_flatMap, List.flatMap, List.sum_flatten, List.map_map]
    rfl
  rw [hf, sum_entries c.perNode (fun _ buckets => ((buckets.entries.filter fun b =>
    cutoffSecs now w ≤ b.1 && b.1 ≤ now).map fun b => b.2).sum) S hS]
  refine sum_congr rfl fun slot _ => ?_
  unfold count cell
  cases c.perNode.get slot with
  | none => simp
  | some buckets =>
    simp only [elim_some, bind_some]
    rw [sum_filter_entries buckets (fun e => cutoffSecs now w ≤ e && e ≤ now)
      (fun _ v => v) (Finset.Icc (cutoffSecs now w) now)
      (fun e _ he => by simpa using he) (fun e he => by simpa using he)]
    refine sum_congr rfl fun e _ => ?_
    cases buckets.get e <;> rfl

lemma sum_countsInWindow_mono {c c' : KeyCounts} {now w : ℕ}
    (h : ∀ slot epoch, cutoffSecs now w ≤ epoch → epoch ≤ now →
      c.count slot epoch ≤ c'.count slot epoch) :
    (c.countsInWindow now w).sum ≤ (c'.countsInWindow now w).sum := by
  rw [sum_countsInWindow c now w (c.perNode.keys.toFinset ∪ c'.perNode.keys.toFinset)
      (fun slot hs => by simp [mem_keys.mp hs]),
    sum_countsInWindow c' now w (c.perNode.keys.toFinset ∪ c'.perNode.keys.toFinset)
      (fun slot hs => by simp [mem_keys.mp hs])]
  refine sum_le_sum fun slot _ => sum_le_sum fun epoch he => ?_
  rw [mem_Icc] at he
  exact h slot epoch he.1 he.2

end KeyCounts

/-! ## Cells of the store -/

namespace CounterStore

variable (s : CounterStore)

def counts (key : String) : KeyCounts := (s.keys.get key).getD default

def cell (key slot : String) (epoch : ℕ) : Option ℕ := (s.counts key).cell slot epoch

def count (key slot : String) (epoch : ℕ) : ℕ := (s.counts key).count slot epoch

variable {slot : String} {epoch : ℕ} (now : ℕ) (key : String)

lemma totalInWindow_eq (now : ℕ) :
    s.totalInWindow key now = (s.counts key).totalInWindow now s.windowSecs := by
  unfold totalInWindow counts
  cases s.keys.get key <;> rfl

lemma count_eq_of_cell {s : CounterStore} {key : String} {v : ℕ}
    (h : s.cell key slot epoch = some v) : s.count key slot epoch = v :=
  congrArg (·.getD 0) h

lemma cell_eq_of_count_pos {s : CounterStore} {key : String} (h : 0 < s.count key slot epoch) :
    s.cell key slot epoch = some (s.count key slot epoch) := by
  cases hc : s.cell key slot epoch with
  | none =>
    rw [show s.count key slot epoch = 0 from congrArg (·.getD 0) hc] at h
    exact absurd h (lt_irrefl 0)
  | some v => rw [count_eq_of_cell hc]

lemma mem_keys_of_cell {key : String} {v : ℕ} (h : s.cell key slot epoch = some v) :
    key ∈ s.keys := by
  by_contra hk
  rw [cell, counts, get_eq_none_iff.mpr hk] at h
  cases h

section

variable (nodeId : String) (rejected : ℕ)

lemma recordSkewRejections_eq : ∃ counter peers, s.recordSkewRejections nodeId rejected =
    { s with skewRejections := counter, skewLabeledPeers := peers } := by
  unfold recordSkewRejections
  by_cases h0 : rejected = 0
  · exact ⟨_, _, if_pos h0⟩
  · rw [if_neg h0]
    cases s.skewRejections with
    | none => exact ⟨_, _, rfl⟩
    | some counter =>
      dsimp only [skewPeerLabel]
      split_ifs <;> exact ⟨_, _, rfl⟩

end

@[simp] lemma keys_markChanged : (s.markChanged key).keys = s.keys := by
  unfold markChanged
  split_ifs <;> rfl

@[simp] lemma windowSecs_markChanged : (s.markChanged key).windowSecs = s.windowSecs := by
  unfold markChanged
  split_ifs <;> rfl

lemma mem_changed_markChanged (k : String) :
    k ∈ (s.markChanged key).changed ↔ k = key ∨ k ∈ s.changed := by
  unfold markChanged
  split_ifs with h
  · constructor
    · exact Or.inr
    · rintro (rfl | hk)
      · exact h
      · exact hk
  · exact mem_insert _

/-! ### Admission -/

lemma tryAdmit_eq (nodeId : String) (now limit : ℕ) :
    s.tryAdmit key nodeId now limit =
      let tracked := s.trackedKey key
      let r := tryRecord (s.counts tracked) nodeId now s.windowSecs limit
      let s' := { s with keys := s.keys.insert tracked r.2 }
      (r.1, if r.1 then s'.markChanged tracked else s') := by
  cases hk : s.keys.get key with
  | some c =>
    have hm : key ∈ s.keys := mem_of_get_eq_some hk
    have ht : s.trackedKey key = key := if_pos hm
    simp only [ht, tryAdmit, counts, hk, getD_some]
  | none =>
    have hm : key ∉ s.keys := get_eq_none_iff.mp hk
    have ht : s.trackedKey key = if maxTrackedKeys ≤ s.keys.size then overflowKey key else key :=
      if_neg hm
    simp only [ht, tryAdmit, counts, hk]

lemma tryAdmit_fst (nodeId : String) (now limit : ℕ) :
    (s.tryAdmit key nodeId now limit).1
      = decide (s.totalInWindow (s.trackedKey key) now < limit) := by
  rw [tryAdmit_eq, totalInWindow_eq]
  dsimp only [tryRecord]
  split_ifs with h
  · simp [h]
  · simp [not_le.mp h]

@[simp] lemma windowSecs_tryAdmit (nodeId : String) (now limit : ℕ) :
    (s.tryAdmit key nodeId now limit).2.windowSecs = s.windowSecs := by
  rw [tryAdmit_eq]
  dsimp only
  split_ifs <;> simp

lemma keys_tryAdmit (nodeId : String) (now limit : ℕ) :
    (s.tryAdmit key nodeId now limit).2.keys = s.keys.insert (s.trackedKey key)
      (tryRecord (s.counts (s.trackedKey key)) nodeId now s.windowSecs limit).2 := by
  rw [tryAdmit_eq]
  dsimp only
  split_ifs <;> simp

lemma counts_tryAdmit (nodeId k : String) (now limit : ℕ) :
    (s.tryAdmit key nodeId now limit).2.counts k =
      if k = s.trackedKey key ∧ (s.tryAdmit key nodeId now limit).1 = true then
        record (s.counts (s.trackedKey key)) nodeId now
      else s.counts k := by
  rw [counts, keys_tryAdmit, get_insert, tryAdmit_fst, totalInWindow_eq]
  by_cases hk : k = s.trackedKey key
  · subst hk
    simp only [if_true, getD_some, true_and, decide_eq_true_eq, tryRecord]
    split_ifs with h1 h2 h2
    · omega
    · rfl
    · rfl
    · omega
  · simp [hk, counts]

lemma cell_tryAdmit (nodeId k slot : String) (now limit epoch : ℕ) :
    (s.tryAdmit key nodeId now limit).2.cell k slot epoch =
      if (s.tryAdmit key nodeId now limit).1 = true ∧
          k = s.trackedKey key ∧ slot = nodeId ∧ epoch = now then
        some (wrap64 (s.count k nodeId now + 1))
      else s.cell k slot epoch := by
  rw [cell, counts_tryAdmit]
  by_cases hk : k = s.trackedKey key ∧ (s.tryAdmit key nodeId now limit).1 = true
  · rw [if_pos hk, KeyCounts.cell_record]
    simp [hk.1, hk.2, count, cell]
  · rw [if_neg hk, if_neg (fun h => hk ⟨h.2.1, h.1⟩)]
    rfl

lemma mem_changed_tryAdmit (nodeId k : String) (now limit : ℕ) :
    k ∈ (s.tryAdmit key nodeId now limit).2.changed ↔
      (k = s.trackedKey key ∧ (s.tryAdmit key nodeId now limit).1 = true) ∨ k ∈ s.changed := by
  rw [tryAdmit_eq]
  dsimp only
  split_ifs with h
  · rw [mem_changed_markChanged]
    simp [h]
  · simp [h]

lemma trackedKey_eq_of_lt {key : String} (h : s.keys.size < maxTrackedKeys) :
    s.trackedKey key = key := by
  unfold trackedKey
  rw [if_neg (not_le.mpr h), ite_self]

/-! ### Pruning -/

@[simp] lemma windowSecs_prune : (s.prune now).windowSecs = s.windowSecs := rfl

lemma cell_prune (slot : String) (epoch : ℕ) :
    (s.prune now).cell key slot epoch =
      if cutoffSecs now s.windowSecs ≤ epoch then s.cell key slot epoch else none := by
  unfold cell counts prune
  dsimp only
  rw [get_retain, get_mapValues]
  cases hk : s.keys.get key with
  | none => simp
  | some c =>
    rw [map_some, getD_some, ← KeyCounts.cell_prune]
    by_cases hz : (c.prune now s.windowSecs).perNode.size = 0
    · -- the key is dropped with its last slot
      have he : c.prune now s.windowSecs = default := by
        rcases hp : c.prune now s.windowSecs with ⟨t⟩
        rw [hp] at hz
        exact congrArg KeyCounts.mk (size_eq_zero_iff.mp hz)
      rw [filter_some, if_neg (by simp [hz]), he]
      rfl
    · rw [filter_some, if_pos (by simp [hz])]
      rfl

lemma mem_keys_of_mem_prune {now : ℕ} {k : String} (h : k ∈ (s.prune now).keys) : k ∈ s.keys := by
  obtain ⟨c, hc⟩ := exists_get_of_mem h
  unfold prune at hc
  dsimp only at hc
  rw [get_retain_eq_some_iff, get_mapValues, map_eq_some_iff] at hc
  obtain ⟨⟨old, ho, -⟩, -⟩ := hc
  exact mem_of_get_eq_some ho

lemma mem_changed_prune (k : String) :
    k ∈ (s.prune now).changed ↔ k ∈ s.changed ∧ k ∈ (s.prune now).keys := by
  unfold prune
  dsimp only
  rw [mem_retain_key, decide_eq_true_iff]

end CounterStore

end LoadBalancer.Cluster
