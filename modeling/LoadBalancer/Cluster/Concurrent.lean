import LoadBalancer.Lib.Interleaving
import LoadBalancer.Cluster.Snapshot

/-!
# The counter store under concurrent calls

`try_admit`, `prune` and the gossip snapshot run on different threads.  Each takes the locks of the
two concurrent maps, `keys` and `changed`, for one access at a time, so that what is atomic is an
access and not a call.  `Thread` has one program point before each access, and `ThreadStep` is what
the access does:

* `try_admit` decides and records under the lock of the key's entry; only then does `mark_changed`
  look for the key in the changed set, and only then does it insert it;
* `prune` visits the keys one by one, then the changed set one by one;
* a snapshot lists the keys, lists the changed set, and then takes one changed key after another
  out of the set before it reads the key's cells.

An iteration over a concurrent map may or may not see what is inserted meanwhile: a thread may come
back with any list.  The removal of one key by `changed.retain` is a single step, since the shard
of the changed set stays locked from the test of the key to its removal.
-/

namespace LoadBalancer.Cluster

open Interleaving Option AList

/-! ## Threads and their steps -/

/-- The local variables of a running `snapshot_own_capped`. -/
structure SnapshotFrame where
  cutoff : ℕ
  maxEntries : ℕ
  maxBytes : ℕ
  keys : List String
  idx : ℕ
  acc : SnapshotAcc

/-- Where a call is: each constructor is the point before an access to a shared map. -/
inductive Thread
  /-- `try_admit`: before `keys.get_mut(key)`. -/
  | getMut (key : String) (nowSecs limit : ℕ)
  /-- `try_admit`: the key was missing; before `keys.len()`. -/
  | len (key : String) (nowSecs limit : ℕ)
  /-- `try_admit`: before `keys.entry(tracked)`. -/
  | entry (tracked : String) (nowSecs limit : ℕ)
  /-- `mark_changed`: before `changed.contains(key)`. -/
  | contains (key : String)
  /-- `mark_changed`: before `changed.insert(key)`. -/
  | insert (key : String)
  /-- `prune`: the keys `keys.retain` has still to visit. -/
  | retainKeys (nowSecs : ℕ) (todo : List String)
  /-- `prune`: the keys `changed.retain` has still to visit. -/
  | retainChanged (todo : List String)
  /-- `snapshot_own_capped`: before the keys are listed. -/
  | iterKeys (nowSecs maxEntries maxBytes : ℕ)
  /-- `snapshot_own_capped`: before the changed set is listed. -/
  | iterChanged (frame : SnapshotFrame)
  /-- `snapshot_own_capped`: before the first key of `todo` is removed from the changed set. -/
  | remove (frame : SnapshotFrame) (todo : List String)
  /-- `snapshot_own_capped`: `key` is removed; before `own_in_window(key)`. -/
  | read (frame : SnapshotFrame) (key : String) (todo : List String)
  /-- `snapshot_own_capped`: `key` is over budget; before `changed.insert(key)`. -/
  | putBack (frame : SnapshotFrame) (key : String)
  /-- `snapshot_own_capped`: `n` rounds of the second loop are left. -/
  | rotate (frame : SnapshotFrame) (included : List String) (n : ℕ)

/-- What the threads share: the store, whether a snapshot is being taken, and the entries that
snapshots have included, latest first. -/
structure GossipState where
  store : CounterStore
  snapshotting : Bool
  sent : List (String × List (ℕ × ℕ))

namespace GossipState

def new (windowSecs : ℕ) : GossipState := ⟨.new windowSecs, false, []⟩

def setCounts (g : GossipState) (key : String) (counts : KeyCounts) : GossipState :=
  { g with store := { g.store with keys := g.store.keys.insert key counts } }

def setChanged (g : GossipState) (changed : Table String Unit) : GossipState :=
  { g with store := { g.store with changed := changed } }

/-- One key of `keys.retain`: its counts are pruned, and it is dropped when nothing is left. -/
def pruneKey (g : GossipState) (nowSecs : ℕ) (key : String) : GossipState :=
  match g.store.keys.get key with
  | none => g
  | some counts =>
    let counts := counts.prune nowSecs g.store.windowSecs
    if counts.perNode.size = 0 then
      { g with store := { g.store with keys := g.store.keys.erase key } }
    else g.setCounts key counts

def send (g : GossipState) (key : String) (inWindow : List (ℕ × ℕ)) : GossipState :=
  { g with sent := (key, inWindow) :: g.sent }

def finish (g : GossipState) (idx : ℕ) : GossipState :=
  { g with snapshotting := false, store := { g.store with snapshotCursor := idx } }

/-- The count of a second in the last snapshot that contained the key; nothing when no
snapshot did, or when that one did not list the second. -/
def lastSent (g : GossipState) (key : String) (epoch : ℕ) : ℕ :=
  ((g.sent.lookup key).bind fun buckets => buckets.lookup epoch).getD 0

end GossipState

namespace SnapshotFrame

def push (frame : SnapshotFrame) (key : String) (inWindow : List (ℕ × ℕ)) : SnapshotFrame :=
  { frame with acc := frame.acc.push key inWindow }

def key (frame : SnapshotFrame) : String := frame.keys.getD frame.idx ""

def advance (frame : SnapshotFrame) : SnapshotFrame :=
  { frame with idx := (frame.idx + 1) % frame.keys.length }

def overBudget (frame : SnapshotFrame) (key : String) (inWindow : List (ℕ × ℕ)) : Bool :=
  frame.acc.overBudget frame.maxEntries frame.maxBytes inWindow.length
    (estimatedSnapshotBytes key inWindow.length)

def startRotation (frame : SnapshotFrame) : Thread :=
  .rotate frame (frame.acc.out.map fun item => item.1) frame.keys.length

end SnapshotFrame

/-- The part of `try_admit` under the lock of a key's entry, which is created when it is
missing, and where the call goes on. -/
def recordStep (nodeId : String) (g : GossipState) (key : String) (nowSecs limit : ℕ) :
    GossipState × Option Thread :=
  let (admitted, counts) := tryRecord (g.store.counts key) nodeId nowSecs g.store.windowSecs limit
  (g.setCounts key counts, if admitted then some (.contains key) else none)

/-- One atomic step of a thread: the new shared state and where the thread is then, `none`
when its call has returned. -/
inductive ThreadStep (nodeId : String) (g : GossipState) :
    Thread → GossipState → Option Thread → Prop
  | getMut {key : String} {nowSecs limit : ℕ} (hkey : key ∈ g.store.keys) :
      ThreadStep nodeId g (.getMut key nowSecs limit) (recordStep nodeId g key nowSecs limit).1
        (recordStep nodeId g key nowSecs limit).2
  | getMutMissing {key : String} {nowSecs limit : ℕ} (hkey : key ∉ g.store.keys) :
      ThreadStep nodeId g (.getMut key nowSecs limit) g (some (.len key nowSecs limit))
  | len {key : String} {nowSecs limit : ℕ} :
      ThreadStep nodeId g (.len key nowSecs limit) g
        (some (.entry (if maxTrackedKeys ≤ g.store.keys.size then overflowKey key else key)
          nowSecs limit))
  | entry {tracked : String} {nowSecs limit : ℕ} :
      ThreadStep nodeId g (.entry tracked nowSecs limit)
        (recordStep nodeId g tracked nowSecs limit).1 (recordStep nodeId g tracked nowSecs limit).2
  | containsTrue {key : String} (hmem : key ∈ g.store.changed) :
      ThreadStep nodeId g (.contains key) g none
  | containsFalse {key : String} (hmem : key ∉ g.store.changed) :
      ThreadStep nodeId g (.contains key) g (some (.insert key))
  | insert {key : String} :
      ThreadStep nodeId g (.insert key) (g.setChanged (g.store.changed.insert key ())) none
  | retainKey {nowSecs : ℕ} {key : String} {todo : List String} :
      ThreadStep nodeId g (.retainKeys nowSecs (key :: todo)) (g.pruneKey nowSecs key)
        (some (.retainKeys nowSecs todo))
  | retainKeysDone {nowSecs : ℕ} (todo : List String) :
      ThreadStep nodeId g (.retainKeys nowSecs []) g (some (.retainChanged todo))
  | retainChangedKeep {key : String} {todo : List String} (hkey : key ∈ g.store.keys) :
      ThreadStep nodeId g (.retainChanged (key :: todo)) g (some (.retainChanged todo))
  | retainChangedDrop {key : String} {todo : List String} (hkey : key ∉ g.store.keys) :
      ThreadStep nodeId g (.retainChanged (key :: todo))
        (g.setChanged (g.store.changed.erase key)) (some (.retainChanged todo))
  | retainChangedDone : ThreadStep nodeId g (.retainChanged []) g none
  | iterKeysEmpty {nowSecs maxEntries maxBytes : ℕ} (hone : g.snapshotting = false) :
      ThreadStep nodeId g (.iterKeys nowSecs maxEntries maxBytes) g none
  | iterKeys {nowSecs maxEntries maxBytes : ℕ} (hone : g.snapshotting = false)
      (keys : List String) (hkeys : keys ≠ []) :
      ThreadStep nodeId g (.iterKeys nowSecs maxEntries maxBytes) { g with snapshotting := true }
        (some (.iterChanged ⟨cutoffSecs nowSecs g.store.windowSecs, maxEntries, maxBytes, keys,
          g.store.snapshotCursor % keys.length, .start⟩))
  | iterChanged {frame : SnapshotFrame} (todo : List String) :
      ThreadStep nodeId g (.iterChanged frame) g (some (.remove frame todo))
  | remove {frame : SnapshotFrame} {key : String} {todo : List String} :
      ThreadStep nodeId g (.remove frame (key :: todo)) (g.setChanged (g.store.changed.erase key))
        (some (.read frame key todo))
  | removeDone {frame : SnapshotFrame} :
      ThreadStep nodeId g (.remove frame []) g (some frame.startRotation)
  | readNone {frame : SnapshotFrame} {key : String} {todo : List String}
      (hread : g.store.ownInWindow key nodeId frame.cutoff = none) :
      ThreadStep nodeId g (.read frame key todo) g (some (.remove frame todo))
  | readOver {frame : SnapshotFrame} {key : String} {todo : List String}
      {inWindow : List (ℕ × ℕ)}
      (hread : g.store.ownInWindow key nodeId frame.cutoff = some inWindow)
      (hover : frame.overBudget key inWindow = true) :
      ThreadStep nodeId g (.read frame key todo) g (some (.putBack frame key))
  | readSend {frame : SnapshotFrame} {key : String} {todo : List String}
      {inWindow : List (ℕ × ℕ)}
      (hread : g.store.ownInWindow key nodeId frame.cutoff = some inWindow)
      (hover : frame.overBudget key inWindow = false) :
      ThreadStep nodeId g (.read frame key todo) (g.send key inWindow)
        (some (.remove (frame.push key inWindow) todo))
  | putBack {frame : SnapshotFrame} {key : String} :
      ThreadStep nodeId g (.putBack frame key) (g.setChanged (g.store.changed.insert key ()))
        (some frame.startRotation)
  | rotateSkip {frame : SnapshotFrame} {included : List String} {n : ℕ}
      (hskip : frame.key ∈ included ∨ g.store.ownInWindow frame.key nodeId frame.cutoff = none) :
      ThreadStep nodeId g (.rotate frame included (n + 1)) g
        (some (.rotate frame.advance included n))
  | rotateOver {frame : SnapshotFrame} {included : List String} {n : ℕ}
      {inWindow : List (ℕ × ℕ)} (hnew : frame.key ∉ included)
      (hread : g.store.ownInWindow frame.key nodeId frame.cutoff = some inWindow)
      (hover : frame.overBudget frame.key inWindow = true) :
      ThreadStep nodeId g (.rotate frame included (n + 1)) (g.finish frame.idx) none
  | rotateSend {frame : SnapshotFrame} {included : List String} {n : ℕ}
      {inWindow : List (ℕ × ℕ)} (hnew : frame.key ∉ included)
      (hread : g.store.ownInWindow frame.key nodeId frame.cutoff = some inWindow)
      (hover : frame.overBudget frame.key inWindow = false) :
      ThreadStep nodeId g (.rotate frame included (n + 1)) (g.send frame.key inWindow)
        (some (.rotate (frame.push frame.key inWindow).advance included n))
  | rotateDone {frame : SnapshotFrame} {included : List String} :
      ThreadStep nodeId g (.rotate frame included 0) (g.finish frame.idx) none

inductive Starts (nowSecs : ℕ) : Thread → Prop
  | tryAdmit (key : String) (t limit : ℕ) : Starts nowSecs (.getMut key t limit)
  | prune (t : ℕ) (todo : List String) : Starts nowSecs (.retainKeys t todo)
  | snapshot {t : ℕ} (h : t ≤ nowSecs) (maxEntries maxBytes : ℕ) :
    Starts nowSecs (.iterKeys t maxEntries maxBytes)

/-! ## A call without interference is the sequential call -/

section

variable (nodeId : String) (g : GossipState)

/-- `mark_changed` is one access when the key is in the set and two when it is not. -/
lemma markChanged_alone (key : String) :
    Alone (ThreadStep nodeId) g (.contains key) { g with store := g.store.markChanged key } := by
  unfold CounterStore.markChanged
  split_ifs with hm
  · exact .last (.containsTrue hm)
  · exact .more (.containsFalse hm) (.last .insert)

lemma record_alone {p : Thread} (tracked : String) (nowSecs limit : ℕ)
    (hs : ThreadStep nodeId g p (recordStep nodeId g tracked nowSecs limit).1
      (recordStep nodeId g tracked nowSecs limit).2) :
    Alone (ThreadStep nodeId) g p
      (let r := tryRecord (g.store.counts tracked) nodeId nowSecs g.store.windowSecs limit
       let s := { g.store with keys := g.store.keys.insert tracked r.2 }
       { g with store := if r.1 then s.markChanged tracked else s }) := by
  unfold recordStep at hs
  generalize tryRecord (g.store.counts tracked) nodeId nowSecs g.store.windowSecs limit = r
    at hs ⊢
  obtain ⟨admitted, counts⟩ := r
  cases admitted with
  | false => exact .last hs
  | true => exact .more hs (markChanged_alone nodeId _ tracked)

/-- `try_admit`. -/
theorem tryAdmit_alone (key : String) (nowSecs limit : ℕ) :
    Alone (ThreadStep nodeId) g (.getMut key nowSecs limit)
      { g with store := (g.store.tryAdmit key nodeId nowSecs limit).2 } := by
  rw [CounterStore.tryAdmit_eq]
  unfold CounterStore.trackedKey
  by_cases hk : key ∈ g.store.keys
  · rw [if_pos hk]
    exact record_alone nodeId g key nowSecs limit (.getMut hk)
  · rw [if_neg hk]
    exact .more (.getMutMissing hk) (.more .len (record_alone nodeId g _ nowSecs limit .entry))

variable (s : CounterStore) (cutoff maxEntries maxBytes : ℕ) (keys included : List String)
  (base : List (String × List (ℕ × ℕ)))

lemma out_push_reverse (acc : SnapshotAcc) (key : String) (inWindow : List (ℕ × ℕ)) :
    (acc.push key inWindow).out.reverse = (key, inWindow) :: acc.out.reverse := by
  rw [SnapshotAcc.push, List.reverse_append]
  rfl

lemma snapshotRotation_alone (changed : Table String Unit) : ∀ (n idx : ℕ) (acc : SnapshotAcc),
    let r := s.snapshotRotation nodeId cutoff maxEntries maxBytes keys included n idx acc
    Alone (ThreadStep nodeId) ⟨{ s with changed := changed }, true, acc.out.reverse ++ base⟩
      (.rotate ⟨cutoff, maxEntries, maxBytes, keys, idx, acc⟩ included n)
      ⟨{ s with changed := changed, snapshotCursor := r.1 }, false, r.2.out.reverse ++ base⟩
  | 0, idx, acc => .last .rotateDone
  | n + 1, idx, acc => by
    unfold CounterStore.snapshotRotation
    by_cases hin : keys.getD idx "" ∈ included
    · rw [if_pos hin]
      exact .more (.rotateSkip (Or.inl hin)) (snapshotRotation_alone changed n _ acc)
    · rw [if_neg hin]
      cases hr : s.ownInWindow (keys.getD idx "") nodeId cutoff with
      | none => exact .more (.rotateSkip (Or.inr hr)) (snapshotRotation_alone changed n _ acc)
      | some inWindow =>
        dsimp only
        split_ifs with ho
        · exact .last (.rotateOver hin hr ho)
        · refine .more (.rotateSend hin hr (Bool.not_eq_true _ ▸ ho)) ?_
          have hre := snapshotRotation_alone changed n ((idx + 1) % keys.length)
            (acc.push (keys.getD idx "") inWindow)
          rw [out_push_reverse] at hre
          exact hre

lemma snapshotChanged_alone (idx : ℕ) {g' : GossipState} : ∀ (todo : List String)
    (changed : Table String Unit) (acc : SnapshotAcc),
    let r := s.snapshotChanged nodeId cutoff maxEntries maxBytes todo changed acc
    Alone (ThreadStep nodeId) ⟨{ s with changed := r.1 }, true, r.2.out.reverse ++ base⟩
      (SnapshotFrame.startRotation ⟨cutoff, maxEntries, maxBytes, keys, idx, r.2⟩) g' →
    Alone (ThreadStep nodeId) ⟨{ s with changed := changed }, true, acc.out.reverse ++ base⟩
      (.remove ⟨cutoff, maxEntries, maxBytes, keys, idx, acc⟩ todo) g'
  | [], changed, acc, h => .more .removeDone h
  | key :: todo, changed, acc, h => by
    refine .more .remove ?_
    unfold CounterStore.snapshotChanged at h
    cases hr : s.ownInWindow key nodeId cutoff with
    | none =>
      rw [hr] at h
      exact .more (.readNone hr) (snapshotChanged_alone idx todo (changed.erase key) acc h)
    | some inWindow =>
      rw [hr] at h
      dsimp only at h
      split_ifs at h with ho
      · exact .more (.readOver hr ho) (.more .putBack h)
      · refine .more (.readSend hr (Bool.not_eq_true _ ▸ ho)) ?_
        have hre := snapshotChanged_alone idx todo (changed.erase key)
          (acc.push key inWindow) h
        rw [out_push_reverse] at hre
        exact hre

lemma pruneKey_eq (nowSecs : ℕ) (key : String) :
    ∃ keys, g.pruneKey nowSecs key = { g with store := { g.store with keys := keys } } := by
  unfold GossipState.pruneKey
  cases g.store.keys.get key with
  | none => exact ⟨g.store.keys, rfl⟩
  | some counts =>
    dsimp only
    split_ifs
    · exact ⟨_, rfl⟩
    · exact ⟨_, rfl⟩

lemma get_pruneKey (nowSecs : ℕ) (key k : String) :
    (g.pruneKey nowSecs key).store.keys.get k =
      if k = key then ((g.store.keys.get k).map fun counts =>
        counts.prune nowSecs g.store.windowSecs).filter fun counts => counts.perNode.size ≠ 0
      else g.store.keys.get k := by
  unfold GossipState.pruneKey
  cases hg : g.store.keys.get key with
  | none =>
    by_cases hk : k = key
    · rw [if_pos hk, hk, hg]
      rfl
    · rw [if_neg hk]
  | some counts =>
    dsimp only
    by_cases hk : k = key
    · subst hk
      rw [if_pos rfl, hg, map_some, filter_some]
      split_ifs with hs hne hne
      · exact absurd hs (by simpa using hne)
      · exact (get_erase ..).trans (if_pos rfl)
      · exact (get_insert ..).trans (if_pos rfl)
      · exact absurd (by simpa using hne) hs
    · rw [if_neg hk]
      split_ifs
      · exact (get_erase ..).trans (if_neg hk)
      · exact (get_insert ..).trans (if_neg hk)

/-- `snapshot_own_capped`, when the iterations list what is there. -/
theorem snapshotOwnCapped_alone (ho : g.snapshotting = false) (nowSecs : ℕ) :
    Alone (ThreadStep nodeId) g (.iterKeys nowSecs maxEntries maxBytes)
      { g with
        store := (g.store.snapshotOwnCapped nodeId nowSecs maxEntries maxBytes).2
        sent := (g.store.snapshotOwnCapped nodeId nowSecs maxEntries maxBytes).1.reverse
          ++ g.sent } := by
  obtain ⟨s, snapshotting, sent⟩ := g
  obtain rfl : snapshotting = false := ho
  unfold CounterStore.snapshotOwnCapped
  dsimp only
  split_ifs with hk
  · exact .last (.iterKeysEmpty rfl)
  · refine .more (.iterKeys rfl (s.ownKeys nodeId) (mt List.isEmpty_iff.mpr hk)) ?_
    refine .more (.iterChanged s.changedKeys) ?_
    exact snapshotChanged_alone nodeId s _ maxEntries maxBytes (s.ownKeys nodeId) sent _
      s.changedKeys s.changed .start (snapshotRotation_alone nodeId s _ _ _ _ _ sent _ _ _ _)

end

/-! ## What each access does to an own count -/

namespace GossipState

variable (g : GossipState) (nodeId : String)

lemma count_setCounts (key : String) (counts : KeyCounts) (k : String) (epoch : ℕ) :
    (g.setCounts key counts).store.count k nodeId epoch =
      if k = key then counts.count nodeId epoch else g.store.count k nodeId epoch := by
  unfold CounterStore.count CounterStore.counts setCounts
  rw [get_insert]
  split_ifs with h
  · rfl
  · rfl

lemma count_pruneKey_le (now : ℕ) (key k : String) (epoch : ℕ) :
    (g.pruneKey now key).store.count k nodeId epoch ≤ g.store.count k nodeId epoch := by
  unfold CounterStore.count CounterStore.counts
  rw [get_pruneKey]
  split_ifs with hk
  · cases g.store.keys.get k with
    | none => exact le_rfl
    | some counts =>
      rw [map_some, filter_some]
      split_ifs
      · rw [getD_some, KeyCounts.count, KeyCounts.cell_prune]
        split_ifs
        · exact le_rfl
        · exact Nat.zero_le _
      · exact Nat.zero_le _
  · exact le_rfl

lemma lastSent_send {key : String} {cutoff : ℕ} {inWindow : List (ℕ × ℕ)}
    (h : g.store.ownInWindow key nodeId cutoff = some inWindow) {epoch : ℕ} (he : cutoff ≤ epoch) :
    (g.send key inWindow).lastSent key epoch = g.store.count key nodeId epoch := by
  have hm := g.store.mem_of_ownInWindow_eq_some nodeId h epoch
  unfold lastSent send CounterStore.count KeyCounts.count
  rw [List.lookup_cons_self, bind_some]
  congr 1
  cases hl : inWindow.lookup epoch with
  | none =>
    cases hc : (g.store.counts key).cell nodeId epoch with
    | none => rfl
    | some v =>
      rw [List.lookup_eq_none_iff] at hl
      simpa using hl _ ((hm v).mpr ⟨he, hc⟩)
  | some v =>
    obtain ⟨l₁, l₂, heq, -⟩ := List.lookup_eq_some_iff.mp hl
    have hin : (epoch, v) ∈ inWindow := by rw [heq]; simp
    exact ((hm v).mp hin).2.symm

/-- A key has an own count, from `cutoff` on, that no snapshot has reported, and is not in the
changed set. -/
def Forgotten (cutoff : ℕ) (k : String) : Prop :=
  k ∉ g.store.changed ∧ ∃ epoch, cutoff ≤ epoch ∧
    g.lastSent k epoch < g.store.count k nodeId epoch

variable {g nodeId} {g' : GossipState} {cutoff : ℕ} {k : String}

lemma Forgotten.of_le (h : g'.Forgotten nodeId cutoff k)
    (hc : k ∈ g.store.changed → k ∈ g'.store.changed)
    (hco : ∀ epoch, cutoff ≤ epoch →
      g'.store.count k nodeId epoch ≤ g.store.count k nodeId epoch)
    (hs : ∀ epoch, cutoff ≤ epoch → g.lastSent k epoch ≤ g'.lastSent k epoch) :
    g.Forgotten nodeId cutoff k := by
  obtain ⟨hn, epoch, he, hlt⟩ := h
  exact ⟨fun hm => hn (hc hm), epoch, he, (hs epoch he).trans_lt (hlt.trans_le (hco epoch he))⟩

end GossipState

/-! ## No schedule forgets a count -/

namespace Thread

/-- The key a thread has made unreported or taken out of the changed set, and has not dealt with
yet: recorded but not marked, or removed but neither read nor put back. -/
def Owes : Thread → String → Prop
  | .contains key, k => k = key
  | .insert key, k => k = key
  | .read _ key _, k => k = key
  | .putBack _ key, k => k = key
  | _, _ => False

/-- A snapshot's cutoff is at most that of `nowSecs`. -/
def NotAfter (nowSecs windowSecs : ℕ) : Thread → Prop
  | .iterKeys t _ _ => t ≤ nowSecs
  | .iterChanged frame => frame.cutoff ≤ cutoffSecs nowSecs windowSecs
  | .remove frame _ => frame.cutoff ≤ cutoffSecs nowSecs windowSecs
  | .read frame _ _ => frame.cutoff ≤ cutoffSecs nowSecs windowSecs
  | .putBack frame _ => frame.cutoff ≤ cutoffSecs nowSecs windowSecs
  | .rotate frame _ _ => frame.cutoff ≤ cutoffSecs nowSecs windowSecs
  | _ => True

end Thread

section

variable {nodeId : String} {g g' : GossipState} {p : Thread} {next : Option Thread} {now : ℕ}

lemma Starts.notAfter (h : Starts now p) (w : ℕ) : p.NotAfter now w := by
  cases h with
  | tryAdmit | prune => trivial
  | snapshot h maxEntries maxBytes => exact h

/-- What `try_admit` does under an entry's lock: it changes the counts of one key, and then has
that key to mark, or it leaves them as they are. -/
lemma recordStep_spec (nodeId : String) (g : GossipState) (key : String) (t limit : ℕ) :
    ∃ counts, (recordStep nodeId g key t limit).1 = g.setCounts key counts ∧
      ((recordStep nodeId g key t limit).2 = some (.contains key) ∨
        (recordStep nodeId g key t limit).2 = none ∧ counts = g.store.counts key) := by
  unfold recordStep tryRecord
  split_ifs with hl
  · exact ⟨_, rfl, Or.inr ⟨rfl, rfl⟩⟩
  · exact ⟨_, rfl, Or.inl rfl⟩

lemma notAfter_recordStep (w : ℕ) (key : String) (t limit : ℕ) (hw : g.store.windowSecs = w) :
    (recordStep nodeId g key t limit).1.store.windowSecs = w ∧
      ∀ q ∈ (recordStep nodeId g key t limit).2, q.NotAfter now w := by
  obtain ⟨counts, hs, hn | ⟨hn, -⟩⟩ := recordStep_spec nodeId g key t limit
  · rw [hn]
    exact ⟨hw, by rintro q ⟨⟩; trivial⟩
  · rw [hn]
    exact ⟨hw, by rintro q ⟨⟩⟩

lemma ThreadStep.notAfter {w : ℕ} (hw : g.store.windowSecs = w) (hp : p.NotAfter now w)
    (h : ThreadStep nodeId g p g' next) :
    g'.store.windowSecs = w ∧ ∀ q ∈ next, q.NotAfter now w := by
  cases h with
  | getMut | entry => exact notAfter_recordStep w _ _ _ hw
  | @retainKey t key todo =>
    obtain ⟨keys, heq⟩ := pruneKey_eq g t key
    rw [heq]
    exact ⟨hw, by rintro q ⟨⟩; trivial⟩
  | iterKeys ho keys hk =>
    refine ⟨hw, ?_⟩
    rintro q ⟨⟩
    subst hw
    exact cutoffSecs_mono hp _
  | _ => exact ⟨hw, by rintro q ⟨⟩ <;> trivial⟩

lemma forgotten_recordStep {cutoff : ℕ} {key k : String} {t limit : ℕ}
    (hk : (recordStep nodeId g key t limit).1.Forgotten nodeId cutoff k) :
    (∃ q ∈ (recordStep nodeId g key t limit).2, q.Owes k) ∨ g.Forgotten nodeId cutoff k := by
  obtain ⟨counts, hs, hn⟩ := recordStep_spec nodeId g key t limit
  rw [hs] at hk
  by_cases hm : k = key ∧ (recordStep nodeId g key t limit).2 = some (.contains key)
  · exact Or.inl ⟨_, hm.2, hm.1⟩
  · refine Or.inr (hk.of_le (fun h => h) (fun epoch _ => ?_) fun _ _ => le_rfl)
    rw [g.count_setCounts]
    split_ifs with hke
    · obtain ⟨-, rfl⟩ := hn.resolve_left fun h => hm ⟨hke, h⟩
      rw [hke, CounterStore.count]
    · exact le_rfl

lemma forgotten_send {cutoff bound : ℕ} {key k : String} {inWindow : List (ℕ × ℕ)}
    (hr : g.store.ownInWindow key nodeId cutoff = some inWindow) (hle : cutoff ≤ bound)
    (hk : (g.send key inWindow).Forgotten nodeId bound k) :
    k ≠ key ∧ g.Forgotten nodeId bound k := by
  have hne : k ≠ key := by
    rintro rfl
    obtain ⟨-, epoch, he, hlt⟩ := hk
    rw [g.lastSent_send nodeId hr (hle.trans he)] at hlt
    exact lt_irrefl _ hlt
  refine ⟨hne, hk.of_le (fun h => h) (fun _ _ => le_rfl) fun epoch _ => ?_⟩
  unfold GossipState.lastSent GossipState.send
  rw [List.lookup_cons, beq_eq_false_iff_ne.mpr hne]

lemma forgotten_insert {cutoff : ℕ} {key k : String}
    (hk : (g.setChanged (g.store.changed.insert key ())).Forgotten nodeId cutoff k) :
    k ≠ key ∧ g.Forgotten nodeId cutoff k := by
  refine ⟨?_, hk.of_le (fun h => mem_insert _ |>.mpr (Or.inr h)) (fun _ _ => le_rfl)
    fun _ _ => le_rfl⟩
  rintro rfl
  exact hk.1 (mem_insert _ |>.mpr (Or.inl rfl))

lemma forgotten_erase {cutoff : ℕ} {key k : String}
    (hk : (g.setChanged (g.store.changed.erase key)).Forgotten nodeId cutoff k) :
    k = key ∨ g.Forgotten nodeId cutoff k := by
  by_cases hne : k = key
  · exact Or.inl hne
  · exact Or.inr (hk.of_le (fun h => mem_erase.mpr ⟨hne, h⟩) (fun _ _ => le_rfl)
      fun _ _ => le_rfl)

/-- **No access forgets a key.**  A key that is forgotten after an access is owed by the thread
that made it, or was forgotten before and is owed by another. -/
lemma ThreadStep.forgotten {w : ℕ} (hp : p.NotAfter now w) (h : ThreadStep nodeId g p g' next)
    (k : String) (hk : g'.Forgotten nodeId (cutoffSecs now w) k) :
    (∃ q ∈ next, q.Owes k) ∨ (g.Forgotten nodeId (cutoffSecs now w) k ∧ ¬ p.Owes k) := by
  cases h with
  | getMut | entry => exact (forgotten_recordStep hk).imp_right fun h => ⟨h, id⟩
  | containsTrue hm =>
    refine Or.inr ⟨hk, ?_⟩
    rintro rfl
    exact hk.1 hm
  | @containsFalse key hm =>
    by_cases hke : k = key
    · exact Or.inl ⟨_, rfl, hke⟩
    · exact Or.inr ⟨hk, hke⟩
  | @retainKey t key todo =>
    have hc := g.count_pruneKey_le nodeId t key k
    obtain ⟨keys, heq⟩ := pruneKey_eq g t key
    rw [heq] at hk hc
    exact Or.inr ⟨hk.of_le id (fun epoch _ => hc epoch) fun _ _ => le_rfl, id⟩
  | retainChangedDrop hke =>
    refine Or.inr ⟨(forgotten_erase hk).resolve_left ?_, id⟩
    rintro rfl
    -- a key that is not tracked has no counts
    obtain ⟨-, epoch, -, hlt⟩ := hk
    have hz : g.store.count k nodeId epoch = 0 := by
      rw [CounterStore.count, CounterStore.counts, get_eq_none_iff.mpr hke]
      rfl
    exact Nat.not_lt_zero _ (hlt.trans_eq hz)
  | @remove frame key todo =>
    rcases forgotten_erase hk with hke | hk
    · exact Or.inl ⟨_, rfl, hke⟩
    · exact Or.inr ⟨hk, id⟩
  | @readNone frame key todo hr =>
    refine Or.inr ⟨hk, ?_⟩
    rintro rfl
    -- nothing to report in the snapshot's window, so nothing in a later one
    obtain ⟨-, epoch, he, hlt⟩ := hk
    have hce := CounterStore.cell_eq_of_count_pos ((Nat.zero_le _).trans_lt hlt)
    obtain ⟨inWindow, hs⟩ := g.store.exists_ownInWindow_of_cell nodeId hce (hp.trans he)
    rw [hr] at hs
    cases hs
  | @readOver frame key todo inWindow hr ho =>
    by_cases hke : k = key
    · exact Or.inl ⟨_, rfl, hke⟩
    · exact Or.inr ⟨hk, hke⟩
  | readSend hr ho => exact Or.inr (forgotten_send hr hp hk).symm
  | insert | putBack => exact Or.inr (forgotten_insert hk).symm
  | rotateSend hn hr ho => exact Or.inr ⟨(forgotten_send hr hp hk).2, id⟩
  | _ => exact Or.inr ⟨hk, id⟩

end

/-- **Gossip forgets no admitted count.**  Any number of admissions, prunes and snapshots, one
snapshot at a time, are interleaved access by access.  Once all of them have returned, a key with
an own count in the window of `now` that is larger than what the last snapshot with that key
reported is in the changed set.  `now` is any time not before the clock readings of the snapshots.
-/
theorem unreported_key_changed (nodeId : String) (windowSecs now : ℕ)
    {events : List (Event Thread)} {c : Config GossipState Thread}
    (hrun : Run (Step (Starts now) (ThreadStep nodeId)) (idle (.new windowSecs)) events c)
    (hquiet : Quiescent c) (key : String) (epoch : ℕ)
    (hwindow : cutoffSecs now c.shared.store.windowSecs ≤ epoch)
    (hlarger : c.shared.lastSent key epoch < c.shared.store.count key nodeId epoch) :
    key ∈ c.shared.store.changed := by
  -- the window length is that of the store, and every snapshot's cutoff is at most that of `now`
  let J (g : GossipState) : Prop := g.store.windowSecs = max windowSecs 1
  let I : Thread → Prop := Thread.NotAfter now (max windowSecs 1)
  have hini : J (.new windowSecs) := rfl
  have hs : ∀ p, Starts now p → I p := fun p hp => hp.notAfter _
  have hst : ∀ g p g' next, J g → I p → ThreadStep nodeId g p g' next →
      J g' ∧ ∀ q ∈ next, I q := fun g p g' next hw hp h => h.notAfter hw hp
  have hwi : J c.shared := (thread_invariant hini hs hst hrun).1
  have hn := not_debt_of_quiescent hini hs hst hrun
    (fun g k => g.Forgotten nodeId (cutoffSecs now (max windowSecs 1)) k) Thread.Owes
    (fun k ⟨_, epoch, _, hlt⟩ => Nat.not_lt_zero _ hlt)
    (fun g p g' next _ hp h => h.forgotten hp) hquiet key
  by_contra hno
  rw [hwi] at hwindow
  exact hn ⟨hno, epoch, hwindow, hlarger⟩

/-- An admission, a snapshot that reports it, and a second admission in the same second. -/
theorem unreported_key_changed_second : ∃ events c,
    Run (Step (Starts 10) (ThreadStep "n")) (idle (.new 10)) events c ∧
      c.shared.lastSent "k" 10 = 1 ∧ c.shared.store.count "k" "n" 10 = 2 ∧
      "k" ∈ c.shared.store.changed := by
  have h : Run (Step (Starts 10) (ThreadStep "n")) (idle (.new 10)) [] (idle (.new 10)) := .start
  obtain ⟨_, h⟩ := exists_run_call h (.tryAdmit "k" 10 5) (tryAdmit_alone "n" _ "k" 10 5)
  obtain ⟨_, h⟩ := exists_run_call h (.snapshot le_rfl 5 1000)
    (snapshotOwnCapped_alone "n" _ 5 1000 rfl 10)
  obtain ⟨events, h⟩ := exists_run_call h (.tryAdmit "k" 10 5) (tryAdmit_alone "n" _ "k" 10 5)
  refine ⟨events, _, h, by decide, by decide, ?_⟩
  exact unreported_key_changed "n" 10 10 h (fun _ => rfl) "k" 10 (by decide) (by decide)

end LoadBalancer.Cluster
