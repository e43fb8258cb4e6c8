import LoadBalancer.Cluster.StoreRun

/-!
# Which changed keys are gossiped, and when

A snapshot serves the changed keys in sorted order until a cap is reached, and then, if there is
room left, other keys from a cursor on.  A changed key that does not fit stays queued, and the next
snapshot starts again at the smallest changed key.

So a key waits only for keys that sort before it, and every snapshot takes the smallest queued key
off the queue.  But a key that sorts before it and is admitted before every snapshot takes its
place in all of them.
-/

namespace LoadBalancer.Cluster

open List

/-! ## Rounds -/

/-- The calls on a node's store between two snapshots. -/
def IsOwnCall (nodeId : String) (e : StoreEvent) : Prop :=
  e.IsOwn nodeId ∧ ∀ n now maxEntries maxBytes out, e ≠ .snapshot n now maxEntries maxBytes out

/-- Some calls and the snapshot that follows them, taken in state `ready`. -/
structure SnapshotRound where
  calls : List StoreEvent
  ready : CounterStore
  now : ℕ
  maxEntries : ℕ
  maxBytes : ℕ
  out : List (String × List (ℕ × ℕ))

namespace SnapshotRound

def Step (nodeId : String) (s : CounterStore) (r : SnapshotRound) (s' : CounterStore) : Prop :=
  Run StoreEvent.Step s r.calls r.ready ∧ (∀ e ∈ r.calls, IsOwnCall nodeId e) ∧
    (StoreEvent.snapshot nodeId r.now r.maxEntries r.maxBytes r.out).Step r.ready s'

def cutoff (r : SnapshotRound) : ℕ := cutoffSecs r.now r.ready.windowSecs

/-- The key has an own in-window cell when the snapshot is taken. -/
def InWindow (nodeId key : String) (r : SnapshotRound) : Prop :=
  (r.ready.ownInWindow key nodeId r.cutoff).isSome

def Sends (key : String) (r : SnapshotRound) : Prop := key ∈ r.out.map fun item => item.1

/-- The changed keys up to `key` fit the caps together. -/
def Fits (nodeId key : String) (r : SnapshotRound) : Prop :=
  r.ready.queuedEntries nodeId r.cutoff (r.ready.changedKeys.filter (· ≤ key)) ≤ r.maxEntries ∧
    r.ready.queuedBytes nodeId r.cutoff (r.ready.changedKeys.filter (· ≤ key)) ≤ r.maxBytes

/-- A round that does not push `key` back: its cell stays in the window, and either the queue up
to it fits the caps, or no key that sorts before it was newly queued. -/
def Fair (nodeId key : String) (s : CounterStore) (r : SnapshotRound) (s' : CounterStore) :
    Prop :=
  r.Step nodeId s s' ∧ r.InWindow nodeId key ∧
    (r.Fits nodeId key ∨ ∀ k ∈ r.ready.changed, k < key → k ∈ s.changed)

end SnapshotRound

/-! ## The queue between snapshots -/

section

variable {nodeId key : String} {s s' : CounterStore} {e : StoreEvent}

lemma StoreEvent.Step.changed_subset (h : e.Step s s') (hs : ∀ k ∈ s.changed, k ∈ s.keys) :
    ∀ k ∈ s'.changed, k ∈ s'.keys := by
  cases e with
  | tryAdmit k₀ n now limit admitted =>
    obtain ⟨-, rfl⟩ := step_tryAdmit_iff.mp h
    intro k hk
    rw [s.keys_tryAdmit, AList.mem_insert]
    rcases (s.mem_changed_tryAdmit k₀ n k now limit).mp hk with ⟨rfl, -⟩ | hk
    · exact Or.inl rfl
    · exact Or.inr (hs k hk)
  | merge k₀ n buckets now =>
    obtain rfl : s.merge k₀ n buckets now = s' := h
    intro k hk
    rw [s.changed_merge] at hk
    exact s.mem_keys_merge_of_mem (hs k hk) _ _ _ _
  | prune now =>
    obtain rfl : s.prune now = s' := h
    exact fun k hk => ((s.mem_changed_prune now k).mp hk).2
  | snapshot n now maxEntries maxBytes out =>
    intro k hk
    rw [h.keys_snapshot]
    exact hs k (h.changed_snapshot_subset k hk)

lemma changed_subset_of_run {w : ℕ} {events : List StoreEvent}
    (hr : Run StoreEvent.Step (CounterStore.new w) events s) : ∀ k ∈ s.changed, k ∈ s.keys :=
  hr.invariant (I := fun s => ∀ k ∈ s.changed, k ∈ s.keys)
    (fun _ _ _ h hs => h.changed_subset hs) (fun k h => absurd h (AList.notMem_empty k))

/-- Between snapshots a queued key leaves the queue only with its last own cell. -/
lemma StoreEvent.Step.queued (h : e.Step s s') (ho : IsOwnCall nodeId e)
    (hs : key ∈ s.changed ∨ ∀ epoch, s.cell key nodeId epoch = none) :
    key ∈ s'.changed ∨ ∀ epoch, s'.cell key nodeId epoch = none := by
  cases e with
  | tryAdmit k₀ n now limit admitted =>
    obtain ⟨-, rfl⟩ := step_tryAdmit_iff.mp h
    by_cases hke : key = s.trackedKey k₀ ∧ (s.tryAdmit k₀ n now limit).1 = true
    · exact Or.inl ((s.mem_changed_tryAdmit k₀ n key now limit).mpr (Or.inl hke))
    · refine hs.imp (fun hs => (s.mem_changed_tryAdmit k₀ n key now limit).mpr (Or.inr hs)) ?_
      intro hn epoch
      rw [s.cell_tryAdmit, if_neg fun hc => hke ⟨hc.2.1, hc.1⟩]
      exact hn epoch
  | merge k₀ n buckets now =>
    obtain rfl : s.merge k₀ n buckets now = s' := h
    rw [s.changed_merge]
    refine hs.imp_right fun hn epoch => ?_
    rw [s.cell_merge_of_ne (Ne.symm ho.1)]
    exact hn epoch
  | prune now =>
    obtain rfl : s.prune now = s' := h
    by_cases hk : key ∈ (s.prune now).keys
    · refine hs.imp (fun hs => (s.mem_changed_prune now key).mpr ⟨hs, hk⟩) ?_
      intro hn epoch
      rw [s.cell_prune, hn epoch, ite_self]
    · refine Or.inr fun epoch => ?_
      by_contra hce
      obtain ⟨v, hv⟩ := Option.ne_none_iff_exists'.mp hce
      exact hk ((s.prune now).mem_keys_of_cell hv)
  | snapshot => exact absurd rfl (ho.2 _ _ _ _ _)

lemma queued_of_calls {calls : List StoreEvent} (hr : Run StoreEvent.Step s calls s')
    (ho : ∀ e ∈ calls, IsOwnCall nodeId e) (hs : key ∈ s.changed) :
    key ∈ s'.changed ∨ ∀ epoch, s'.cell key nodeId epoch = none := by
  induction hr with
  | start => exact Or.inl hs
  | next _ hst ih =>
    exact hst.queued (ho _ (mem_append_right _ (mem_singleton_self _)))
      (ih fun e he => ho e (mem_append_left _ he))

end

/-! ## Progress -/

section

variable {nodeId key : String} {s₀ s s' : CounterStore} {r : SnapshotRound}

def backlog (key : String) (s : CounterStore) : Finset String :=
  s.changed.keys.toFinset.filter (· < key)

lemma mem_backlog {k : String} : k ∈ backlog key s ↔ k ∈ s.changed ∧ k < key := by
  rw [backlog, Finset.mem_filter, mem_toFinset, ← AList.mem_keys]

lemma SnapshotRound.Sends.intro {inWindow : List (ℕ × ℕ)} (h : (key, inWindow) ∈ r.out) :
    r.Sends key :=
  mem_map.mpr ⟨_, h, rfl⟩

variable (h : r.Step nodeId s s') (hin : r.InWindow nodeId key)

include h hin

lemma SnapshotRound.Step.queued (hs : key ∈ s.changed) : key ∈ r.ready.changed := by
  obtain ⟨inWindow, hk⟩ := Option.isSome_iff_exists.mp hin
  refine (queued_of_calls h.1 h.2.1 hs).resolve_right fun hn => ?_
  obtain ⟨⟨epoch, v⟩, hm⟩ := exists_mem_of_ne_nil _ (r.ready.ownInWindow_ne_nil nodeId hk)
  have hc := ((r.ready.mem_of_ownInWindow_eq_some nodeId hk epoch v).mp hm).2
  rw [hn epoch] at hc
  cases hc

/-- **One round.**  A snapshot with `key` in the queue sends it, or keeps it queued and takes a
key before it off the queue. -/
lemma SnapshotRound.Step.progress (hr : key ∈ r.ready.changed) :
    r.Sends key ∨ (key ∈ s'.changed ∧ (backlog key s').card < (backlog key r.ready).card) := by
  obtain ⟨inWindow, hke⟩ := Option.isSome_iff_exists.mp hin
  obtain ⟨hc, ho⟩ := r.ready.snapshotOwnCapped_queue nodeId hke r.maxEntries r.maxBytes
  rw [show r.ready.snapshotOwnCapped nodeId r.now r.maxEntries r.maxBytes = (r.out, s') from h.2.2]
    at hc ho
  have hm := r.ready.mem_changedKeys.mpr hr
  have hs := r.ready.changedKeys_sorted
  have hn := r.ready.changedKeys_nodup
  cases hq : r.ready.changedKeys with
  | nil => simp [hq] at hm
  | cons k rest =>
    rw [hq] at hc ho hm hs hn
    rcases eq_or_ne key k with rfl | hne
    · exact Or.inl (.intro (ho _ (r.ready.head_mem_out nodeId _ _ _ hke rest _)))
    -- the smallest queued key sorts before `key` and leaves the queue
    have hlt : k < key := lt_of_le_of_ne ((pairwise_cons.mp hs).1 key
        ((mem_cons.mp hm).resolve_left hne)) hne.symm
    have hk : k ∉ s'.changed := by
      rw [hc]
      exact r.ready.head_notMem_changed nodeId _ _ _ (nodup_cons.mp hn).1 _
    have hkr : k ∈ r.ready.changed := by
      rw [← r.ready.mem_changedKeys, hq]
      exact mem_cons_self ..
    rcases r.ready.mem_changed_or_mem_out nodeId _ r.maxEntries r.maxBytes hke (k :: rest)
      r.ready.changed .start hr with hst | hse
    · refine Or.inr ⟨hc ▸ hst, Finset.card_lt_card ?_⟩
      rw [Finset.ssubset_iff_of_subset]
      · exact ⟨k, mem_backlog.mpr ⟨hkr, hlt⟩, fun hm => hk (mem_backlog.mp hm).1⟩
      · intro k' hk'
        obtain ⟨hk', hlt'⟩ := mem_backlog.mp hk'
        exact mem_backlog.mpr ⟨h.2.2.changed_snapshot_subset k' hk', hlt'⟩
    · exact Or.inl (.intro (ho _ hse))

lemma SnapshotRound.Step.sends_of_fits (hr : key ∈ r.ready.changed)
    (hf : r.Fits nodeId key) :
    r.Sends key := by
  obtain ⟨inWindow, hk⟩ := Option.isSome_iff_exists.mp hin
  obtain ⟨-, ho⟩ := r.ready.snapshotOwnCapped_queue nodeId hk r.maxEntries r.maxBytes
  rw [show r.ready.snapshotOwnCapped nodeId r.now r.maxEntries r.maxBytes = (r.out, s') from h.2.2]
    at ho
  refine .intro (ho _ (r.ready.mem_out_of_fits nodeId _ _ _ hk _ _ _
    r.ready.changedKeys_sorted (r.ready.mem_changedKeys.mpr hr) ?_ ?_))
  · simpa [SnapshotAcc.start] using hf.1
  · simpa [SnapshotAcc.start] using hf.2

omit h hin

/-- **A run of fair rounds.**  Until the key is sent it stays queued, and every round shortens
the queue before it. -/
lemma sends_or_backlog_le {rounds : List SnapshotRound} (hq : key ∈ s₀.changed)
    (hru : Run (SnapshotRound.Fair nodeId key) s₀ rounds s) :
    (∃ r ∈ rounds, r.Sends key) ∨
      (key ∈ s.changed ∧ (backlog key s).card + rounds.length ≤ (backlog key s₀).card) := by
  induction hru with
  | start => exact Or.inr ⟨hq, le_rfl⟩
  | @next rounds s s' r _ hf ih =>
    obtain ⟨hst, hin, hc⟩ := hf
    rcases ih with ⟨r', hr', hs⟩ | ⟨hke, hca⟩
    · exact Or.inl ⟨r', mem_append_left _ hr', hs⟩
    have hl : r ∈ rounds ++ [r] := mem_append_right _ (mem_singleton_self r)
    have hr := hst.queued hin hke
    rcases hc with hfi | ho
    · exact Or.inl ⟨r, hl, hst.sends_of_fits hin hr hfi⟩
    rcases hst.progress hin hr with hs | ⟨hk', hlt⟩
    · exact Or.inl ⟨r, hl, hs⟩
    · have hsu : backlog key r.ready ⊆ backlog key s := by
        intro k hk
        obtain ⟨hk, hlt⟩ := mem_backlog.mp hk
        exact mem_backlog.mpr ⟨ho k hk hlt, hlt⟩
      have hle := Finset.card_le_card hsu
      refine Or.inr ⟨hk', ?_⟩
      rw [length_append, length_singleton]
      omega

lemma card_backlog_lt_size (hq : key ∈ s.changed) (hs : ∀ k ∈ s.changed, k ∈ s.keys) :
    (backlog key s).card < s.keys.size := by
  have hlt : backlog key s ⊂ s.keys.keys.toFinset := by
    rw [Finset.ssubset_iff_of_subset]
    · refine ⟨key, ?_, fun h => lt_irrefl key (mem_backlog.mp h).2⟩
      exact mem_toFinset.mpr (AList.mem_keys.mp (hs key hq))
    · intro k hk
      exact mem_toFinset.mpr (AList.mem_keys.mp (hs k (mem_backlog.mp hk).1))
  have hc := Finset.card_lt_card hlt
  rwa [toFinset_card_of_nodup s.keys.keys_nodup, ← AList.size_eq_length_keys] at hc

/-- **A changed key is sent within as many snapshots as there are tracked keys**, in every run
whose rounds keep a cell of it in the window and either fit the queue up to it into the caps or
queue no new key that sorts before it. -/
theorem queued_key_sent {w : ℕ} {history : List StoreEvent} {rounds : List SnapshotRound}
    (hhistory : Run StoreEvent.Step (CounterStore.new w) history s₀)
    (hqueued : key ∈ s₀.changed)
    (hrun : Run (SnapshotRound.Fair nodeId key) s₀ rounds s)
    (hlen : s₀.keys.size ≤ rounds.length) : ∃ r ∈ rounds, r.Sends key := by
  rcases sends_or_backlog_le hqueued hrun with hs | ⟨-, hc⟩
  · exact hs
  · have hlt := card_backlog_lt_size hqueued (changed_subset_of_run hhistory)
    omega

end

def snapshotOnly (s : CounterStore) (nodeId : String) (now maxEntries maxBytes : ℕ) :
    SnapshotRound :=
  ⟨[], s, now, maxEntries, maxBytes, (s.snapshotOwnCapped nodeId now maxEntries maxBytes).1⟩

lemma fair_snapshotOnly {s : CounterStore} {nodeId key : String} {now : ℕ}
    (hin : (s.ownInWindow key nodeId (cutoffSecs now s.windowSecs)).isSome)
    (maxEntries maxBytes : ℕ) :
    (snapshotOnly s nodeId now maxEntries maxBytes).Fair nodeId key s
      (s.snapshotOwnCapped nodeId now maxEntries maxBytes).2 :=
  ⟨⟨.start, (fun _ he => absurd he not_mem_nil), Prod.ext rfl rfl⟩, hin,
    Or.inr fun _ hk _ => hk⟩

/-- Two queued keys and room for one entry: the second snapshot sends `b`. -/
theorem queued_key_sent_second :
    let s₀ := ((CounterStore.new 1).tryAdmit "a" "n" 0 1).2
    let s₁ := (s₀.tryAdmit "b" "n" 0 1).2
    let s₂ := (s₁.snapshotOwnCapped "n" 0 1 maxSnapshotBytes).2
    "b" ∈ s₁.changed ∧ ∃ r ∈ [snapshotOnly s₁ "n" 0 1 maxSnapshotBytes,
      snapshotOnly s₂ "n" 0 1 maxSnapshotBytes], r.Sends "b" := by
  intro s₀ s₁ s₂
  have ha : StoreEvent.Step (CounterStore.new 1) (.tryAdmit "a" "n" 0 1 true) s₀ :=
    .tryAdmit (by decide)
  have hb : StoreEvent.Step s₀ (.tryAdmit "b" "n" 0 1 true) s₁ := .tryAdmit (by decide)
  have h₁ : (snapshotOnly s₁ "n" 0 1 maxSnapshotBytes).Fair "n" "b" s₁ s₂ :=
    fair_snapshotOnly (by decide +kernel) 1 maxSnapshotBytes
  have h₂ : (snapshotOnly s₂ "n" 0 1 maxSnapshotBytes).Fair "n" "b" s₂
      (s₂.snapshotOwnCapped "n" 0 1 maxSnapshotBytes).2 :=
    fair_snapshotOnly (by decide +kernel) 1 maxSnapshotBytes
  have hq : "b" ∈ s₁.changed := by decide
  refine ⟨hq, queued_key_sent ((Run.start.next ha).next hb) hq
    ((Run.start.next h₁).next h₂) ?_⟩
  decide

/-! ## Starvation

Node `n` with a window of one second and room for one entry in a snapshot.  In every second it
admits a request for `a` and one for `b`; every snapshot sends `a`, and `b` is put back. -/

section

variable {s : CounterStore} {t : ℕ}

/-- Before second `t` of the run. -/
structure Quiet (s : CounterStore) (t : ℕ) : Prop where
  window : s.windowSecs = 1
  keys : ∀ k ∈ s.keys, k = "a" ∨ k = "b"
  queue : ∀ k ∈ s.changed, k = "a" ∨ k = "b"
  past : ∀ k slot epoch v, s.cell k slot epoch = some v → epoch < t

/-- In second `t`, after its two requests. -/
structure Loaded (s : CounterStore) (t : ℕ) : Prop where
  window : s.windowSecs = 1
  keys : ∀ k, k ∈ s.keys ↔ k = "a" ∨ k = "b"
  queue : ∀ k, k ∈ s.changed ↔ k = "a" ∨ k = "b"
  past : ∀ k slot epoch v, s.cell k slot epoch = some v → epoch < t + 1
  cellA : s.cell "a" "n" t = some 1
  cellB : s.cell "b" "n" t = some 1

lemma size_le_two (h : ∀ k ∈ s.keys, k = "a" ∨ k = "b") : s.keys.size ≤ 2 := by
  have hs : s.keys.keys.toFinset ⊆ {"a", "b"} := by
    intro k hk
    simpa using h k (AList.mem_keys.mpr (mem_toFinset.mp hk))
  have hc := Finset.card_le_card hs
  rw [toFinset_card_of_nodup s.keys.keys_nodup, ← AList.size_eq_length_keys] at hc
  exact hc

lemma tryAdmit_of_no_cell {key : String} (hw : s.windowSecs = 1)
    (hk : ∀ k ∈ s.keys, k = "a" ∨ k = "b") (hn : ∀ slot, s.cell key slot t = none) :
    (s.tryAdmit key "n" t 1).1 = true := by
  have hlt : s.keys.size < maxTrackedKeys := (size_le_two hk).trans_lt (by decide)
  have hz : ((s.counts key).countsInWindow t 1).sum = 0 := by
    rw [(s.counts key).sum_countsInWindow t 1 (s.counts key).perNode.keys.toFinset
      (fun slot hs => by simp [AList.mem_keys.mp hs])]
    refine Finset.sum_eq_zero fun slot _ => Finset.sum_eq_zero fun epoch he => ?_
    obtain rfl : epoch = t := le_antisymm (Finset.mem_Icc.mp he).2 (Finset.mem_Icc.mp he).1
    exact congrArg (·.getD 0) (hn slot)
  rw [s.tryAdmit_fst, s.trackedKey_eq_of_lt hlt, s.totalInWindow_eq, KeyCounts.totalInWindow, hw,
    hz]
  rfl

lemma mem_keys_first_request {key : String} (hk : ∀ k ∈ s.keys, k = "a" ∨ k = "b")
    (k : String) : k ∈ (s.tryAdmit key "n" t 1).2.keys ↔ k = key ∨ k ∈ s.keys := by
  rw [s.keys_tryAdmit, s.trackedKey_eq_of_lt ((size_le_two hk).trans_lt (by decide)),
    AList.mem_insert]

lemma mem_changed_first_request {key : String} (hw : s.windowSecs = 1)
    (hk : ∀ k ∈ s.keys, k = "a" ∨ k = "b") (hn : ∀ slot, s.cell key slot t = none)
    (k : String) : k ∈ (s.tryAdmit key "n" t 1).2.changed ↔ k = key ∨ k ∈ s.changed := by
  rw [s.mem_changed_tryAdmit, s.trackedKey_eq_of_lt ((size_le_two hk).trans_lt (by decide)),
    tryAdmit_of_no_cell hw hk hn]
  simp

lemma cell_first_request {key : String} (hw : s.windowSecs = 1)
    (hk : ∀ k ∈ s.keys, k = "a" ∨ k = "b") (hn : ∀ slot, s.cell key slot t = none)
    (k slot : String) (epoch : ℕ) :
    (s.tryAdmit key "n" t 1).2.cell k slot epoch =
      if k = key ∧ slot = "n" ∧ epoch = t then some 1 else s.cell k slot epoch := by
  rw [s.cell_tryAdmit, s.trackedKey_eq_of_lt ((size_le_two hk).trans_lt (by decide)),
    tryAdmit_of_no_cell hw hk hn]
  by_cases hc : k = key ∧ slot = "n" ∧ epoch = t
  · obtain ⟨rfl, rfl, rfl⟩ := hc
    have hz : s.count k "n" epoch = 0 := congrArg (·.getD 0) (hn "n")
    rw [if_pos ⟨rfl, rfl, rfl, rfl⟩, if_pos ⟨rfl, rfl, rfl⟩, hz]
    rfl
  · rw [if_neg hc, if_neg fun h => hc h.2]

/-- The store after the requests for `a` and `b` in second `t`. -/
def afterRequests (s : CounterStore) (t : ℕ) : CounterStore :=
  ((s.tryAdmit "a" "n" t 1).2.tryAdmit "b" "n" t 1).2

def requests (t : ℕ) : List StoreEvent :=
  [.tryAdmit "a" "n" t 1 true, .tryAdmit "b" "n" t 1 true]

lemma isOwnCall_requests (t : ℕ) : ∀ e ∈ requests t, IsOwnCall "n" e := by
  intro e he
  simp only [requests, mem_cons, not_mem_nil, or_false] at he
  rcases he with rfl | rfl <;> exact ⟨rfl, nofun⟩

lemma Quiet.requests (h : Quiet s t) :
    Run StoreEvent.Step s (requests t) (afterRequests s t) ∧ Loaded (afterRequests s t) t := by
  have hn : ∀ key slot, s.cell key slot t = none := by
    intro key slot
    by_contra hne
    obtain ⟨v, hv⟩ := Option.ne_none_iff_exists'.mp hne
    exact absurd (h.past key slot t v hv) (lt_irrefl t)
  have hw : (s.tryAdmit "a" "n" t 1).2.windowSecs = 1 := by
    rw [s.windowSecs_tryAdmit, h.window]
  have hke : ∀ k ∈ (s.tryAdmit "a" "n" t 1).2.keys, k = "a" ∨ k = "b" := by
    intro k hk
    rcases (mem_keys_first_request h.keys k).mp hk with rfl | hk
    · exact Or.inl rfl
    · exact h.keys k hk
  have hce := cell_first_request h.window h.keys (hn "a")
  have hno : ∀ slot, (s.tryAdmit "a" "n" t 1).2.cell "b" slot t = none := by
    intro slot
    rw [hce, if_neg (by simp), hn]
  have ha : StoreEvent.Step s (.tryAdmit "a" "n" t 1 true) (s.tryAdmit "a" "n" t 1).2 :=
    .tryAdmit (tryAdmit_of_no_cell h.window h.keys (hn "a"))
  have hb : StoreEvent.Step (s.tryAdmit "a" "n" t 1).2 (.tryAdmit "b" "n" t 1 true)
      (afterRequests s t) :=
    .tryAdmit (tryAdmit_of_no_cell hw hke hno)
  refine ⟨(Run.start.next ha).next hb, ?_⟩
  have hc := cell_first_request hw hke hno
  refine ⟨?_, fun k => ?_, fun k => ?_, fun k slot epoch v hv => ?_, ?_, ?_⟩
  · rw [afterRequests, CounterStore.windowSecs_tryAdmit, hw]
  · rw [afterRequests, mem_keys_first_request hke, mem_keys_first_request h.keys]
    have := h.keys k
    tauto
  · rw [afterRequests, mem_changed_first_request hw hke hno,
      mem_changed_first_request h.window h.keys (hn "a")]
    have := h.queue k
    tauto
  · rw [afterRequests, hc, hce] at hv
    split_ifs at hv with h1 h2
    · omega
    · omega
    · exact (h.past k slot epoch v hv).trans (Nat.lt_succ_self t)
  · rw [afterRequests, hc, if_neg (by simp), hce, if_pos ⟨rfl, rfl, rfl⟩]
  · rw [afterRequests, hc, if_pos ⟨rfl, rfl, rfl⟩]

lemma Loaded.size_eq (h : Loaded s t) : s.keys.size = 2 := by
  refine le_antisymm (size_le_two fun k hk => (h.keys k).mp hk) ?_
  have hs : {"a", "b"} ⊆ s.keys.keys.toFinset := by
    intro k hk
    exact mem_toFinset.mpr (AList.mem_keys.mp ((h.keys k).mpr (by simpa using hk)))
  have hc := Finset.card_le_card hs
  rw [toFinset_card_of_nodup s.keys.keys_nodup, ← AList.size_eq_length_keys] at hc
  exact hc

lemma Loaded.changedKeys_eq (h : Loaded s t) : s.changedKeys = ["a", "b"] := by
  refine List.Perm.eq_of_pairwise' s.changedKeys_sorted (by decide) ?_
  rw [perm_ext_iff_of_nodup s.changedKeys_nodup (by decide)]
  intro k
  rw [s.mem_changedKeys, h.queue]
  simp

variable {wb wa : List (ℕ × ℕ)}

lemma overBudget_second {key k : String} (ha : wa ≠ []) (hb : wb ≠ []) :
    (SnapshotAcc.start.push key wa).overBudget 1 maxSnapshotBytes wb.length
      (estimatedSnapshotBytes k wb.length) = true := by
  have h1 := length_pos_of_ne_nil ha
  have h2 := length_pos_of_ne_nil hb
  rw [SnapshotAcc.overBudget, Bool.and_eq_true, Bool.or_eq_true, decide_eq_true_eq,
    decide_eq_true_eq]
  simp only [SnapshotAcc.push, SnapshotAcc.start]
  exact ⟨by omega, Or.inl (by omega)⟩

lemma Loaded.snapshotChanged_eq (h : Loaded s t)
    (ha : s.ownInWindow "a" "n" (cutoffSecs t 1) = some wa)
    (hb : s.ownInWindow "b" "n" (cutoffSecs t 1) = some wb) :
    s.snapshotChanged "n" (cutoffSecs t 1) 1 maxSnapshotBytes s.changedKeys s.changed .start =
      (((s.changed.erase "a").erase "b").insert "b" (), SnapshotAcc.start.push "a" wa) := by
  have hs : SnapshotAcc.start.overBudget 1 maxSnapshotBytes wa.length
      (estimatedSnapshotBytes "a" wa.length) = false := rfl
  rw [h.changedKeys_eq, CounterStore.snapshotChanged, ha]
  dsimp only
  rw [hs, if_neg Bool.false_ne_true, CounterStore.snapshotChanged, hb]
  dsimp only
  rw [overBudget_second (s.ownInWindow_ne_nil "n" ha) (s.ownInWindow_ne_nil "n" hb), if_pos rfl]

lemma Loaded.snapshot (h : Loaded s t) :
    ∃ inWindow, (s.snapshotOwnCapped "n" t 1 maxSnapshotBytes).1 = [("a", inWindow)] := by
  obtain ⟨wa, ha⟩ := s.exists_ownInWindow_of_cell "n" h.cellA (cutoffSecs_le t 1)
  obtain ⟨wb, hb⟩ := s.exists_ownInWindow_of_cell "n" h.cellB (cutoffSecs_le t 1)
  have ho : "a" ∈ s.ownKeys "n" := s.mem_ownKeys_of_ownInWindow "n" ha
  have hne : (s.ownKeys "n").isEmpty = false := isEmpty_eq_false_iff_exists_mem.mpr ⟨"a", ho⟩
  have hr : ∀ n idx, idx < (s.ownKeys "n").length →
      (s.snapshotRotation "n" (cutoffSecs t 1) 1 maxSnapshotBytes (s.ownKeys "n") ["a"] n idx
        (SnapshotAcc.start.push "a" wa)).2 = SnapshotAcc.start.push "a" wa := by
    refine s.snapshotRotation_eq_of_full "n" _ _ _ fun key hk hn inWindow hin => ?_
    obtain rfl : key = "b" := ((h.keys key).mp (s.mem_keys_of_mem_ownKeys "n" hk)).resolve_left
      fun heq => hn (heq ▸ mem_singleton_self _)
    exact overBudget_second (s.ownInWindow_ne_nil "n" ha) (s.ownInWindow_ne_nil "n" hin)
  unfold CounterStore.snapshotOwnCapped
  dsimp only
  rw [hne, if_neg Bool.false_ne_true, h.window, h.snapshotChanged_eq ha hb]
  refine ⟨wa, ?_⟩
  dsimp only
  rw [show (SnapshotAcc.start.push "a" wa).out.map (fun item => item.1) = ["a"] from rfl,
    hr _ _ (Nat.mod_lt _ (length_pos_of_mem ho))]
  rfl

def starvingRound (s : CounterStore) (t : ℕ) : SnapshotRound where
  calls := requests t
  ready := afterRequests s t
  now := t
  maxEntries := 1
  maxBytes := maxSnapshotBytes
  out := ((afterRequests s t).snapshotOwnCapped "n" t 1 maxSnapshotBytes).1

lemma Quiet.round (h : Quiet s t) : ∃ s', (starvingRound s t).Step "n" s s' ∧ Quiet s' (t + 1) ∧
    (starvingRound s t).InWindow "n" "b" ∧ ¬ (starvingRound s t).Sends "b" ∧
    (starvingRound s t).ready.keys.size = 2 := by
  obtain ⟨hr, hl⟩ := h.requests
  obtain ⟨wa, ho⟩ := hl.snapshot
  refine ⟨((afterRequests s t).snapshotOwnCapped "n" t 1 maxSnapshotBytes).2,
    ⟨hr, isOwnCall_requests t, Prod.ext rfl rfl⟩, ⟨?_, ?_, ?_, ?_⟩, ?_, ?_, hl.size_eq⟩
  · rw [CounterStore.windowSecs_snapshotOwnCapped, hl.window]
  · intro k hk
    rw [CounterStore.keys_snapshotOwnCapped] at hk
    exact (hl.keys k).mp hk
  · intro k hk
    exact (hl.queue k).mp ((afterRequests s t).mem_changed_snapshotOwnCapped _ _ _ _ k hk)
  · intro k slot epoch v hv
    rw [CounterStore.cell, CounterStore.counts, CounterStore.keys_snapshotOwnCapped] at hv
    exact hl.past k slot epoch v hv
  · obtain ⟨wb, hwb⟩ := (afterRequests s t).exists_ownInWindow_of_cell "n" hl.cellB
      (cutoffSecs_le t (afterRequests s t).windowSecs)
    exact Option.isSome_iff_exists.mpr ⟨wb, hwb⟩
  · rw [SnapshotRound.Sends, show (starvingRound s t).out = [("a", wa)] from ho]
    simp

lemma exists_starving_run (hs : Quiet s t) (n : ℕ) : ∃ (rounds : List SnapshotRound) (s' : _),
    Run (SnapshotRound.Step "n") s rounds s' ∧ rounds.length = n ∧ Quiet s' (t + n) ∧
      ∀ r ∈ rounds, r.InWindow "n" "b" ∧ ¬ r.Sends "b" ∧ r.ready.keys.size = 2 := by
  induction n with
  | zero => exact ⟨[], s, .start, rfl, hs, by simp⟩
  | succ n ih =>
    obtain ⟨rounds, s₁, hru, hl, hq, ha⟩ := ih
    obtain ⟨s₂, hst, hq', hro⟩ := hq.round
    refine ⟨rounds ++ [starvingRound s₁ (t + n)], s₂, hru.next hst, by simp [hl], hq', ?_⟩
    intro r hr
    rcases mem_append.mp hr with hr | hr
    · exact ha r hr
    · obtain rfl := mem_singleton.mp hr
      exact hro

/-- **No bound on the wait of a changed key.**  Whatever bound is proposed in terms of the number
of tracked keys, there is a run in which a key has an in-window cell at each of that many snapshots
and no snapshot contains it. -/
theorem no_gossip_bound : ¬ ∃ bound : ℕ → ℕ,
    ∀ (w : ℕ) (nodeId key : String) (history : List StoreEvent) (s₀ s : CounterStore)
      (rounds : List SnapshotRound),
      Run StoreEvent.Step (CounterStore.new w) history s₀ →
      (∀ e ∈ history, IsOwnCall nodeId e) →
      (∃ now limit, .tryAdmit key nodeId now limit true ∈ history) → key ∈ s₀.changed →
      Run (SnapshotRound.Step nodeId) s₀ rounds s →
      (∀ r ∈ rounds, r.InWindow nodeId key ∧ r.ready.keys.size = s₀.keys.size) →
      bound s₀.keys.size ≤ rounds.length → ∃ r ∈ rounds, r.Sends key := by
  rintro ⟨bound, hb⟩
  have hn : Quiet (CounterStore.new 1) 0 := ⟨rfl, fun k hk => absurd hk (AList.notMem_empty k),
      fun k hk => absurd hk (AList.notMem_empty k), fun k slot epoch v hv => by cases hv⟩
  obtain ⟨hh, hl⟩ := hn.requests
  have hq : Quiet (afterRequests (CounterStore.new 1) 0) 1 :=
    ⟨hl.window, fun k => (hl.keys k).mp, fun k => (hl.queue k).mp, hl.past⟩
  obtain ⟨rounds, s, hru, hle, -, ha⟩ := exists_starving_run hq (bound 2)
  have hs := hl.size_eq
  obtain ⟨r, hr, hse⟩ := hb 1 "n" "b" (requests 0) (afterRequests (CounterStore.new 1) 0) s
    rounds hh (isOwnCall_requests 0) ⟨0, 1, by simp [requests]⟩
    ((hl.queue "b").mpr (Or.inr rfl)) hru
    (fun r hr => ⟨(ha r hr).1, (ha r hr).2.2.trans hs.symm⟩) (by rw [hs, hle])
  exact (ha r hr).2.1 hse

end

end LoadBalancer.Cluster
