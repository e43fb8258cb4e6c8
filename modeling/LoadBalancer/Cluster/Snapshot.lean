import LoadBalancer.Cluster.Counters

/-!
# What a snapshot contains

`snapshot_own_capped` fills its output in two loops, first over the changed keys and then over
all of the node's keys from a cursor on; both push a key's in-window buckets unless a cap would
be passed.  Whatever is true of the accumulator at the start and survives such a push is true
of it at the end (`snapshotOwnCapped_induction`), so what a snapshot contains and how large it
is are both read off one push.
-/

namespace LoadBalancer.Cluster

open List

namespace CounterStore

variable (s : CounterStore) (nodeId : String)

/-! ## The in-window buckets of a key -/

section

variable {key : String} {cutoff : ℕ} {inWindow : List (ℕ × ℕ)}
  (h : s.ownInWindow key nodeId cutoff = some inWindow)

include h

lemma exists_buckets_of_ownInWindow : ∃ item buckets, s.keys.get key = some item ∧
    item.perNode.get nodeId = some buckets ∧ inWindow ≠ [] ∧
    inWindow = (buckets.entries.filter fun b => cutoff ≤ b.1).map fun b => (b.1, b.2) := by
  unfold ownInWindow at h
  obtain ⟨item, hite, h⟩ := Option.bind_eq_some_iff.mp h
  obtain ⟨buckets, hb, h⟩ := Option.bind_eq_some_iff.mp h
  dsimp only at h
  split_ifs at h with he
  cases h
  exact ⟨item, buckets, hite, hb, by simpa using he, rfl⟩

lemma mem_of_ownInWindow_eq_some (epoch v : ℕ) :
    (epoch, v) ∈ inWindow ↔ cutoff ≤ epoch ∧ s.cell key nodeId epoch = some v := by
  obtain ⟨item, buckets, hite, hb, -, rfl⟩ := s.exists_buckets_of_ownInWindow nodeId h
  rw [cell, counts, hite, Option.getD_some, KeyCounts.cell, hb, Option.bind_some,
    ← AList.mem_entries_iff_get]
  simp only [mem_map, mem_filter, decide_eq_true_eq, Prod.mk.injEq]
  constructor
  · rintro ⟨⟨e, u⟩, ⟨hm, hle⟩, rfl, rfl⟩
    exact ⟨hle, hm⟩
  · rintro ⟨hle, hm⟩
    exact ⟨⟨epoch, v⟩, ⟨hm, hle⟩, rfl, rfl⟩

lemma ownInWindow_ne_nil : inWindow ≠ [] := by
  obtain ⟨-, -, -, -, hne, -⟩ := s.exists_buckets_of_ownInWindow nodeId h
  exact hne

lemma ownInWindow_nodup : (inWindow.map fun b => b.1).Nodup := by
  obtain ⟨item, buckets, -, -, -, rfl⟩ := s.exists_buckets_of_ownInWindow nodeId h
  rw [map_map]
  exact buckets.keys_nodup.sublist (filter_sublist.map Sigma.fst)

lemma mem_ownKeys_of_ownInWindow : key ∈ s.ownKeys nodeId := by
  obtain ⟨item, buckets, hite, hb, -⟩ := s.exists_buckets_of_ownInWindow nodeId h
  rw [ownKeys, mem_insertionSort, mem_map]
  refine ⟨⟨key, item⟩, ?_, rfl⟩
  rw [mem_filter, AList.mem_entries_iff_get]
  exact ⟨hite, by simpa using AList.mem_of_get_eq_some hb⟩

end

lemma exists_ownInWindow_of_cell {key : String} {cutoff epoch v : ℕ}
    (hc : s.cell key nodeId epoch = some v) (hle : cutoff ≤ epoch) :
    ∃ inWindow, s.ownInWindow key nodeId cutoff = some inWindow := by
  rw [cell, counts] at hc
  cases hite : s.keys.get key with
  | none => simp [hite] at hc
  | some item =>
    rw [hite, Option.getD_some, KeyCounts.cell] at hc
    obtain ⟨buckets, hb, hv⟩ := Option.bind_eq_some_iff.mp hc
    have hne : ((buckets.entries.filter fun b => decide (cutoff ≤ b.1)).map
        fun b => (b.1, b.2)).isEmpty = false := by
      rw [isEmpty_eq_false_iff_exists_mem]
      exact ⟨(epoch, v), mem_map.mpr ⟨⟨epoch, v⟩, by
        simp [mem_filter, hle, AList.mem_entries_iff_get.mpr hv], rfl⟩⟩
    exact ⟨_, by simp only [ownInWindow, hite, hb, Option.bind_some, hne]; rfl⟩

/-! ## The two loops -/

section

variable (cutoff maxEntries maxBytes : ℕ) {I : SnapshotAcc → Prop}
  (hpu : ∀ acc key inWindow, I acc → s.ownInWindow key nodeId cutoff = some inWindow →
    acc.overBudget maxEntries maxBytes inWindow.length
      (estimatedSnapshotBytes key inWindow.length) = false → I (acc.push key inWindow))

include hpu

lemma snapshotChanged_induction : ∀ (keys : List String) (changed : Table String Unit)
    (acc : SnapshotAcc), I acc →
      I (s.snapshotChanged nodeId cutoff maxEntries maxBytes keys changed acc).2
  | [], _, _, h => h
  | key :: rest, changed, acc, h => by
      unfold snapshotChanged
      cases how : s.ownInWindow key nodeId cutoff with
      | none => exact snapshotChanged_induction rest _ acc h
      | some inWindow =>
        dsimp only
        split_ifs with ho
        · exact h
        · exact snapshotChanged_induction rest _ _
            (hpu acc key inWindow h how (Bool.not_eq_true _ ▸ ho))

lemma snapshotRotation_induction (keys included : List String) : ∀ (n idx : ℕ)
    (acc : SnapshotAcc), I acc →
      I (s.snapshotRotation nodeId cutoff maxEntries maxBytes keys included n idx acc).2
  | 0, _, _, h => h
  | n + 1, idx, acc, h => by
      unfold snapshotRotation
      dsimp only
      split_ifs with hin
      · exact snapshotRotation_induction keys included n _ acc h
      · cases how : s.ownInWindow (keys.getD idx "") nodeId cutoff with
        | none => exact snapshotRotation_induction keys included n _ acc h
        | some inWindow =>
          dsimp only
          split_ifs with ho
          · exact h
          · exact snapshotRotation_induction keys included n _ _
              (hpu acc _ inWindow h how (Bool.not_eq_true _ ▸ ho))

end

variable (now : ℕ)

/-- **The rule for snapshots.**  What holds of the empty accumulator and survives every push
within the caps holds of the accumulator a snapshot ends with. -/
lemma snapshotOwnCapped_induction (maxEntries maxBytes : ℕ) {I : SnapshotAcc → Prop}
    (hs : I .start)
    (hpu : ∀ acc key inWindow, I acc →
      s.ownInWindow key nodeId (cutoffSecs now s.windowSecs) = some inWindow →
      acc.overBudget maxEntries maxBytes inWindow.length
        (estimatedSnapshotBytes key inWindow.length) = false → I (acc.push key inWindow)) :
    ∃ acc, I acc ∧ acc.out = (s.snapshotOwnCapped nodeId now maxEntries maxBytes).1 := by
  unfold snapshotOwnCapped
  dsimp only
  split_ifs
  · exact ⟨.start, hs, rfl⟩
  · exact ⟨_, snapshotRotation_induction s nodeId _ _ _ hpu _ _ _ _ _
      (snapshotChanged_induction s nodeId _ _ _ hpu _ _ _ hs), rfl⟩

lemma ownInWindow_of_mem_snapshot {now maxEntries maxBytes : ℕ} {key : String}
    {buckets : List (ℕ × ℕ)}
    (h : (key, buckets) ∈ (s.snapshotOwnCapped nodeId now maxEntries maxBytes).1) :
    s.ownInWindow key nodeId (cutoffSecs now s.windowSecs) = some buckets := by
  obtain ⟨acc, ha, ho⟩ := s.snapshotOwnCapped_induction nodeId now maxEntries maxBytes
    (I := fun acc => ∀ k b, (k, b) ∈ acc.out →
      s.ownInWindow k nodeId (cutoffSecs now s.windowSecs) = some b)
    (by simp [SnapshotAcc.start]) (by
      intro acc k b ha how _ k' b' hm
      rcases mem_append.mp hm with hm | hm
      · exact ha k' b' hm
      · cases mem_singleton.mp hm
        exact how)
  exact ha key buckets (ho ▸ h)

lemma snapshotOwnCapped_snd (maxEntries maxBytes : ℕ) :
    ∃ changed cursor, (s.snapshotOwnCapped nodeId now maxEntries maxBytes).2 =
      { s with changed := changed, snapshotCursor := cursor } := by
  unfold snapshotOwnCapped
  dsimp only
  split_ifs <;> exact ⟨_, _, rfl⟩

@[simp] lemma keys_snapshotOwnCapped (maxEntries maxBytes : ℕ) :
    (s.snapshotOwnCapped nodeId now maxEntries maxBytes).2.keys = s.keys := by
  obtain ⟨_, _, h⟩ := s.snapshotOwnCapped_snd nodeId now maxEntries maxBytes
  rw [h]

@[simp] lemma windowSecs_snapshotOwnCapped (maxEntries maxBytes : ℕ) :
    (s.snapshotOwnCapped nodeId now maxEntries maxBytes).2.windowSecs = s.windowSecs := by
  obtain ⟨_, _, h⟩ := s.snapshotOwnCapped_snd nodeId now maxEntries maxBytes
  rw [h]

/-! ## The queue of changed keys -/

section

variable (cutoff maxEntries maxBytes : ℕ) {key : String} {inWindow : List (ℕ × ℕ)}

lemma mem_out_snapshotChanged (keys : List String) (changed : Table String Unit)
    {acc : SnapshotAcc} {x : String × List (ℕ × ℕ)} (h : x ∈ acc.out) :
    x ∈ (s.snapshotChanged nodeId cutoff maxEntries maxBytes keys changed acc).2.out :=
  s.snapshotChanged_induction nodeId cutoff maxEntries maxBytes (I := fun acc => x ∈ acc.out)
    (fun _ _ _ hx _ _ => mem_append_left _ hx) keys changed acc h

lemma mem_changed_snapshotChanged : ∀ (keys : List String) (changed : Table String Unit)
    (acc : SnapshotAcc),
      key ∈ (s.snapshotChanged nodeId cutoff maxEntries maxBytes keys changed acc).1 →
        key ∈ changed ∨ key ∈ keys
  | [], _, _, h => Or.inl h
  | k :: rest, changed, acc, h => by
      have hr : ∀ acc', key ∈ (s.snapshotChanged nodeId cutoff maxEntries maxBytes rest
          (changed.erase k) acc').1 → key ∈ changed ∨ key ∈ k :: rest := by
        intro acc' h'
        rcases mem_changed_snapshotChanged rest (changed.erase k) acc' h' with h' | h'
        · exact Or.inl (AList.mem_erase.mp h').2
        · exact Or.inr (mem_cons_of_mem _ h')
      unfold snapshotChanged at h
      cases how : s.ownInWindow k nodeId cutoff with
      | none =>
        rw [how] at h
        exact hr acc h
      | some w =>
        rw [how] at h
        dsimp only at h
        split_ifs at h with ho
        · rcases (AList.mem_insert _).mp h with rfl | h
          · exact Or.inr (mem_cons_self ..)
          · exact Or.inl (AList.mem_erase.mp h).2
        · exact hr _ h

lemma mem_changed_or_mem_out (hke : s.ownInWindow key nodeId cutoff = some inWindow) :
    ∀ (keys : List String) (changed : Table String Unit) (acc : SnapshotAcc), key ∈ changed →
      key ∈ (s.snapshotChanged nodeId cutoff maxEntries maxBytes keys changed acc).1 ∨
      (key, inWindow) ∈
        (s.snapshotChanged nodeId cutoff maxEntries maxBytes keys changed acc).2.out
  | [], _, _, h => Or.inl h
  | k :: rest, changed, acc, h => by
      unfold snapshotChanged
      by_cases hk : key = k
      · subst hk
        rw [hke]
        dsimp only
        split_ifs with ho
        · exact Or.inl ((AList.mem_insert _).mpr (Or.inl rfl))
        · exact Or.inr (s.mem_out_snapshotChanged nodeId cutoff maxEntries maxBytes rest _
            (mem_append_right _ (mem_singleton_self _)))
      · have he : key ∈ changed.erase k := AList.mem_erase.mpr ⟨hk, h⟩
        cases s.ownInWindow k nodeId cutoff with
        | none => exact mem_changed_or_mem_out hke rest _ acc he
        | some w =>
          dsimp only
          split_ifs with ho
          · exact Or.inl ((AList.mem_insert _).mpr (Or.inr he))
          · exact mem_changed_or_mem_out hke rest _ _ he

lemma head_notMem_changed {k : String} {rest : List String} (hk : k ∉ rest)
    (changed : Table String Unit) :
    k ∉ (s.snapshotChanged nodeId cutoff maxEntries maxBytes (k :: rest) changed .start).1 := by
  have hr : ∀ acc, k ∉ (s.snapshotChanged nodeId cutoff maxEntries maxBytes rest
      (changed.erase k) acc).1 := by
    intro acc h
    rcases s.mem_changed_snapshotChanged nodeId cutoff maxEntries maxBytes rest _ acc h with h | h
    · exact (AList.mem_erase.mp h).1 rfl
    · exact hk h
  unfold snapshotChanged
  cases s.ownInWindow k nodeId cutoff with
  | none | some => exact hr _

lemma head_mem_out (hk : s.ownInWindow key nodeId cutoff = some inWindow) (rest : List String)
    (changed : Table String Unit) :
    (key, inWindow) ∈ (s.snapshotChanged nodeId cutoff maxEntries maxBytes (key :: rest) changed
      .start).2.out := by
  unfold snapshotChanged
  rw [hk]
  exact s.mem_out_snapshotChanged nodeId cutoff maxEntries maxBytes rest _
    (mem_append_right _ (mem_singleton_self _))

def queuedEntries (keys : List String) : ℕ :=
  (keys.map fun key => ((s.ownInWindow key nodeId cutoff).map List.length).getD 0).sum

def queuedBytes (keys : List String) : ℕ :=
  (keys.map fun key => ((s.ownInWindow key nodeId cutoff).map fun inWindow =>
    estimatedSnapshotBytes key inWindow.length).getD 0).sum

lemma mem_out_of_fits (hk : s.ownInWindow key nodeId cutoff = some inWindow) :
    ∀ (keys : List String) (changed : Table String Unit) (acc : SnapshotAcc),
      keys.Pairwise (· ≤ ·) → key ∈ keys →
      acc.totalEntries + s.queuedEntries nodeId cutoff (keys.filter (· ≤ key)) ≤ maxEntries →
      acc.totalBytes + s.queuedBytes nodeId cutoff (keys.filter (· ≤ key)) ≤ maxBytes →
      (key, inWindow) ∈
        (s.snapshotChanged nodeId cutoff maxEntries maxBytes keys changed acc).2.out
  | [], _, _, _, h, _, _ => by cases h
  | k :: rest, changed, acc, hs, hm, he, hb => by
      rw [pairwise_cons] at hs
      have hle : k ≤ key := by
        rcases mem_cons.mp hm with rfl | hm
        · exact le_rfl
        · exact hs.1 key hm
      rw [filter_cons_of_pos (by simpa using hle)] at he hb
      simp only [queuedEntries, queuedBytes, map_cons, sum_cons] at he hb
      unfold snapshotChanged
      cases ho : s.ownInWindow k nodeId cutoff with
      | none =>
        have hne : key ≠ k := by
          rintro rfl
          rw [hk] at ho
          cases ho
        simp only [ho, Option.map_none, Option.getD_none, zero_add] at he hb
        exact mem_out_of_fits hk rest _ acc hs.2 ((mem_cons.mp hm).resolve_left hne)
          he hb
      | some w =>
        simp only [ho, Option.map_some, Option.getD_some] at he hb
        have hf : acc.overBudget maxEntries maxBytes w.length
            (estimatedSnapshotBytes k w.length) = false := by
          simp only [SnapshotAcc.overBudget, Bool.and_eq_false_iff, Bool.or_eq_false_iff,
            decide_eq_false_iff_not]
          exact Or.inr ⟨by omega, by omega⟩
        dsimp only
        rw [hf, if_neg Bool.false_ne_true]
        rcases mem_cons.mp hm with rfl | hm
        · cases hk.symm.trans ho
          exact s.mem_out_snapshotChanged nodeId cutoff maxEntries maxBytes rest _
            (mem_append_right _ (mem_singleton_self _))
        · refine mem_out_of_fits hk rest _ _ hs.2 hm ?_ ?_
          · simp only [queuedEntries, SnapshotAcc.push]
            omega
          · simp only [queuedBytes, SnapshotAcc.push]
            omega

end

lemma mem_keys_of_mem_ownKeys {key : String} (h : key ∈ s.ownKeys nodeId) : key ∈ s.keys := by
  rw [ownKeys, mem_insertionSort, mem_map] at h
  obtain ⟨item, hite, rfl⟩ := h
  exact AList.mem_of_get_eq_some (AList.mem_entries_iff_get.mp (mem_filter.mp hite).1)

lemma snapshotOwnCapped_queue {key : String} {now : ℕ} {inWindow : List (ℕ × ℕ)}
    (hk : s.ownInWindow key nodeId (cutoffSecs now s.windowSecs) = some inWindow)
    (maxEntries maxBytes : ℕ) :
    (s.snapshotOwnCapped nodeId now maxEntries maxBytes).2.changed =
      (s.snapshotChanged nodeId (cutoffSecs now s.windowSecs) maxEntries maxBytes s.changedKeys
        s.changed .start).1 ∧
    ∀ x ∈ (s.snapshotChanged nodeId (cutoffSecs now s.windowSecs) maxEntries maxBytes
      s.changedKeys s.changed .start).2.out,
      x ∈ (s.snapshotOwnCapped nodeId now maxEntries maxBytes).1 := by
  have hne : (s.ownKeys nodeId).isEmpty = false := by
    rw [isEmpty_eq_false_iff_exists_mem]
    exact ⟨key, s.mem_ownKeys_of_ownInWindow nodeId hk⟩
  unfold snapshotOwnCapped
  dsimp only
  rw [hne, if_neg Bool.false_ne_true]
  refine ⟨rfl, fun x hx => ?_⟩
  exact s.snapshotRotation_induction nodeId _ _ _ (I := fun acc => x ∈ acc.out)
    (fun _ _ _ hx _ _ => mem_append_left _ hx) _ _ _ _ _ hx

lemma mem_changedKeys {key : String} : key ∈ s.changedKeys ↔ key ∈ s.changed := by
  rw [changedKeys, mem_insertionSort, ← AList.mem_keys]

lemma mem_changed_snapshotOwnCapped (maxEntries maxBytes : ℕ) :
    ∀ k ∈ (s.snapshotOwnCapped nodeId now maxEntries maxBytes).2.changed, k ∈ s.changed := by
  unfold snapshotOwnCapped
  dsimp only
  split_ifs
  · exact fun k hk => hk
  · intro k hk
    rcases s.mem_changed_snapshotChanged nodeId _ maxEntries maxBytes _ _ _ hk with h | h
    · exact h
    · exact s.mem_changedKeys.mp h

lemma changedKeys_sorted : s.changedKeys.Pairwise (· ≤ ·) :=
  pairwise_insertionSort _ _

lemma changedKeys_nodup : s.changedKeys.Nodup :=
  (perm_insertionSort _ _).nodup_iff.mpr s.changed.keys_nodup

lemma snapshotRotation_eq_of_full (cutoff maxEntries maxBytes : ℕ) {keys included : List String}
    {acc : SnapshotAcc}
    (hf : ∀ key ∈ keys, key ∉ included → ∀ inWindow,
      s.ownInWindow key nodeId cutoff = some inWindow →
      acc.overBudget maxEntries maxBytes inWindow.length
        (estimatedSnapshotBytes key inWindow.length) = true) :
    ∀ n idx, idx < keys.length →
      (s.snapshotRotation nodeId cutoff maxEntries maxBytes keys included n idx acc).2 = acc
  | 0, _, _ => rfl
  | n + 1, idx, hid => by
      have hn : (idx + 1) % keys.length < keys.length := Nat.mod_lt _ (by omega)
      have hm : keys.getD idx "" ∈ keys := by
        rw [getD_eq_getElem _ _ hid]
        exact getElem_mem hid
      unfold snapshotRotation
      dsimp only
      split_ifs with hin
      · exact snapshotRotation_eq_of_full cutoff maxEntries maxBytes hf n _ hn
      · cases ho : s.ownInWindow (keys.getD idx "") nodeId cutoff with
        | none => exact snapshotRotation_eq_of_full cutoff maxEntries maxBytes hf n _ hn
        | some inWindow =>
          dsimp only
          rw [hf _ hm hin inWindow ho, if_pos rfl]

/-! ## The first entry

No cap applies to the first entry of a snapshot, so which one it is can be read off the store. -/

def ownEntry (cutoff : ℕ) (key : String) : Option (String × List (ℕ × ℕ)) :=
  (s.ownInWindow key nodeId cutoff).map fun inWindow => (key, inWindow)

/-- The keys in the order in which a snapshot comes to them: the changed ones, then all from the
cursor on. -/
def visitOrder : List String :=
  s.changedKeys ++ (s.ownKeys nodeId).rotate (s.snapshotCursor % (s.ownKeys nodeId).length)

def firstOwn (now : ℕ) : Option (String × List (ℕ × ℕ)) :=
  (s.visitOrder nodeId).findSome? (s.ownEntry nodeId (cutoffSecs now s.windowSecs))

section

variable (cutoff maxEntries maxBytes : ℕ)

lemma head?_push {acc : SnapshotAcc} {x : String × List (ℕ × ℕ)} (h : acc.out.head? = some x)
    (key : String) (inWindow : List (ℕ × ℕ)) : (acc.push key inWindow).out.head? = some x := by
  rw [SnapshotAcc.push, List.head?_append, h, Option.some_or]

lemma head?_snapshotChanged : ∀ (keys : List String) (changed : Table String Unit),
    (s.snapshotChanged nodeId cutoff maxEntries maxBytes keys changed .start).2.out.head? =
      keys.findSome? (s.ownEntry nodeId cutoff)
  | [], _ => rfl
  | key :: rest, changed => by
      rw [List.findSome?_cons, ownEntry]
      unfold snapshotChanged
      cases ho : s.ownInWindow key nodeId cutoff with
      | none => exact head?_snapshotChanged rest _
      | some inWindow =>
        exact s.snapshotChanged_induction nodeId cutoff maxEntries maxBytes
          (I := fun acc => acc.out.head? = some (key, inWindow))
          (fun _ k b h _ _ => head?_push h k b) rest _ _ rfl

lemma snapshotChanged_eq_start {keys : List String} {changed : Table String Unit}
    (h : (s.snapshotChanged nodeId cutoff maxEntries maxBytes keys changed .start).2.out = []) :
    (s.snapshotChanged nodeId cutoff maxEntries maxBytes keys changed .start).2 = .start := by
  have hinv := s.snapshotChanged_induction nodeId cutoff maxEntries maxBytes
    (I := fun acc => acc = .start ∨ acc.out ≠ [])
    (fun _ _ _ _ _ _ => Or.inr (by simp [SnapshotAcc.push])) keys changed .start (Or.inl rfl)
  exact hinv.resolve_right (not_not_intro h)

lemma take_succ_rotate (keys : List String) {idx n : ℕ} (hid : idx < keys.length)
    (hn : n < keys.length) : (keys.rotate idx).take (n + 1) =
      keys.getD idx "" :: (keys.rotate ((idx + 1) % keys.length)).take n := by
  have hl : (keys.rotate idx).length = keys.length := length_rotate ..
  rw [rotate_mod, ← rotate_rotate]
  have hh : (keys.rotate idx).head? = keys[idx]? := List.head?_rotate hid
  cases hr : keys.rotate idx with
  | nil =>
    rw [hr] at hl
    simp at hl
    omega
  | cons first rest =>
    rw [hr] at hl hh
    rw [length_cons] at hl
    rw [rotate_cons_succ, rotate_zero, take_append_of_le_length (by omega),
      take_succ_cons, getD_eq_getElem?_getD, ← hh]
    rfl

lemma keys_snapshotChanged : ∀ (keys : List String) (changed : Table String Unit)
    (acc : SnapshotAcc), ∃ sent, sent <+ keys ∧
      (s.snapshotChanged nodeId cutoff maxEntries maxBytes keys changed acc).2.out.map Prod.fst =
        acc.out.map Prod.fst ++ sent
  | [], _, _ => ⟨[], .slnil, (append_nil _).symm⟩
  | key :: rest, changed, acc => by
      unfold snapshotChanged
      cases s.ownInWindow key nodeId cutoff with
      | none =>
        obtain ⟨sent, hs, heq⟩ := keys_snapshotChanged rest (changed.erase key) acc
        exact ⟨sent, hs.cons key, heq⟩
      | some inWindow =>
        dsimp only
        split_ifs
        · exact ⟨[], nil_sublist _, (append_nil _).symm⟩
        · obtain ⟨sent, hs, heq⟩ :=
            keys_snapshotChanged rest (changed.erase key) (acc.push key inWindow)
          exact ⟨key :: sent, hs.cons_cons key, by simpa [SnapshotAcc.push] using heq⟩

lemma keys_snapshotRotation (keys included : List String) : ∀ n idx (acc : SnapshotAcc),
    idx < keys.length → n ≤ keys.length →
    ∃ sent, sent <+ (keys.rotate idx).take n ∧ (∀ key ∈ sent, key ∉ included) ∧
      (s.snapshotRotation nodeId cutoff maxEntries maxBytes keys included n idx acc).2.out.map
        Prod.fst = acc.out.map Prod.fst ++ sent
  | 0, _, _, _, _ => ⟨[], nil_sublist _, by simp, (append_nil _).symm⟩
  | n + 1, idx, acc, hid, hn => by
      have hne : (idx + 1) % keys.length < keys.length := Nat.mod_lt _ (by omega)
      have hs : ∀ acc', ∃ sent,
          sent <+ keys.getD idx "" :: (keys.rotate ((idx + 1) % keys.length)).take n ∧ _ :=
        fun acc' =>
          have ⟨sent, hsu, hnew⟩ := keys_snapshotRotation keys included n _ acc' hne (by omega)
          ⟨sent, hsu.cons _, hnew⟩
      rw [take_succ_rotate keys hid hn]
      unfold snapshotRotation
      dsimp only
      split_ifs with hin
      · exact hs acc
      · cases s.ownInWindow (keys.getD idx "") nodeId cutoff with
        | none => exact hs acc
        | some inWindow =>
          dsimp only
          split_ifs
          · exact ⟨[], nil_sublist _, by simp, (append_nil _).symm⟩
          · obtain ⟨sent, hsu, hnew, heq⟩ := keys_snapshotRotation keys included n _
              (acc.push (keys.getD idx "") inWindow) hne (by omega)
            exact ⟨keys.getD idx "" :: sent, hsu.cons_cons _,
              forall_mem_cons.mpr ⟨hin, hnew⟩, by simpa [SnapshotAcc.push] using heq⟩

lemma head?_snapshotRotation (keys : List String) : ∀ n idx, idx < keys.length →
    n ≤ keys.length →
    (s.snapshotRotation nodeId cutoff maxEntries maxBytes keys [] n idx .start).2.out.head? =
      ((keys.rotate idx).take n).findSome? (s.ownEntry nodeId cutoff)
  | 0, _, _, _ => rfl
  | n + 1, idx, hid, hn => by
      have hne : (idx + 1) % keys.length < keys.length := Nat.mod_lt _ (by omega)
      rw [take_succ_rotate keys hid hn, List.findSome?_cons, ownEntry]
      unfold snapshotRotation
      dsimp only
      rw [if_neg not_mem_nil]
      cases ho : s.ownInWindow (keys.getD idx "") nodeId cutoff with
      | none => exact head?_snapshotRotation keys n _ hne (by omega)
      | some inWindow =>
        exact s.snapshotRotation_induction nodeId cutoff maxEntries maxBytes
          (I := fun acc => acc.out.head? = some (keys.getD idx "", inWindow))
          (fun _ k b h _ _ => head?_push h k b) keys [] n _ _ rfl

end

lemma head?_snapshotOwnCapped (maxEntries maxBytes : ℕ) :
    (s.snapshotOwnCapped nodeId now maxEntries maxBytes).1.head? = s.firstOwn nodeId now := by
  unfold snapshotOwnCapped
  dsimp only
  split_ifs with he
  · symm
    rw [firstOwn, List.head?_nil, List.findSome?_eq_none_iff]
    intro key _
    rw [ownEntry, Option.map_eq_none_iff, Option.eq_none_iff_forall_not_mem]
    intro inWindow ho
    have hm := s.mem_ownKeys_of_ownInWindow nodeId ho
    rw [List.isEmpty_iff.mp he] at hm
    exact List.not_mem_nil hm
  · have hp := length_pos_of_ne_nil (mt List.isEmpty_iff.mpr he)
    have hc := s.head?_snapshotChanged nodeId (cutoffSecs now s.windowSecs) maxEntries
      maxBytes s.changedKeys s.changed
    rw [firstOwn, visitOrder, List.findSome?_append, ← hc]
    cases hf : (s.snapshotChanged nodeId (cutoffSecs now s.windowSecs) maxEntries maxBytes
      s.changedKeys s.changed .start).2.out.head? with
    | some x =>
      exact s.snapshotRotation_induction nodeId _ _ _ (I := fun acc => acc.out.head? = some x)
        (fun _ k b h _ _ => head?_push h k b) _ _ _ _ _ hf
    | none =>
      have hs := s.snapshotChanged_eq_start nodeId _ maxEntries maxBytes
        (List.head?_eq_none_iff.mp hf)
      rw [hs, Option.none_or]
      have hr := s.head?_snapshotRotation nodeId (cutoffSecs now s.windowSecs) maxEntries
        maxBytes (s.ownKeys nodeId) _ _ (Nat.mod_lt s.snapshotCursor hp) le_rfl
      rwa [List.take_of_length_le (List.length_rotate ..).le] at hr

lemma ownKeys_nodup : (s.ownKeys nodeId).Nodup :=
  (perm_insertionSort _ _).nodup_iff.mpr (s.keys.keys_nodup.sublist (filter_sublist.map Sigma.fst))

lemma keys_nodup_snapshotOwnCapped (maxEntries maxBytes : ℕ) :
    ((s.snapshotOwnCapped nodeId now maxEntries maxBytes).1.map Prod.fst).Nodup := by
  unfold snapshotOwnCapped
  dsimp only
  split_ifs with he
  · exact nodup_nil
  · have hp := length_pos_of_ne_nil (mt List.isEmpty_iff.mpr he)
    obtain ⟨queued, hq, hf⟩ := s.keys_snapshotChanged nodeId
      (cutoffSecs now s.windowSecs) maxEntries maxBytes s.changedKeys s.changed .start
    obtain ⟨sent, hs, hn, heq⟩ := s.keys_snapshotRotation nodeId (cutoffSecs now s.windowSecs)
      maxEntries maxBytes (s.ownKeys nodeId) _ _ _ _ (Nat.mod_lt _ hp) le_rfl
    rw [heq, nodup_append']
    rw [SnapshotAcc.start, map_nil, nil_append] at hf
    refine ⟨hf ▸ s.changedKeys_nodup.sublist hq, ?_, fun key hk hin => hn key hin hk⟩
    exact ((nodup_rotate.mpr (s.ownKeys_nodup nodeId)).sublist (take_sublist _ _)).sublist hs

end CounterStore

end LoadBalancer.Cluster
