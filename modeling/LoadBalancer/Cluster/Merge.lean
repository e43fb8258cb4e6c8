import LoadBalancer.Cluster.Counters

/-!
# Merging gossip is a join

A merge raises cells to a per-cell maximum.  With an absent cell below every count, a cell is a
value of `WithBot ℕ`, and one call of `CounterStore.merge` is described by its upper bounds: the
new cell is at most `b` exactly when the old one is and every entry the call accepts for that cell
is (`level_merge_le_iff`).  Upper bounds compose over any list of calls, which is why no order,
duplication or grouping of gossip can matter.

The one thing that is not a join is the key cap: a new key is dropped once `maxTrackedKeys` are
tracked.  `Room` says that the cap is not reached.
-/

namespace LoadBalancer.Cluster

open List

/-! ## One slot's buckets -/

def level (c : Option ℕ) : WithBot ℕ := c

@[simp] lemma level_none_le (b : WithBot ℕ) : level none ≤ b := bot_le

lemma level_some_le_level_some {u v : ℕ} : level (some u) ≤ level (some v) ↔ u ≤ v :=
  WithBot.coe_le_coe

variable {calls : List MergeCall} {c : Option ℕ}

lemma level_le_level_some_iff {n : ℕ} : level c ≤ level (some n) ↔ c.getD 0 ≤ n := by
  cases c with
  | none => simp
  | some u => rw [level_some_le_level_some, Option.getD_some]

lemma getD_le_getD_of_level_le {c' : Option ℕ} (h : level c ≤ level c') : c.getD 0 ≤ c'.getD 0 := by
  cases c' with
  | none => rw [show c = none from le_bot_iff.mp h]
  | some v => exact level_le_level_some_iff.mp h

lemma level_injective : Function.Injective level := fun _ _ h => h

lemma level_some_max_le_iff (c : Option ℕ) (v : ℕ) (b : WithBot ℕ) :
    level (some (max (c.getD 0) v)) ≤ b ↔ level c ≤ b ∧ level (some v) ≤ b := by
  cases c with
  | none => simp
  | some u =>
    rw [Option.getD_some, level, WithBot.some_eq_coe, WithBot.coe_max, max_le_iff]
    rfl

lemma level_mergeBuckets_le_iff (maxEpoch epoch : ℕ) (b : WithBot ℕ) :
    ∀ (l : List (ℕ × ℕ)) (node : Buckets) (rejected : ℕ),
      level ((mergeBuckets maxEpoch l node rejected).1.get epoch) ≤ b ↔
        level (node.get epoch) ≤ b ∧
          ∀ v, (epoch, v) ∈ l → epoch ≤ maxEpoch → level (some v) ≤ b
  | [], node, rejected => by simp [mergeBuckets]
  | (e, v) :: rest, node, rejected => by
      unfold mergeBuckets
      split_ifs with he
      · rw [level_mergeBuckets_le_iff maxEpoch epoch b rest node (rejected + 1)]
        refine and_congr_right fun _ => forall_congr' fun u => ?_
        constructor
        · intro h hm hle
          rcases mem_cons.mp hm with hc | hc
          · obtain ⟨rfl, -⟩ := Prod.mk.inj hc
            omega
          · exact h hc hle
        · intro h hm
          exact h (mem_cons_of_mem _ hm)
      · rw [level_mergeBuckets_le_iff maxEpoch epoch b rest _ rejected, AList.get_insert]
        by_cases hee : epoch = e
        · subst hee
          rw [if_pos rfl, level_some_max_le_iff, and_assoc]
          refine and_congr_right fun _ => ?_
          constructor
          · rintro ⟨hv, h⟩ u hm hle
            rcases mem_cons.mp hm with hc | hc
            · obtain ⟨-, rfl⟩ := Prod.mk.inj hc
              exact hv
            · exact h u hc hle
          · intro h
            exact ⟨h v (mem_cons_self ..) (by omega),
              fun u hm => h u (mem_cons_of_mem _ hm)⟩
        · rw [if_neg hee]
          refine and_congr_right fun _ => forall_congr' fun u => ?_
          simp [hee]

/-- `merge_into` raises the cells of one slot by the entries that are not in the future. -/
lemma level_mergeInto_le_iff (c : KeyCounts) (nodeId slot : String) (buckets : List (ℕ × ℕ))
    (maxEpoch epoch : ℕ) (b : WithBot ℕ) :
    level ((mergeInto c nodeId buckets maxEpoch).1.cell slot epoch) ≤ b ↔
      level (c.cell slot epoch) ≤ b ∧
        (slot = nodeId → ∀ v, (epoch, v) ∈ buckets → epoch ≤ maxEpoch →
          level (some v) ≤ b) := by
  -- both insertion paths write `mergeBuckets` of the slot's old buckets
  have hins : ∀ old : Buckets, (∀ e, old.get e = c.cell nodeId e) →
      (level ((⟨c.perNode.insert nodeId (mergeBuckets maxEpoch buckets old 0).1⟩ :
        KeyCounts).cell slot epoch) ≤ b ↔ level (c.cell slot epoch) ≤ b ∧
        (slot = nodeId → ∀ v, (epoch, v) ∈ buckets → epoch ≤ maxEpoch →
          level (some v) ≤ b)) := by
    intro old ho
    rw [KeyCounts.cell, AList.get_insert]
    by_cases hs : slot = nodeId
    · subst hs
      rw [if_pos rfl, Option.bind_some, level_mergeBuckets_le_iff, ho]
      simp
    · rw [if_neg hs]
      simp [hs, KeyCounts.cell]
  unfold mergeInto
  cases hl : c.perNode.get nodeId with
  | some old => exact hins old fun e => by simp [KeyCounts.cell, hl]
  | none =>
    dsimp only
    split_ifs with ha
    · exact hins ∅ fun e => by simp [KeyCounts.cell, hl]
    · refine (and_iff_left fun _ v hv hle => ?_).symm
      exact absurd (any_eq_true.mpr ⟨_, hv, by simpa using hle⟩) ha

namespace CounterStore

variable (s : CounterStore)

/-! ## One call -/

variable (key nodeId : String) (buckets : List (ℕ × ℕ)) (now : ℕ) (k : String)

/-- A merge writes one key, if it accepts an entry and the key is tracked or there is room for
it, and otherwise only metrics. -/
lemma merge_eq :
    ∃ counter peers, s.merge key nodeId buckets now =
      { s with
        keys := if (∃ p ∈ buckets, p.1 ≤ maxEpochSecs now) ∧
            (key ∈ s.keys ∨ s.keys.size < maxTrackedKeys) then
          s.keys.insert key (mergeInto (s.counts key) nodeId buckets (maxEpochSecs now)).1
          else s.keys
        skewRejections := counter
        skewLabeledPeers := peers } := by
  have hz : (buckets.filter fun b => decide (b.1 ≤ maxEpochSecs now)).length = 0 ↔
      ¬ ∃ p ∈ buckets, p.1 ≤ maxEpochSecs now := by
    rw [length_eq_zero_iff, filter_eq_nil_iff]
    simp
  unfold merge
  by_cases hex : ∃ p ∈ buckets, p.1 ≤ maxEpochSecs now
  · simp only [mt hz.mp (not_not.mpr hex), if_false, hex, true_and]
    cases hk : s.keys.get key with
    | some c =>
      have hm : key ∈ s.keys := AList.mem_of_get_eq_some hk
      simp only [hm, true_or, if_true, counts, hk, Option.getD_some]
      exact recordSkewRejections_eq _ _ _
    | none =>
      have hm : key ∉ s.keys := AList.get_eq_none_iff.mp hk
      by_cases hf : maxTrackedKeys ≤ s.keys.size
      · simp only [hf, if_true, hm, false_or, not_lt.mpr hf, if_false]
        exact ⟨_, _, rfl⟩
      · simp only [hf, if_false, hm, false_or, not_le.mp hf, if_true, counts, hk, Option.getD_none]
        exact recordSkewRejections_eq _ _ _
  · simp only [hz.mpr hex, if_true, hex, false_and, if_false]
    exact recordSkewRejections_eq _ _ _

lemma keys_merge :
    (s.merge key nodeId buckets now).keys =
      if (∃ p ∈ buckets, p.1 ≤ maxEpochSecs now) ∧
          (key ∈ s.keys ∨ s.keys.size < maxTrackedKeys) then
        s.keys.insert key (mergeInto (s.counts key) nodeId buckets (maxEpochSecs now)).1
      else s.keys := by
  obtain ⟨_, _, h⟩ := s.merge_eq key nodeId buckets now
  rw [h]

@[simp] lemma windowSecs_merge : (s.merge key nodeId buckets now).windowSecs = s.windowSecs := by
  obtain ⟨_, _, h⟩ := s.merge_eq key nodeId buckets now
  rw [h]

@[simp] lemma changed_merge : (s.merge key nodeId buckets now).changed = s.changed := by
  obtain ⟨_, _, h⟩ := s.merge_eq key nodeId buckets now
  rw [h]

lemma level_merge_le_iff (slot : String) (epoch : ℕ) (b : WithBot ℕ) :
    level ((s.merge key nodeId buckets now).cell k slot epoch) ≤ b ↔
      level (s.cell k slot epoch) ≤ b ∧
        ((key ∈ s.keys ∨ s.keys.size < maxTrackedKeys) → k = key → slot = nodeId →
          ∀ v, (epoch, v) ∈ buckets → epoch ≤ maxEpochSecs now → level (some v) ≤ b) := by
  rw [cell, counts, keys_merge]
  split_ifs with hc
  · rw [AList.get_insert]
    by_cases hk : k = key
    · subst hk
      rw [if_pos rfl, Option.getD_some, level_mergeInto_le_iff]
      simp only [hc.2, forall_const, cell]
    · simp only [hk, if_false, IsEmpty.forall_iff, implies_true, and_true]
      rfl
  · refine (and_iff_left fun hr _ _ v hv hle => ?_).symm
    exact absurd ⟨⟨_, hv, hle⟩, hr⟩ hc

lemma cell_merge_of_ne {nodeId slot : String} (h : slot ≠ nodeId) (key : String)
    (buckets : List (ℕ × ℕ)) (now : ℕ) (k : String) (epoch : ℕ) :
    (s.merge key nodeId buckets now).cell k slot epoch = s.cell k slot epoch := by
  apply level_injective
  apply eq_of_forall_ge_iff
  intro b
  rw [level_merge_le_iff]
  exact and_iff_left fun _ _ hs => absurd hs h

lemma mem_keys_merge :
    k ∈ (s.merge key nodeId buckets now).keys ↔ k ∈ s.keys ∨
      (k = key ∧ (∃ p ∈ buckets, p.1 ≤ maxEpochSecs now) ∧ s.keys.size < maxTrackedKeys) := by
  rw [keys_merge]
  split_ifs with hc
  · rw [AList.mem_insert]
    constructor
    · rintro (rfl | hk)
      · exact hc.2.elim Or.inl fun h => Or.inr ⟨rfl, hc.1, h⟩
      · exact Or.inl hk
    · rintro (hk | ⟨rfl, -⟩)
      · exact Or.inr hk
      · exact Or.inl rfl
  · refine (or_iff_left ?_).symm
    rintro ⟨-, hex, hlt⟩
    exact hc ⟨hex, Or.inr hlt⟩

lemma size_keys_le_merge : s.keys.size ≤ (s.merge key nodeId buckets now).keys.size := by
  rw [keys_merge]
  split_ifs
  · exact AList.size_le_size_insert _ _ _
  · exact le_rfl

lemma level_le_level_merge (slot : String) (epoch : ℕ) :
    level (s.cell k slot epoch) ≤ level ((s.merge key nodeId buckets now).cell k slot epoch) :=
  ((s.level_merge_le_iff key nodeId buckets now k slot epoch _).mp le_rfl).1

end CounterStore

/-! ## Lists of calls -/

/-- One call of `merge`, at a clock value fixed for the whole list. -/
structure MergeCall where
  key : String
  slot : String
  buckets : List (ℕ × ℕ)
  deriving DecidableEq

/-- `(key, slot, epoch, v)` is an entry of the list within the skew tolerance. -/
def Accepts (calls : List MergeCall) (now : ℕ) (key slot : String) (epoch v : ℕ) : Prop :=
  ∃ c ∈ calls, c.key = key ∧ c.slot = slot ∧ (epoch, v) ∈ c.buckets ∧ epoch ≤ maxEpochSecs now

def newKeys (calls : List MergeCall) (now : ℕ) : Finset String :=
  ((calls.filter fun c => c.buckets.any fun p => p.1 ≤ maxEpochSecs now).map
    fun c => c.key).toFinset

lemma mem_newKeys {now : ℕ} {key : String} :
    key ∈ newKeys calls now ↔ ∃ slot epoch v, Accepts calls now key slot epoch v := by
  simp only [newKeys, mem_toFinset, mem_map, mem_filter, any_eq_true,
    decide_eq_true_eq, Accepts, Prod.exists]
  constructor
  · rintro ⟨c, ⟨hc, e, v, hm, hle⟩, rfl⟩
    exact ⟨c.slot, e, v, c, hc, rfl, rfl, hm, hle⟩
  · rintro ⟨_, e, v, c, hc, rfl, -, hm, hle⟩
    exact ⟨c, ⟨hc, e, v, hm, hle⟩, rfl⟩

lemma accepts_cons {c : MergeCall} {now : ℕ} {key slot : String} {epoch v : ℕ} :
    Accepts (c :: calls) now key slot epoch v ↔
      (key = c.key ∧ slot = c.slot ∧ (epoch, v) ∈ c.buckets ∧ epoch ≤ maxEpochSecs now) ∨
        Accepts calls now key slot epoch v := by
  simp only [Accepts, mem_cons]
  constructor
  · rintro ⟨d, rfl | hd, rfl, rfl, h⟩
    · exact Or.inl ⟨rfl, rfl, h⟩
    · exact Or.inr ⟨d, hd, rfl, rfl, h⟩
  · rintro (⟨rfl, rfl, h⟩ | ⟨d, hd, h⟩)
    · exact ⟨c, Or.inl rfl, rfl, rfl, h⟩
    · exact ⟨d, Or.inr hd, h⟩

namespace CounterStore

variable (s : CounterStore)

def mergeAll (calls : List MergeCall) (now : ℕ) : CounterStore :=
  calls.foldl (fun s c => s.merge c.key c.slot c.buckets now) s

/-- The tracked keys and the keys of the list fit under the cap together. -/
def Room (calls : List MergeCall) (now : ℕ) : Prop :=
  (s.keys.keys.toFinset ∪ newKeys calls now).card ≤ maxTrackedKeys

instance (calls : List MergeCall) (now : ℕ) : Decidable (s.Room calls now) :=
  inferInstanceAs (Decidable (_ ≤ _))

@[simp] lemma mergeAll_cons (c : MergeCall) (calls : List MergeCall) (now : ℕ) :
    s.mergeAll (c :: calls) now = (s.merge c.key c.slot c.buckets now).mergeAll calls now := rfl

lemma windowSecs_mergeAll (calls : List MergeCall) (now : ℕ) :
    (s.mergeAll calls now).windowSecs = s.windowSecs := by
  induction calls generalizing s with
  | nil => rfl
  | cons c calls ih => rw [mergeAll_cons, ih, windowSecs_merge]

variable {k : String} {calls : List MergeCall} {now : ℕ} {calls' : List MergeCall}

lemma Room.head {c : MergeCall} (h : s.Room (c :: calls) now) {epoch v : ℕ}
    (hm : (epoch, v) ∈ c.buckets) (hle : epoch ≤ maxEpochSecs now) :
    c.key ∈ s.keys ∨ s.keys.size < maxTrackedKeys := by
  by_cases hk : c.key ∈ s.keys
  · exact Or.inl hk
  · refine Or.inr ?_
    have hn : c.key ∈ newKeys (c :: calls) now :=
      mem_newKeys.mpr ⟨c.slot, epoch, v, accepts_cons.mpr (Or.inl ⟨rfl, rfl, hm, hle⟩)⟩
    have hs : insert c.key s.keys.keys.toFinset ⊆
        s.keys.keys.toFinset ∪ newKeys (c :: calls) now := by
      rw [Finset.insert_subset_iff]
      exact ⟨Finset.mem_union_right _ hn, Finset.subset_union_left⟩
    have hc := (Finset.card_le_card hs).trans h
    rw [Finset.card_insert_of_notMem (by simpa [AList.mem_keys] using hk),
      toFinset_card_of_nodup s.keys.keys_nodup, ← AList.size_eq_length_keys] at hc
    exact hc

lemma Room.tail {c : MergeCall} (h : s.Room (c :: calls) now) :
    (s.merge c.key c.slot c.buckets now).Room calls now := by
  refine (Finset.card_le_card ?_).trans h
  intro k hk
  rw [Finset.mem_union, mem_toFinset, ← AList.mem_keys] at hk ⊢
  rcases hk with hk | hk
  · rcases (s.mem_keys_merge _ _ _ _ k).mp hk with hk | ⟨rfl, ⟨p, hp, hle⟩, -⟩
    · exact Or.inl hk
    · exact Or.inr (mem_newKeys.mpr
        ⟨c.slot, p.1, p.2, accepts_cons.mpr (Or.inl ⟨rfl, rfl, hp, hle⟩)⟩)
  · obtain ⟨slot, e, v, ha⟩ := mem_newKeys.mp hk
    exact Or.inr (mem_newKeys.mpr ⟨slot, e, v, accepts_cons.mpr (Or.inr ha)⟩)

lemma mem_keys_merge_of_mem (hk : k ∈ s.keys) (key nodeId : String) (buckets : List (ℕ × ℕ))
    (now : ℕ) : k ∈ (s.merge key nodeId buckets now).keys :=
  (s.mem_keys_merge key nodeId buckets now k).mpr (Or.inl hk)

lemma mem_keys_mergeAll_of_mem (hk : k ∈ s.keys) (calls : List MergeCall) (now : ℕ) :
    k ∈ (s.mergeAll calls now).keys := by
  induction calls generalizing s with
  | nil => exact hk
  | cons c calls ih => exact ih _ (s.mem_keys_merge_of_mem hk _ _ _ _)

lemma size_keys_le_mergeAll (calls : List MergeCall) (now : ℕ) :
    s.keys.size ≤ (s.mergeAll calls now).keys.size := by
  induction calls generalizing s with
  | nil => exact le_rfl
  | cons c calls ih => exact (s.size_keys_le_merge _ _ _ _).trans (ih _)

lemma mem_keys_mergeAll_of_full (h : maxTrackedKeys ≤ s.keys.size) (calls : List MergeCall)
    (now : ℕ) (k : String) : k ∈ (s.mergeAll calls now).keys ↔ k ∈ s.keys := by
  induction calls generalizing s with
  | nil => exact Iff.rfl
  | cons c calls ih =>
    rw [mergeAll_cons, ih _ (h.trans (s.size_keys_le_merge _ _ _ _)), mem_keys_merge]
    exact or_iff_left fun hn => absurd hn.2.2 (not_lt.mpr h)

lemma mem_keys_mergeAll_of_accepts {slot : String} {epoch v : ℕ} :
    ∀ (calls : List MergeCall) (s : CounterStore),
      (s.mergeAll calls now).keys.size < maxTrackedKeys →
      Accepts calls now k slot epoch v → k ∈ (s.mergeAll calls now).keys
  | [], _, _, ha => by simp [Accepts] at ha
  | c :: calls, s, hs, ha => by
      rw [mergeAll_cons] at hs ⊢
      rcases accepts_cons.mp ha with ⟨rfl, -, hm, hle⟩ | ha
      · refine mem_keys_mergeAll_of_mem _ ((s.mem_keys_merge _ _ _ _ _).mpr ?_) _ _
        have h1 := s.size_keys_le_merge c.key c.slot c.buckets now
        have h2 := size_keys_le_mergeAll (s.merge c.key c.slot c.buckets now) calls now
        exact Or.inr ⟨rfl, ⟨_, hm, hle⟩, by omega⟩
      · exact mem_keys_mergeAll_of_accepts calls _ hs ha

lemma room_of_size_lt (h : (s.mergeAll calls now).keys.size < maxTrackedKeys) :
    s.Room calls now := by
  have hs : s.keys.keys.toFinset ∪ newKeys calls now ⊆
      (s.mergeAll calls now).keys.keys.toFinset := by
    intro k hk
    rw [Finset.mem_union, mem_toFinset, ← AList.mem_keys] at hk
    rw [mem_toFinset, ← AList.mem_keys]
    rcases hk with hk | hk
    · exact s.mem_keys_mergeAll_of_mem hk calls now
    · obtain ⟨slot, e, v, ha⟩ := mem_newKeys.mp hk
      exact mem_keys_mergeAll_of_accepts calls s h ha
  refine (Finset.card_le_card hs).trans ?_
  rw [toFinset_card_of_nodup (AList.keys_nodup _), ← AList.size_eq_length_keys]
  exact h.le

/-- **A list of merges, by its upper bounds.**  Only a new key can be turned away. -/
lemma level_mergeAll_le_iff (now : ℕ) (k slot : String) (epoch : ℕ) (b : WithBot ℕ) :
    ∀ (calls : List MergeCall) (s : CounterStore), k ∈ s.keys ∨ s.Room calls now →
      (level ((s.mergeAll calls now).cell k slot epoch) ≤ b ↔
        level (s.cell k slot epoch) ≤ b ∧
          ∀ v, Accepts calls now k slot epoch v → level (some v) ≤ b)
  | [], s, _ => by simp [mergeAll, Accepts]
  | c :: calls, s, hr => by
      have ht : k ∈ (s.merge c.key c.slot c.buckets now).keys ∨
          (s.merge c.key c.slot c.buckets now).Room calls now :=
        hr.imp (fun h => s.mem_keys_merge_of_mem h _ _ _ _) fun h => h.tail
      rw [mergeAll_cons, level_mergeAll_le_iff now k slot epoch b calls _ ht,
        level_merge_le_iff, and_assoc]
      refine and_congr_right fun _ => ?_
      constructor
      · rintro ⟨hh, ht⟩ v ha
        rcases accepts_cons.mp ha with ⟨rfl, rfl, hm, hle⟩ | ha
        · exact hh (hr.elim Or.inl fun h => h.head s hm hle) rfl rfl v hm hle
        · exact ht v ha
      · intro h
        exact ⟨fun _ hk hs v hm hle => h v (accepts_cons.mpr (Or.inl ⟨hk, hs, hm, hle⟩)),
          fun v ha => h v (accepts_cons.mpr (Or.inr ha))⟩

lemma count_mergeAll_le_iff (hr : k ∈ s.keys ∨ s.Room calls now) (slot : String) (epoch n : ℕ) :
    (s.mergeAll calls now).count k slot epoch ≤ n ↔
      s.count k slot epoch ≤ n ∧ ∀ v, Accepts calls now k slot epoch v → v ≤ n := by
  have h := level_mergeAll_le_iff now k slot epoch (level (some n)) calls s hr
  simp only [level_le_level_some_iff] at h
  exact h

lemma level_le_level_mergeAll (calls : List MergeCall) (now : ℕ) (k slot : String)
    (epoch : ℕ) :
    level (s.cell k slot epoch) ≤ level ((s.mergeAll calls now).cell k slot epoch) := by
  induction calls generalizing s with
  | nil => exact le_rfl
  | cons c calls ih => exact (s.level_le_level_merge _ _ _ _ _ _ _).trans (ih _)

lemma cell_mergeAll_of_ne {slot : String} (h : ∀ c ∈ calls, slot ≠ c.slot) (now : ℕ) (k : String)
    (epoch : ℕ) : (s.mergeAll calls now).cell k slot epoch = s.cell k slot epoch := by
  induction calls generalizing s with
  | nil => rfl
  | cons c calls ih =>
    rw [mergeAll_cons, ih _ fun c' hc' => h c' (mem_cons_of_mem c hc')]
    exact s.cell_merge_of_ne (h c mem_cons_self) _ _ _ _ _

lemma room_congr
    (h : ∀ key slot epoch v, Accepts calls now key slot epoch v ↔
      Accepts calls' now key slot epoch v) :
    s.Room calls now ↔ s.Room calls' now := by
  have hn : newKeys calls now = newKeys calls' now := by
    ext k
    simp only [mem_newKeys, h]
  rw [Room, Room, hn]

/-- **The cells after a list of merges depend only on the entries it accepts.** -/
lemma cell_mergeAll_congr (hr : s.Room calls now)
    (h : ∀ key slot epoch v, Accepts calls now key slot epoch v ↔
      Accepts calls' now key slot epoch v)
    (k slot : String) (epoch : ℕ) :
    (s.mergeAll calls' now).cell k slot epoch = (s.mergeAll calls now).cell k slot epoch := by
  apply level_injective
  apply eq_of_forall_ge_iff
  intro b
  rw [level_mergeAll_le_iff now k slot epoch b calls s (Or.inr hr),
    level_mergeAll_le_iff now k slot epoch b calls' s (Or.inr ((s.room_congr h).mp hr))]
  simp only [h]

end CounterStore

lemma exists_of_level_some_le {u : ℕ} (h : level (some u) ≤ level c) : ∃ v, u ≤ v ∧ c = some v := by
  cases c with
  | none => exact absurd h (WithBot.not_coe_le_bot u)
  | some v => exact ⟨v, level_some_le_level_some.mp h, rfl⟩

/-- A snapshot as the calls a peer merges it with, under the sender's slot. -/
def snapshotCalls (slot : String) (snapshot : List (String × List (ℕ × ℕ))) : List MergeCall :=
  snapshot.map fun entry => ⟨entry.1, slot, entry.2⟩

/-- **Merging gossip is a join.**  At one clock value and below the key cap: two lists with the
same accepted entries give the same cells; no cell is lowered or removed; and merging a snapshot of
another store twice is merging it once. -/
theorem mergeAll_join (s : CounterStore) (now : ℕ) (calls : List MergeCall)
    (hroom : s.Room calls now) :
    (∀ calls' : List MergeCall,
      (∀ key slot epoch v,
        Accepts calls now key slot epoch v ↔ Accepts calls' now key slot epoch v) →
      ∀ key slot epoch,
        (s.mergeAll calls' now).cell key slot epoch = (s.mergeAll calls now).cell key slot epoch) ∧
    (∀ key slot epoch v, s.cell key slot epoch = some v →
      ∃ v', v ≤ v' ∧ (s.mergeAll calls now).cell key slot epoch = some v') ∧
    (∀ (other : CounterStore) (nodeId slot : String) (t : ℕ),
      calls = snapshotCalls slot (other.snapshotOwn nodeId t).1 →
      ∀ key slot epoch, ((s.mergeAll calls now).mergeAll calls now).cell key slot epoch
        = (s.mergeAll calls now).cell key slot epoch) := by
  refine ⟨fun calls' h => s.cell_mergeAll_congr hroom h, ?_, ?_⟩
  · intro key slot epoch v hv
    have hle := s.level_le_level_mergeAll calls now key slot epoch
    rw [hv] at hle
    exact exists_of_level_some_le hle
  · intro _ _ _ _ _ key slot epoch
    rw [show (s.mergeAll calls now).mergeAll calls now = s.mergeAll (calls ++ calls) now from
      foldl_append.symm]
    refine s.cell_mergeAll_congr hroom (fun k sl e v => ?_) key slot epoch
    simp [Accepts]

/-- Two updates of one cell and one of a second too far ahead, in both orders. -/
theorem mergeAll_join_reverse :
    let s := ((CounterStore.new 10).tryAdmit "k" "a" 100 5).2
    let calls : List MergeCall :=
      [⟨"k", "b\x001", [(100, 4), (106, 9)]⟩, ⟨"k", "b\x001", [(100, 2)]⟩]
    s.Room calls 100 ∧ (s.mergeAll calls 100).cell "k" "b\x001" 100 = some 4 ∧
      (s.mergeAll calls.reverse 100).cell "k" "b\x001" 100
        = (s.mergeAll calls 100).cell "k" "b\x001" 100 := by
  refine ⟨by decide, by decide, ?_⟩
  refine (mergeAll_join _ 100 _ (by decide)).1 _ (fun key slot epoch v => ?_) _ _ _
  simp only [Accepts, mem_reverse]

end LoadBalancer.Cluster
