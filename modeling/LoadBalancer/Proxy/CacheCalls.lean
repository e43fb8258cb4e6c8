import LoadBalancer.Proxy.Cache

/-!
# What the calls of the response cache do to its entries

`get`, `put`, `purge` and `sweep_expired` of `ResponseCache` (`crates/lb-proxy/src/cache.rs`), one
call at a time.  Each is described by what it leaves of the entry of any key; the bytes that are
counted next to the entries only decide how many entries `put` has to evict.
-/

namespace LoadBalancer.Proxy.ResponseCache

variable (c : ResponseCache)

/-! ## Calls -/

/-- `get`, with the instant that it reads. -/
def get (key : CacheKey) (now : Instant) : Option CacheEntry × ResponseCache :=
  match c.entries.get key with
  | none => (none, c)
  | some entry =>
    if entry.expired now then (none, removeExpired now c key)
    else (some { entry with lastUsed := c.accessTick }, c.touch key)

/-- One round of the loop of `purge`. -/
def purgeKey (state : ResponseCache × ℕ) (key : CacheKey) : ResponseCache × ℕ :=
  let taken := state.1.take key
  (release taken, if taken.2.isSome then state.2 + 1 else state.2)

/-- `purge`, with the number of entries it removed. -/
def purge (host path : Option (List Char)) : ResponseCache × ℕ :=
  (c.entries.keys.filter fun key => keyMatches key host path).foldl purgeKey (c, 0)

/-- The cache when `put` reserves its bytes for good: as it was if they fit, else with room made. -/
def roomFor (r : StoredResponse) (sweepNow : Instant) : ResponseCache :=
  if (c.reserve r.accountedSize).isSome then c else c.makeRoom r.accountedSize sweepNow

def Accepts (r : StoredResponse) : Prop :=
  r.body.length ≤ c.maxEntryBytes ∧ r.accountedSize ≤ c.maxTotalBytes

/-! ## Removing entries -/

/-- The entries of the keys in `gone` are removed, and what is counted of the entries may change. -/
structure Removed (gone : Set CacheKey) (c c' : ResponseCache) : Prop where
  maxEntryBytes : c'.maxEntryBytes = c.maxEntryBytes
  maxTotalBytes : c'.maxTotalBytes = c.maxTotalBytes
  accessTick : c'.accessTick = c.accessTick
  removed : ∀ key ∈ gone, c'.entries.get key = none
  kept : ∀ key ∉ gone, c'.entries.get key = c.entries.get key

namespace Removed

variable {c} {c' c'' : ResponseCache} {gone gone' : Set CacheKey}

lemma refl (c : ResponseCache) : Removed ∅ c c :=
  ⟨rfl, rfl, rfl, fun _ h => h.elim, fun _ _ => rfl⟩

lemma trans (h : Removed gone c c') (h' : Removed gone' c' c'') : Removed (gone ∪ gone') c c'' where
  maxEntryBytes := h'.maxEntryBytes.trans h.maxEntryBytes
  maxTotalBytes := h'.maxTotalBytes.trans h.maxTotalBytes
  accessTick := h'.accessTick.trans h.accessTick
  removed key hk := by
    by_cases hg : key ∈ gone'
    · exact h'.removed key hg
    · rw [h'.kept key hg]
      exact h.removed key (hk.resolve_right hg)
  kept key hk := by
    obtain ⟨hg, hg'⟩ := not_or.mp hk
    rw [h'.kept key hg', h.kept key hg]

lemma mono (h : Removed gone c c') (hs : gone ⊆ gone')
    (hn : ∀ key ∈ gone', key ∉ gone → c.entries.get key = none) : Removed gone' c c' where
  maxEntryBytes := h.maxEntryBytes
  maxTotalBytes := h.maxTotalBytes
  accessTick := h.accessTick
  removed key hk := by
    by_cases hg : key ∈ gone
    · exact h.removed key hg
    · rw [h.kept key hg, hn key hk hg]
  kept key hk := h.kept key fun hg => hk (hs hg)

lemma of_get (h : Removed gone c c') {key : CacheKey} {entry : CacheEntry}
    (hge : c'.entries.get key = some entry) :
    key ∉ gone ∧ c.entries.get key = some entry := by
  have hn : key ∉ gone := by
    intro hg
    rw [h.removed key hg] at hge
    cases hge
  exact ⟨hn, h.kept key hn ▸ hge⟩

lemma notMem_iff (h : Removed gone c c') {key : CacheKey} (hm : key ∈ c.entries) :
    key ∉ c'.entries ↔ key ∈ gone := by
  rw [← AList.get_eq_none_iff]
  refine ⟨fun hn => ?_, h.removed key⟩
  by_contra hk
  rw [h.kept key hk, AList.get_eq_none_iff] at hn
  exact hn hm

end Removed

variable {r : StoredResponse} (now : Instant) (keys : List CacheKey) (key : CacheKey)

lemma removed_take : Removed {key} c (release (c.take key)) := by
  have he : (release (c.take key)).entries = c.entries.erase key := by
    unfold take
    cases c.entries.get key <;> rfl
  have hg : ∀ k, (release (c.take key)).entries.get k
      = if k = key then none else c.entries.get k := by
    intro k
    rw [he, AList.get_erase]
  refine ⟨?_, ?_, ?_, fun k hk => (hg k).trans (if_pos hk),
    fun k hk => (hg k).trans (if_neg hk)⟩
  all_goals
    unfold take
    cases c.entries.get key <;> rfl

lemma removed_evictKey : Removed {key} c (c.evictKey key) := by
  have h := c.removed_take key
  unfold evictKey
  cases ht : c.take key with
  | mk c' old =>
    rw [ht] at h
    cases old with
    | some entry => exact ⟨h.maxEntryBytes, h.maxTotalBytes, h.accessTick, h.removed, h.kept⟩
    | none => exact h

def Expired (now : Instant) (key : CacheKey) : Prop :=
  (c.entries.get key).any (·.expired now) = true

lemma removed_removeExpired :
    Removed {k | k = key ∧ c.Expired now k} c (removeExpired now c key) := by
  unfold removeExpired
  by_cases he : c.Expired now key
  · have hs : {k | k = key ∧ c.Expired now k} = {key} := by
      ext k
      exact ⟨fun h => h.1, fun h => ⟨h, h ▸ he⟩⟩
    have ht : c.takeExpired key now = c.take key := if_pos he
    rw [ht, hs]
    exact c.removed_take key
  · have hs : {k | k = key ∧ c.Expired now k} = ∅ := by
      rw [Set.eq_empty_iff_forall_notMem]
      rintro k ⟨rfl, h⟩
      exact he h
    have ht : c.takeExpired key now = (c, none) := if_neg he
    rw [ht, hs]
    exact .refl c

lemma removed_foldl_removeExpired :
    Removed {k | k ∈ keys ∧ c.Expired now k} c (keys.foldl (removeExpired now) c) := by
  induction keys generalizing c with
  | nil =>
    have hse : {k | k ∈ ([] : List CacheKey) ∧ c.Expired now k} = ∅ := by simp
    rw [hse]
    exact .refl c
  | cons key keys ih =>
    have ho := c.removed_removeExpired now key
    have hse : {k | k ∈ key :: keys ∧ c.Expired now k} = {k | k = key ∧ c.Expired now k} ∪
        {k | k ∈ keys ∧ (removeExpired now c key).Expired now k} := by
      ext k
      by_cases hk : k ∈ {k | k = key ∧ c.Expired now k}
      · exact iff_of_true ⟨hk.1 ▸ List.mem_cons_self, hk.2⟩ (Or.inl hk)
      · have hs : (removeExpired now c key).Expired now k ↔ c.Expired now k := by
          rw [Expired, Expired, ho.kept k hk]
        constructor
        · rintro ⟨hm, he⟩
          rcases List.mem_cons.mp hm with heq | hm
          · exact absurd ⟨heq, he⟩ hk
          · exact Or.inr ⟨hm, hs.mpr he⟩
        · rintro (h | ⟨hm, he⟩)
          · exact absurd h hk
          · exact ⟨List.mem_cons_of_mem _ hm, hs.mp he⟩
    rw [hse]
    exact ho.trans (ih _)

lemma removed_sweepExpired : Removed {key | c.Expired now key} c (c.sweepExpired now) := by
  have h := c.removed_foldl_removeExpired now
    ((c.entries.entries.filter fun e => e.2.expired now).map fun e => e.1)
  have hs : {key | c.Expired now key} = {k | k ∈
      (c.entries.entries.filter fun e => e.2.expired now).map (fun e => e.1) ∧
        c.Expired now k} := by
    ext key
    refine ⟨fun he => ⟨?_, he⟩, fun h => h.2⟩
    obtain ⟨entry, hg, hen⟩ := (Option.any_eq_true _ _).mp he
    exact List.mem_map.mpr ⟨⟨key, entry⟩, List.mem_filter.mpr
      ⟨AList.mem_entries_iff_get.mpr hg, hen⟩, rfl⟩
  rw [hs]
  exact h

lemma removed_foldl_purgeKey (n : ℕ) :
    Removed {key | key ∈ keys} c (keys.foldl purgeKey (c, n)).1 := by
  induction keys generalizing c n with
  | nil => simpa using .refl c
  | cons key keys ih =>
    have hs : {k | k ∈ key :: keys} = {key} ∪ {k | k ∈ keys} := by
      ext k
      simp
    rw [hs]
    exact (c.removed_take key).trans (ih _ _)

lemma removed_purge (host path : Option (List Char)) :
    Removed {key | keyMatches key host path = true} c (c.purge host path).1 := by
  refine (c.removed_foldl_purgeKey _ 0).mono (fun key hk => ?_) fun key hm hk => ?_
  · exact (List.mem_filter.mp hk).2
  · rw [AList.get_eq_none_iff]
    exact fun hme => hk (List.mem_filter.mpr ⟨hme, hm⟩)

lemma removed_evict (target : ℕ) : ∀ (keys : List CacheKey) (c : ResponseCache),
    ∃ gone kept, keys = gone ++ kept ∧ Removed {key | key ∈ gone} c (evict target keys c)
  | [], c => ⟨[], [], rfl, by simpa using .refl c⟩
  | key :: keys, c => by
    unfold evict
    by_cases ht : c.totalBytes ≤ target
    · rw [if_pos ht]
      exact ⟨[], key :: keys, rfl, by simpa using .refl c⟩
    · rw [if_neg ht]
      obtain ⟨gone, kept, rfl, h⟩ := removed_evict target keys (c.evictKey key)
      refine ⟨key :: gone, kept, rfl, ?_⟩
      have hs : {k | k ∈ key :: gone} = {key} ∪ {k | k ∈ gone} := by
        ext k
        simp
      rw [hs]
      exact (c.removed_evictKey key).trans h

/-- `make_room` removes what has expired and then the first keys in the order of their last use. -/
lemma removed_makeRoom (size : ℕ) (now : Instant) :
    ∃ gone kept, (c.sweepExpired now).byAge = gone ++ kept ∧
      Removed {key | key ∈ gone} (c.sweepExpired now) (c.makeRoom size now) := by
  unfold makeRoom
  dsimp only
  split_ifs
  · exact ⟨[], _, rfl, by simpa using .refl _⟩
  · exact removed_evict _ _ _

lemma exists_removed_roomFor (r : StoredResponse) (sweepNow : Instant) :
    ∃ gone, Removed gone c (c.roomFor r sweepNow) := by
  unfold roomFor
  split_ifs
  · exact ⟨∅, .refl c⟩
  · obtain ⟨gone, _, -, h⟩ := c.removed_makeRoom r.accountedSize sweepNow
    exact ⟨_, (c.removed_sweepExpired sweepNow).trans h⟩

/-! ## Storing an entry -/

/-- The response is stored, after room has been made for it where that was needed. -/
structure Stored (r : StoredResponse) (sweepNow expiresAt : Instant) (c c' : ResponseCache) :
    Prop where
  entries : c'.entries =
    (c.roomFor r sweepNow).entries.insert r.key (r.entry expiresAt c.accessTick)
  maxEntryBytes : c'.maxEntryBytes = c.maxEntryBytes
  maxTotalBytes : c'.maxTotalBytes = c.maxTotalBytes
  accessTick : c'.accessTick = (c.accessTick + 1) % 2 ^ 64

lemma reserve_roomFor {limit : ℕ} (h : Books limit c 0) (hr : c.Accepts r) (sweepNow : Instant) :
    ∃ reserved, (c.roomFor r sweepNow).reserve r.accountedSize = some reserved ∧
      Books limit reserved (0 + r.accountedSize) ∧
      ∀ now, c.put r sweepNow now = reserved.finishPut r now := by
  have hbo : ¬ c.maxEntryBytes < r.body.length := not_lt.mpr hr.1
  have hs : ¬ c.maxTotalBytes < r.accountedSize := not_lt.mpr hr.2
  cases hre : c.reserve r.accountedSize with
  | some reserved =>
    have hro : c.roomFor r sweepNow = c := if_pos (by rw [hre]; rfl)
    rw [hro]
    refine ⟨reserved, hre, h.reserve hre, fun now => ?_⟩
    simp only [put, hbo, hs, if_false, hre]
  | none =>
    have hro : c.roomFor r sweepNow = c.makeRoom r.accountedSize sweepNow :=
      if_neg (by rw [hre]; exact Bool.false_ne_true)
    obtain ⟨hb, hf⟩ := makeRoom_spec h (hr.2.trans h.limit_eq.le) sweepNow
    obtain ⟨reserved, hres⟩ := exists_reserve hb hf
    rw [hro]
    refine ⟨reserved, hres, hb.reserve hres, fun now => ?_⟩
    simp only [put, hbo, hs, if_false, hre, hres]

/-- **A response that is small enough is stored**, if its expiry instant can be computed. -/
lemma put_of_accepts {limit : ℕ} (h : Books limit c 0) (hr : c.Accepts r) (sweepNow : Instant)
    {now expiresAt : Instant} (he : now.checkedAdd r.ttl = some expiresAt) :
    ∃ c', c.put r sweepNow now = .returned c' ∧ Stored r sweepNow expiresAt c c' ∧
      Books limit c' 0 := by
  obtain ⟨reserved, hre, hb, hp⟩ := c.reserve_roomFor h hr sweepNow
  obtain ⟨gone, hro⟩ := c.exists_removed_roomFor r sweepNow
  unfold reserve at hre
  split_ifs at hre
  cases hre
  refine ⟨_, (hp now).trans ?_, ?_, (hb.store expiresAt).release⟩
  · rw [finishPut, he]
  · unfold store
    cases (c.roomFor r sweepNow).entries.get r.key
    all_goals
      refine ⟨?_, hro.maxEntryBytes, hro.maxTotalBytes, ?_⟩
      · rw [← hro.accessTick]
        rfl
      · rw [← hro.accessTick]
        rfl

lemma put_of_not_accepts (hr : ¬ c.Accepts r) (sweepNow now : Instant) :
    c.put r sweepNow now = .returned c := by
  unfold put
  by_cases hb : c.maxEntryBytes < r.body.length
  · exact if_pos hb
  · rw [if_neg hb, if_pos]
    exact not_le.mp fun hs => hr ⟨not_lt.mp hb, hs⟩

/-! ## Accounting -/

section

variable {c} {limit : ℕ} (h : Books limit c 0)
include h

lemma books_get (key : CacheKey) (now : Instant) : Books limit (c.get key now).2 0 := by
  unfold get
  cases c.entries.get key with
  | none => exact h
  | some entry =>
    dsimp only
    split_ifs
    · exact books_removeExpired h now key
    · exact h.touch key

lemma books_purge (host path : Option (List Char)) : Books limit (c.purge host path).1 0 := by
  have hl : ∀ (keys : List CacheKey) {c : ResponseCache} (n : ℕ), Books limit c 0 →
      Books limit (keys.foldl purgeKey (c, n)).1 0 := by
    intro keys
    induction keys with
    | nil => exact fun _ hb => hb
    | cons key keys ih => exact fun _ hb => ih _ (hb.take key).release
  exact hl _ 0 h

end

end LoadBalancer.Proxy.ResponseCache
