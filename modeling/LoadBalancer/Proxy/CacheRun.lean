import LoadBalancer.Lib.Recency
import LoadBalancer.Lib.Run
import LoadBalancer.Proxy.CacheCalls

/-!
# The response cache over whole runs

What the calls of a `ResponseCache` make of each other, one after another.  From the list of calls,
each with what it returned, the keys that were used are read off, in order; `access_tick` counts
them, and the `last_used` of an entry is the position of the last use of its key.  The counter is a
`u64`: positions are told from it only while there are at most `2 ^ 64` of them.
-/

namespace LoadBalancer.Proxy

open List AList

/-- A call with the instants it read and, for `get`, what it returned. -/
inductive CacheEvent
  | put (r : StoredResponse) (sweepNow now : Instant)
  | get (key : CacheKey) (now : Instant) (answer : Option CacheEntry)
  | purge (host path : Option (List Char))
  | sweep (now : Instant)

namespace ResponseCache

open Recency

inductive Step : ResponseCache → CacheEvent → ResponseCache → Prop
  | put {c c' : ResponseCache} {r : StoredResponse} {sweepNow now : Instant} :
      c.put r sweepNow now = .returned c' → Step c (.put r sweepNow now) c'
  | get (c : ResponseCache) (key : CacheKey) (now : Instant) :
      Step c (.get key now (c.get key now).1) (c.get key now).2
  | purge (c : ResponseCache) (host path : Option (List Char)) :
      Step c (.purge host path) (c.purge host path).1
  | sweep (c : ResponseCache) (now : Instant) : Step c (.sweep now) (c.sweepExpired now)

instance (c : ResponseCache) (r : StoredResponse) : Decidable (c.Accepts r) :=
  inferInstanceAs (Decidable (_ ∧ _))

instance (c : ResponseCache) (now : Instant) (key : CacheKey) : Decidable (c.Expired now key) :=
  inferInstanceAs (Decidable (_ = true))

def usedKey (c₀ : ResponseCache) : CacheEvent → Option CacheKey
  | .put r _ _ => if c₀.Accepts r then some r.key else none
  | .get key _ answer => answer.map fun _ => key
  | .purge _ _ => none
  | .sweep _ => none

def uses (c₀ : ResponseCache) (events : List CacheEvent) : List CacheKey :=
  events.filterMap c₀.usedKey

def Stores (c₀ : ResponseCache) (key : CacheKey) : CacheEvent → Prop
  | .put r _ _ => c₀.Accepts r ∧ r.key = key
  | _ => False

def Purges (key : CacheKey) : CacheEvent → Prop
  | .purge host path => keyMatches key host path = true
  | _ => False

variable {c₀ c c' : ResponseCache} {e : CacheEvent} {events : List CacheEvent} {key : CacheKey}
  {entry : CacheEntry}

lemma uses_snoc : c₀.uses (events ++ [e]) = c₀.uses events ++ (c₀.usedKey e).toList := by
  unfold uses
  rw [filterMap_append]
  cases h : c₀.usedKey e with
  | none => rw [filterMap_cons_none h]; rfl
  | some key => rw [filterMap_cons_some h]; rfl

/-! ## One call -/

/-- The limits of the cache, and that its bytes are accounted for. -/
structure Kept (c₀ c : ResponseCache) : Prop where
  maxEntryBytes : c.maxEntryBytes = c₀.maxEntryBytes
  books : Books c₀.maxTotalBytes c 0

variable {now : Instant} {r : StoredResponse} (h : Kept c₀ c)

include h

lemma Kept.accepts_iff (r : StoredResponse) : c.Accepts r ↔ c₀.Accepts r := by
  rw [Accepts, Accepts, h.maxEntryBytes, h.books.limit_eq]

lemma stored_of_put (hr : c₀.Accepts r) {sweepNow : Instant}
    (hp : c.put r sweepNow now = .returned c') :
    ∃ expiresAt, now.checkedAdd r.ttl = some expiresAt ∧ Stored r sweepNow expiresAt c c' ∧
      Books c₀.maxTotalBytes c' 0 := by
  have ha := (h.accepts_iff r).mpr hr
  cases he : now.checkedAdd r.ttl with
  | some expiresAt =>
    obtain ⟨c'', hp', hs, hb⟩ := c.put_of_accepts h.books ha sweepNow he
    obtain rfl : c'' = c' := PutResult.returned.inj (hp'.symm.trans hp)
    exact ⟨expiresAt, rfl, hs, hb⟩
  | none =>
    obtain ⟨reserved, -, -, hre⟩ := c.reserve_roomFor h.books ha sweepNow
    rw [hre, finishPut, he] at hp
    cases hp

/-- What a call did to an entry that is there after it. -/
inductive Effect (c₀ c : ResponseCache) (key : CacheKey) : CacheEvent → CacheEntry → Prop
  | stored {r : StoredResponse} {sweepNow now expiresAt : Instant} : c₀.Accepts r → r.key = key →
      now.checkedAdd r.ttl = some expiresAt →
      Effect c₀ c key (.put r sweepNow now) (r.entry expiresAt c.accessTick)
  | touched {entry answer : CacheEntry} {now : Instant} : c.entries.get key = some entry →
      Effect c₀ c key (.get key now (some answer)) { entry with lastUsed := c.accessTick }
  | kept {e : CacheEvent} {entry : CacheEntry} : c.entries.get key = some entry →
      c₀.usedKey e ≠ some key → ¬ Purges key e → Effect c₀ c key e entry

structure Follows (c₀ c : ResponseCache) (e : CacheEvent) (c' : ResponseCache) : Prop where
  kept : Kept c₀ c'
  accessTick : c'.accessTick =
    if (c₀.usedKey e).isSome then (c.accessTick + 1) % 2 ^ 64 else c.accessTick
  effect : ∀ key entry, c'.entries.get key = some entry → Effect c₀ c key e entry

lemma follows_of_removed {gone : Set CacheKey} (hr : Removed gone c c')
    (hbo : Books c₀.maxTotalBytes c' 0) (hu : c₀.usedKey e = none)
    (hp : ∀ key, Purges key e → key ∈ gone) : Follows c₀ c e c' where
  kept := ⟨hr.maxEntryBytes.trans h.maxEntryBytes, hbo⟩
  accessTick := by
    rw [hu]
    exact hr.accessTick
  effect key entry hg := by
    obtain ⟨hn, hb⟩ := hr.of_get hg
    refine .kept hb ?_ fun hpu => hn (hp key hpu)
    rw [hu]
    exact (Option.some_ne_none key).symm

lemma follows_put {sweepNow : Instant} (hp : c.put r sweepNow now = .returned c') :
    Follows c₀ c (.put r sweepNow now) c' := by
  by_cases hr : c₀.Accepts r
  · have hu : c₀.usedKey (.put r sweepNow now) = some r.key := if_pos hr
    obtain ⟨expiresAt, he, hs, hb⟩ := stored_of_put h hr hp
    obtain ⟨gone, hro⟩ := c.exists_removed_roomFor r sweepNow
    refine ⟨⟨hs.maxEntryBytes.trans h.maxEntryBytes, hb⟩, ?_, fun key entry hg => ?_⟩
    · rw [hu]
      exact hs.accessTick
    · rw [hs.entries, get_insert] at hg
      split_ifs at hg with hk
      · cases hg
        exact .stored hr hk.symm he
      · refine .kept (hro.of_get hg).2 ?_ id
        rw [hu]
        exact fun heq => hk (Option.some.inj heq).symm
  · have hu : c₀.usedKey (.put r sweepNow now) = none := if_neg hr
    have hsa := c.put_of_not_accepts (mt (h.accepts_iff r).mp hr) sweepNow now
    obtain rfl : c = c' := PutResult.returned.inj (hsa.symm.trans hp)
    exact follows_of_removed h (.refl c) h.books hu fun _ => False.elim

lemma follows_get (key : CacheKey) (now : Instant) :
    Follows c₀ c (.get key now (c.get key now).1) (c.get key now).2 := by
  have hb := books_get h.books key now
  cases hg : c.entries.get key with
  | none =>
    have hc : c.get key now = (none, c) := by rw [get, hg]
    rw [hc]
    exact follows_of_removed h (.refl c) h.books rfl fun _ => False.elim
  | some found =>
    by_cases hex : found.expired now = true
    · have hc : c.get key now = (none, removeExpired now c key) := by
        rw [get, hg]
        exact if_pos hex
      rw [hc] at hb ⊢
      exact follows_of_removed h (c.removed_removeExpired now key) hb rfl fun _ => False.elim
    · have hc : c.get key now =
          (some { found with lastUsed := c.accessTick }, c.touch key) := by
        rw [get, hg]
        exact if_neg hex
      have ht : c.touch key = { c with
          entries := c.entries.insert key { found with lastUsed := c.accessTick }
          accessTick := (c.accessTick + 1) % 2 ^ 64 } := by
        rw [touch, hg]
      rw [hc] at hb ⊢
      rw [ht] at hb ⊢
      refine ⟨⟨h.maxEntryBytes, hb⟩, rfl, fun k entry he => ?_⟩
      dsimp only at he
      rw [get_insert] at he
      split_ifs at he with hk
      · obtain rfl := hk
        cases he
        exact .touched hg
      · exact .kept he (fun heq => hk (Option.some.inj heq).symm) id

lemma follows_of_step (hs : Step c e c') : Follows c₀ c e c' := by
  cases hs with
  | put hp => exact follows_put h hp
  | get key now => exact follows_get h key now
  | purge host path =>
    exact follows_of_removed h (c.removed_purge host path) (books_purge h.books host path) rfl
      fun _ => id
  | sweep now =>
    exact follows_of_removed h (c.removed_sweepExpired now) (books_sweepExpired h.books now) rfl
      fun _ => False.elim

/-! ## Recency -/

/-- The labels of the entries are the positions of their last uses. -/
structure Recorded (c₀ : ResponseCache) (events : List CacheEvent) (c : ResponseCache) : Prop where
  kept : Kept c₀ c
  accessTick : c.accessTick = (c₀.uses events).length % 2 ^ 64
  lastUsed : ∀ key entry, c.entries.get key = some entry →
    ∃ i, LastAt (c₀.uses events) key i ∧ entry.lastUsed = i % 2 ^ 64

omit h

lemma Recorded.step (h : Recorded c₀ events c) (hs : Step c e c') :
    Recorded c₀ (events ++ [e]) c' := by
  have hf := follows_of_step h.kept hs
  refine ⟨hf.kept, ?_, fun key entry hg => ?_⟩
  · rw [hf.accessTick, uses_snoc, h.accessTick]
    cases c₀.usedKey e with
    | none => simp
    | some key => simp [Nat.add_mod]
  · have hu : c₀.usedKey e = some key →
        LastAt (c₀.uses (events ++ [e])) key (c₀.uses events).length := by
      intro hk
      rw [uses_snoc, hk]
      exact lastAt_snoc _ _
    rw [uses_snoc]
    cases hf.effect key entry hg with
    | stored hr hk _ =>
      have hus := hu (by rw [← hk]; exact if_pos hr)
      exact ⟨_, uses_snoc ▸ hus, h.accessTick⟩
    | touched _ => exact ⟨_, uses_snoc ▸ hu rfl, h.accessTick⟩
    | kept hb hn _ =>
      obtain ⟨i, hl, hi⟩ := h.lastUsed key entry hb
      refine ⟨i, ?_, hi⟩
      cases hk : c₀.usedKey e with
      | none => rwa [Option.toList_none, append_nil]
      | some other =>
        refine hl.snoc fun heq => hn ?_
        rw [hk, heq]

lemma recorded_of_run (h₀ : Recorded c₀ [] c₀) (hr : Run Step c₀ events c) :
    Recorded c₀ events c := by
  induction hr with
  | start => exact h₀
  | next _ hs ih => exact ih.step hs

lemma lastUsed_le_of_byAge {first rest : List CacheKey} (h : c.byAge = first ++ rest)
    {a b : CacheKey} {ea eb : CacheEntry} (ha : a ∈ first) (hb : b ∈ rest)
    (hg : c.entries.get a = some ea) (hge : c.entries.get b = some eb) :
    ea.lastUsed ≤ eb.lastUsed := by
  let before : ℕ × CacheKey → ℕ × CacheKey → Prop := fun p q => p.1 < q.1 ∨ (p.1 = q.1 ∧ p.2 ≤ q.2)
  have ht : Std.Total before := ⟨fun p q => by
    rcases lt_trichotomy p.1 q.1 with hlt | heq | hlt
    · exact Or.inl (Or.inl hlt)
    · rcases le_total p.2 q.2 with hle | hle
      · exact Or.inl (Or.inr ⟨heq, hle⟩)
      · exact Or.inr (Or.inr ⟨heq.symm, hle⟩)
    · exact Or.inr (Or.inl hlt)⟩
  have htr : IsTrans (ℕ × CacheKey) before := ⟨fun p q r hpq hqr => by
    rcases hpq with hlt | ⟨heq, hle⟩ <;> rcases hqr with hlt' | ⟨heq', hle'⟩
    · exact Or.inl (hlt.trans hlt')
    · exact Or.inl (heq' ▸ hlt)
    · exact Or.inl (heq ▸ hlt')
    · exact Or.inr ⟨heq.trans heq', hle.trans hle'⟩⟩
  obtain ⟨first', rest', hs, rfl, rfl⟩ := map_eq_append_iff.mp h
  have hso := pairwise_insertionSort before
    (c.entries.entries.map fun e => (e.2.lastUsed, e.1))
  have hl : ∀ p ∈ first' ++ rest', ∀ entry, c.entries.get p.2 = some entry →
      p.1 = entry.lastUsed := by
    intro p hp entry hget
    rw [← hs, mem_insertionSort, mem_map] at hp
    obtain ⟨e, he, rfl⟩ := hp
    rw [mem_entries_iff_get.mp he] at hget
    rw [Option.some.inj hget]
  obtain ⟨p, hp, rfl⟩ := mem_map.mp ha
  obtain ⟨q, hq, rfl⟩ := mem_map.mp hb
  have hle : before p q := (pairwise_append.mp (hs ▸ hso)).2.2 p hp q hq
  rw [← hl p (mem_append_left _ hp) ea hg, ← hl q (mem_append_right _ hq) eb hge]
  rcases hle with hlt | ⟨heq, -⟩
  · exact hlt.le
  · exact heq.le

/-- Room is made by removing what has expired and, if that is not enough, what was used longest
ago. -/
structure Evicts (used : List CacheKey) (size : ℕ) (now : Instant) (c room : ResponseCache) :
    Prop where
  same : ∀ key ∈ room.entries, room.entries.get key = c.entries.get key
  expired : ∀ key, c.Expired now key → key ∉ room.entries
  needed : ∀ gone ∈ c.entries, ¬ c.Expired now gone → gone ∉ room.entries →
    c.maxTotalBytes - size < (c.sweepExpired now).totalBytes
  oldest : ∀ gone ∈ c.entries, ¬ c.Expired now gone → gone ∉ room.entries →
    ∀ kept ∈ room.entries, UsedBefore used gone kept

lemma Recorded.evicts (h : Recorded c₀ events c) (hlen : (c₀.uses events).length ≤ 2 ^ 64)
    (size : ℕ) (now : Instant) :
    Evicts (c₀.uses events) size now c (c.makeRoom size now) := by
  have hs := c.removed_sweepExpired now
  obtain ⟨first, rest, hb, hr⟩ := c.removed_makeRoom size now
  have hst : ∀ key ∈ (c.makeRoom size now).entries, ¬ c.Expired now key ∧
      (c.makeRoom size now).entries.get key = c.entries.get key := by
    intro key hm
    obtain ⟨entry, hget⟩ := exists_get_of_mem hm
    obtain ⟨hl, hbe⟩ := hs.of_get (hr.of_get hget).2
    exact ⟨hl, hget.trans hbe.symm⟩
  refine ⟨fun key hm => (hst key hm).2,
    fun key he hm => (hst key hm).1 he,
    fun gone hgo hl ho => ?_, fun gone hgo hl ho kept hk => ?_⟩
  · by_contra hfi
    have hsa : c.makeRoom size now = c.sweepExpired now := by
      unfold makeRoom
      dsimp only
      rw [hs.maxTotalBytes]
      exact if_pos (not_lt.mp hfi)
    rw [hsa, hs.notMem_iff hgo] at ho
    exact hl ho
  · have hsw : gone ∈ (c.sweepExpired now).entries := by
      by_contra hn
      exact hl ((hs.notMem_iff hgo).mp hn)
    obtain ⟨eg, hge⟩ := exists_get_of_mem hsw
    obtain ⟨ek, hg⟩ := exists_get_of_mem hk
    obtain ⟨hn, hg⟩ := hr.of_get hg
    have hf : gone ∈ first := (hr.notMem_iff hsw).mp ho
    have hre : kept ∈ rest := by
      have hm := mem_byAge (mem_of_get_eq_some hg)
      rw [hb, mem_append] at hm
      exact hm.resolve_left hn
    obtain ⟨i, hi, hla⟩ := h.lastUsed gone eg (hs.of_get hge).2
    obtain ⟨j, hj, hl'⟩ := h.lastUsed kept ek (hs.of_get hg).2
    have hle := lastUsed_le_of_byAge hb hf hre hge hg
    rw [hla, hl', Nat.mod_eq_of_lt (hi.lt_length.trans_le hlen),
      Nat.mod_eq_of_lt (hj.lt_length.trans_le hlen)] at hle
    refine hi.usedBefore hj (lt_of_le_of_ne hle fun heq => ?_)
    -- one position is the last use of one key, and no key is on both sides
    subst heq
    exact hn (hi.unique hj ▸ hf)

/-! ## Where an entry comes from -/

structure IsEntryOf (r : StoredResponse) (now : Instant) (entry : CacheEntry) : Prop where
  status : entry.status = r.status
  headers : entry.headers = r.headers
  body : entry.body = r.body
  expiresAt : now.checkedAdd r.ttl = some entry.expiresAt

/-- The entry was stored by a call of the run, and since then nothing else was stored under its key,
the key was not purged, and it was in the cache all the time. -/
def HeldSince (c₀ : ResponseCache) (events : List CacheEvent) (c : ResponseCache) (key : CacheKey)
    (entry : CacheEntry) : Prop :=
  ∃ before r sweepNow now after stored,
    events = before ++ .put r sweepNow now :: after ∧
      Run Step c₀ (before ++ [.put r sweepNow now]) stored ∧
      Run (Guarded (key ∈ ·.entries) Step) stored after c ∧
      c₀.Accepts r ∧ r.key = key ∧ IsEntryOf r now entry ∧
      ∀ e ∈ after, ¬ c₀.Stores key e ∧ ¬ Purges key e

lemma usedKey_of_stores (h : c₀.Stores key e) : c₀.usedKey e = some key := by
  cases e with
  | put r sweepNow now => exact (if_pos h.1).trans (congrArg some h.2)
  | get | purge | sweep => exact h.elim

lemma IsEntryOf.used (h : IsEntryOf r now entry) (tick : ℕ) :
    IsEntryOf r now { entry with lastUsed := tick } :=
  ⟨h.status, h.headers, h.body, h.expiresAt⟩

lemma HeldSince.used (h : HeldSince c₀ events c key entry) (tick : ℕ) :
    HeldSince c₀ events c key { entry with lastUsed := tick } := by
  obtain ⟨before, r, sweepNow, now, after, stored, he, hb, ha, hr, hk, hen, hal⟩ := h
  exact ⟨before, r, sweepNow, now, after, stored, he, hb, ha, hr, hk, hen.used tick, hal⟩

lemma HeldSince.step (h : HeldSince c₀ events c key entry) (hm : key ∈ c.entries)
    (hs : Step c e c') (hm' : key ∈ c'.entries)
    (hev : ¬ c₀.Stores key e ∧ ¬ Purges key e) : HeldSince c₀ (events ++ [e]) c' key entry := by
  obtain ⟨before, r, sweepNow, now, after, stored, rfl, hb, ha, hr, hk, he, hal⟩ := h
  refine ⟨before, r, sweepNow, now, after ++ [e], stored, by simp, hb,
    ha.next ⟨hm, hs, hm'⟩, hr, hk, he, fun e' he' => ?_⟩
  rcases mem_append.mp he' with he' | he'
  · exact hal e' he'
  · rw [mem_singleton.mp he']
    exact hev

lemma heldSince_of_run (h₀ : Recorded c₀ [] c₀) (hem : c₀.entries = ∅)
    (hru : Run Step c₀ events c) :
    ∀ key entry, c.entries.get key = some entry → HeldSince c₀ events c key entry := by
  induction hru with
  | start =>
    intro key entry hg
    rw [hem] at hg
    cases hg
  | next hru hs ih =>
    intro key entry hg
    have hm := mem_of_get_eq_some hg
    cases (follows_of_step (recorded_of_run h₀ hru).kept hs).effect key entry hg with
    | stored hr hk he =>
      exact ⟨_, _, _, _, [], _, rfl, hru.next hs, .start, hr, hk, ⟨rfl, rfl, rfl, he⟩,
        fun _ hn => absurd hn not_mem_nil⟩
    | touched hb =>
      exact ((ih key _ hb).step (mem_of_get_eq_some hb) hs hm
        ⟨id, id⟩).used _
    | kept hb hu hp =>
      exact (ih key _ hb).step (mem_of_get_eq_some hb) hs hm
        ⟨fun hst => hu (usedKey_of_stores hst), hp⟩

lemma get_eq_some {answer : CacheEntry} (h : (c.get key now).1 = some answer) :
    ∃ found, c.entries.get key = some found ∧ answer.expired now = false ∧
      answer = { found with lastUsed := c.accessTick } := by
  unfold get at h
  cases hg : c.entries.get key with
  | none =>
    rw [hg] at h
    cases h
  | some found =>
    rw [hg] at h
    dsimp only at h
    split_ifs at h with he
    cases h
    exact ⟨found, rfl, Bool.eq_false_of_not_eq_true he, rfl⟩

/-! ## The cache is a bounded map that forgets what was used longest ago -/

lemma recorded_new (maxEntryBytes : ℕ) {maxTotalBytes : ℕ} (defaultTtl : Duration)
    (h : maxTotalBytes < 2 ^ 64) :
    Recorded (new maxEntryBytes maxTotalBytes defaultTtl) []
      (new maxEntryBytes maxTotalBytes defaultTtl) where
  kept := ⟨rfl, books_new maxEntryBytes defaultTtl h⟩
  accessTick := rfl
  lastUsed key entry hg := by cases hg

def page (key : String) : StoredResponse where
  key := key.toList
  status := 200
  headers := ⟨[]⟩
  body := []
  ttl := .fromSecs 3600

def noon : Instant := .ofSecs 43200 (by decide)

def onePm : Instant := .ofSecs 46800 (by decide)

def twoPages : ResponseCache := new 100 900 (.fromSecs 3600)

/-- The two pages, `b` last used at the position that its label says. -/
def holdingTwo (label tick : ℕ) : ResponseCache :=
  { twoPages with
    entries := ⟨[⟨['b'], (page "b").entry onePm label⟩, ⟨['a'], (page "a").entry onePm 1⟩],
      (by decide : [['b'], ['a']].Nodup)⟩
    totalBytes := 642
    accessTick := tick }

lemma run_holdingTwo : Run Step twoPages
    [.put (page "b") noon noon, .put (page "a") noon noon,
      .get ['b'] noon (some ((page "b").entry onePm 2))] (holdingTwo 2 3) :=
  ((Run.start.next (.put rfl)).next (.put rfl)).next (.get _ _ _)

lemma get_holdingTwo (label tick : ℕ) : (holdingTwo label tick).get ['b'] noon =
    (some ((page "b").entry onePm tick), holdingTwo tick ((tick + 1) % 2 ^ 64)) := rfl

lemma run_get_b (n : ℕ) : ∃ events used,
    Run Step twoPages events (holdingTwo ((2 + n) % 2 ^ 64) ((3 + n) % 2 ^ 64)) ∧
      twoPages.uses events = used ++ [['b']] := by
  induction n with
  | zero => exact ⟨_, [['b'], ['a']], run_holdingTwo, rfl⟩
  | succ n ih =>
    obtain ⟨events, _, hr, -⟩ := ih
    have hs := Step.get (holdingTwo ((2 + n) % 2 ^ 64) ((3 + n) % 2 ^ 64)) ['b'] noon
    have hl : (3 + n) % 2 ^ 64 = (2 + (n + 1)) % 2 ^ 64 := by omega
    have ht : ((3 + n) % 2 ^ 64 + 1) % 2 ^ 64 = (3 + (n + 1)) % 2 ^ 64 := by omega
    rw [get_holdingTwo, ht] at hs
    exact ⟨_, _, hl ▸ hr.next hs, uses_snoc⟩

end ResponseCache

end LoadBalancer.Proxy
