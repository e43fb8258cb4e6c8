import LoadBalancer.Lib.Interleaving
import LoadBalancer.Proxy.Cache

/-!
# Concurrent calls of the response cache

The counter and the map of the cache are separate: bytes are reserved before an entry is inserted,
and given back after an entry is removed, each in a step of its own.  In between they are held by
the call.

What a call sees of the map when it iterates over it is any list of keys: other calls go on
meanwhile.  A call whose expiry instant overflows panics; the runs here are those in which no call
does.
-/

namespace LoadBalancer.Proxy

open Interleaving

/-! ## Calls and their steps -/

/-- The loops that remove entries, with the keys that are still to come. -/
inductive CacheLoop
  /-- `sweep_expired`, by itself or for a `put` that needs room. -/
  | sweep (now : Instant) (keys : List CacheKey) (waiting : Option StoredResponse)
  /-- `make_room`, before the counter is read. -/
  | evict (target : ℕ) (keys : List CacheKey) (r : StoredResponse)
  /-- `make_room`, with an eviction to be counted. -/
  | evicted (target : ℕ) (keys : List CacheKey) (r : StoredResponse)
  | purge (keys : List CacheKey)

inductive CacheCall
  | put (r : StoredResponse)
  /-- `make_room` is called. -/
  | lock (r : StoredResponse)
  | collectExpired (waiting : Option StoredResponse)
  /-- `make_room`, after the sweep. -/
  | measure (r : StoredResponse)
  /-- `make_room`, with the key to be evicted. -/
  | remove (target : ℕ) (key : CacheKey) (keys : List CacheKey) (r : StoredResponse)
  | reserveAgain (r : StoredResponse)
  /-- The bytes are reserved. -/
  | store (r : StoredResponse)
  | get (key : CacheKey)
  | expire (key : CacheKey) (now : Instant)
  | collectMatching (host path : Option (List Char))
  | loop (l : CacheLoop)
  /-- Bytes of a removed entry are to be given back. -/
  | giveBack (bytes : ℕ) (next : Option CacheLoop)

namespace CacheCall

def Starts : CacheCall → Prop
  | put _ => True
  | get _ => True
  | collectExpired waiting => waiting = none
  | collectMatching _ _ => True
  | _ => False

def holds : CacheCall → ℕ
  | store r => r.accountedSize
  | giveBack bytes _ => bytes
  | _ => 0

end CacheCall

/-- The cache, and whether `make_room` is under way. -/
structure SharedCache where
  cache : ResponseCache
  evicting : Bool

/-- Where a call goes on after an attempt to remove an entry. -/
def afterRemoval (old : Option CacheEntry) (next : Option CacheLoop)
    (otherwise : Option CacheCall) : Option CacheCall :=
  match old with
  | some entry => some (.giveBack entry.accountedSize next)
  | none => otherwise

open CacheCall CacheLoop in
inductive CacheStep : SharedCache → CacheCall → SharedCache → Option CacheCall → Prop
  | putTooLarge {s : SharedCache} {r : StoredResponse}
      (h : s.cache.maxEntryBytes < r.body.length ∨ s.cache.maxTotalBytes < r.accountedSize) :
      CacheStep s (put r) s none
  | putReserved {s : SharedCache} {r : StoredResponse} {c : ResponseCache}
      (hbody : r.body.length ≤ s.cache.maxEntryBytes)
      (hsize : r.accountedSize ≤ s.cache.maxTotalBytes)
      (h : s.cache.reserve r.accountedSize = some c) :
      CacheStep s (put r) { s with cache := c } (some (store r))
  | putRefused {s : SharedCache} {r : StoredResponse}
      (hbody : r.body.length ≤ s.cache.maxEntryBytes)
      (hsize : r.accountedSize ≤ s.cache.maxTotalBytes)
      (h : s.cache.reserve r.accountedSize = none) :
      CacheStep s (put r) s (some (lock r))
  | lock {s : SharedCache} {r : StoredResponse} (h : s.evicting = false) :
      CacheStep s (lock r) { s with evicting := true } (some (collectExpired (some r)))
  | collectExpired {s : SharedCache} {waiting : Option StoredResponse} (now : Instant)
      (keys : List CacheKey) :
      CacheStep s (collectExpired waiting) s (some (loop (sweep now keys waiting)))
  | sweepKey {s : SharedCache} {now : Instant} {key : CacheKey} {keys : List CacheKey}
      {waiting : Option StoredResponse} :
      CacheStep s (loop (sweep now (key :: keys) waiting))
        { s with cache := (s.cache.takeExpired key now).1 }
        (afterRemoval (s.cache.takeExpired key now).2 (some (sweep now keys waiting))
          (some (loop (sweep now keys waiting))))
  | sweepEnd {s : SharedCache} {now : Instant} {waiting : Option StoredResponse} :
      CacheStep s (loop (sweep now [] waiting)) s (waiting.map measure)
  | measureFits {s : SharedCache} {r : StoredResponse}
      (h : s.cache.totalBytes ≤ s.cache.maxTotalBytes - r.accountedSize) :
      CacheStep s (measure r) { s with evicting := false } (some (reserveAgain r))
  | measureFull {s : SharedCache} {r : StoredResponse} (keys : List CacheKey)
      (h : s.cache.maxTotalBytes - r.accountedSize < s.cache.totalBytes) :
      CacheStep s (measure r) s (some (loop (evict
        (s.cache.maxTotalBytes - r.accountedSize - s.cache.maxTotalBytes / 10) keys r)))
  | evictNext {s : SharedCache} {target : ℕ} {key : CacheKey} {keys : List CacheKey}
      {r : StoredResponse} (h : target < s.cache.totalBytes) :
      CacheStep s (loop (evict target (key :: keys) r)) s (some (remove target key keys r))
  | evictEnd {s : SharedCache} {target : ℕ} {keys : List CacheKey} {r : StoredResponse}
      (h : keys = [] ∨ s.cache.totalBytes ≤ target) :
      CacheStep s (loop (evict target keys r)) { s with evicting := false }
        (some (reserveAgain r))
  | remove {s : SharedCache} {target : ℕ} {key : CacheKey} {keys : List CacheKey}
      {r : StoredResponse} :
      CacheStep s (remove target key keys r) { s with cache := (s.cache.take key).1 }
        (afterRemoval (s.cache.take key).2 (some (evicted target keys r))
          (some (loop (evict target keys r))))
  | countEviction {s : SharedCache} {target : ℕ} {keys : List CacheKey} {r : StoredResponse} :
      CacheStep s (loop (evicted target keys r))
        { s with cache.evictions := (s.cache.evictions + 1) % 2 ^ 64 }
        (some (loop (evict target keys r)))
  | reservedAgain {s : SharedCache} {r : StoredResponse} {c : ResponseCache}
      (h : s.cache.reserve r.accountedSize = some c) :
      CacheStep s (reserveAgain r) { s with cache := c } (some (store r))
  | refusedAgain {s : SharedCache} {r : StoredResponse}
      (h : s.cache.reserve r.accountedSize = none) :
      CacheStep s (reserveAgain r) s none
  | store {s : SharedCache} {r : StoredResponse} {expiresAt : Instant} (now : Instant)
      (h : now.checkedAdd r.ttl = some expiresAt) :
      CacheStep s (store r) { s with cache := (s.cache.store r expiresAt).1 }
        (afterRemoval (s.cache.store r expiresAt).2 none none)
  | getValid {s : SharedCache} {key : CacheKey} {entry : CacheEntry} (now : Instant)
      (hentry : s.cache.entries.get key = some entry) (h : entry.expired now = false) :
      CacheStep s (get key) { s with cache := s.cache.touch key } none
  | getExpired {s : SharedCache} {key : CacheKey} {entry : CacheEntry} (now : Instant)
      (hentry : s.cache.entries.get key = some entry) (h : entry.expired now = true) :
      CacheStep s (get key) s (some (expire key now))
  | getAbsent {s : SharedCache} {key : CacheKey} (h : s.cache.entries.get key = none) :
      CacheStep s (get key) s none
  | expire {s : SharedCache} {key : CacheKey} {now : Instant} :
      CacheStep s (expire key now) { s with cache := (s.cache.takeExpired key now).1 }
        (afterRemoval (s.cache.takeExpired key now).2 none none)
  | collectMatching {s : SharedCache} {host path : Option (List Char)} (keys : List CacheKey)
      (h : ∀ key ∈ keys, keyMatches key host path = true) :
      CacheStep s (collectMatching host path) s (some (loop (purge keys)))
  | purgeKey {s : SharedCache} {key : CacheKey} {keys : List CacheKey} :
      CacheStep s (loop (purge (key :: keys))) { s with cache := (s.cache.take key).1 }
        (afterRemoval (s.cache.take key).2 (some (purge keys)) (some (loop (purge keys))))
  | purgeEnd {s : SharedCache} : CacheStep s (loop (purge [])) s none
  | giveBack {s : SharedCache} {bytes : ℕ} {next : Option CacheLoop} :
      CacheStep s (giveBack bytes next) { s with cache := s.cache.subtract bytes } (next.map loop)

/-! ## The books -/

/-- The books of the cache, with the bytes that all calls hold together. -/
def SharedCache.Balanced (limit : ℕ) (s : SharedCache) (held : ℕ) : Prop :=
  ResponseCache.Books limit s.cache held

lemma elim_afterRemoval (old : Option CacheEntry) (next : Option CacheLoop)
    {otherwise : Option CacheCall} (h : otherwise.elim 0 CacheCall.holds = 0) :
    (afterRemoval old next otherwise).elim 0 CacheCall.holds = ResponseCache.takenBytes old := by
  cases old with
  | some entry => rfl
  | none => exact h

/-- **What one step does to the books**: bytes move between the counter, the entries and the call,
and none is lost. -/
lemma balanced_step {limit rest : ℕ} {s s' : SharedCache} {p : CacheCall} {p' : Option CacheCall}
    (hb : s.Balanced limit (rest + p.holds)) (hs : CacheStep s p s' p') :
    s'.Balanced limit (rest + p'.elim 0 CacheCall.holds) := by
  have h : ResponseCache.Books limit s.cache (rest + p.holds) := hb
  cases hs with
  | putReserved _ _ hr => exact h.reserve hr
  | reservedAgain hr => exact h.reserve hr
  | @store _ expiresAt _ _ =>
    rw [elim_afterRemoval _ _ rfl]
    exact h.store expiresAt
  | @sweepKey now key _ _ =>
    rw [elim_afterRemoval _ _ rfl]
    exact h.takeExpired key now
  | @expire key now =>
    rw [elim_afterRemoval _ _ rfl]
    exact h.takeExpired key now
  | @remove _ key _ _ =>
    rw [elim_afterRemoval _ _ rfl]
    exact h.take key
  | @purgeKey key _ =>
    rw [elim_afterRemoval _ _ rfl]
    exact h.take key
  | @giveBack _ next =>
    have hh : (next.map CacheCall.loop).elim 0 CacheCall.holds = 0 := by cases next <;> rfl
    rw [hh]
    exact h.subtract
  | @getValid key _ _ _ _ => exact h.touch key
  | countEviction => exact ⟨h.limit_eq, h.usize, h.capped, h.balance⟩
  | @sweepEnd _ waiting => cases waiting <;> exact h
  -- The other steps only decide where the call goes on.
  | putTooLarge | putRefused | lock | collectExpired | measureFits | measureFull | evictNext
  | evictEnd | refusedAgain | getExpired | getAbsent | collectMatching | purgeEnd => exact h

lemma holds_of_starts {p : CacheCall} (h : p.Starts) : p.holds = 0 := by
  cases p with
  | store | giveBack => exact h.elim
  | _ => rfl

/-- **The byte budget is a hard cap**, in every interleaving of any number of calls: the counter
covers the stored entries and stays within the limit, no subtraction takes it below zero, and when
no call is under way it is the size of the stored entries. -/
theorem byte_budget_capped (maxEntryBytes : ℕ) {limit : ℕ} (defaultTtl : Duration)
    (hlimit : limit < 2 ^ 64) {events : List (Event CacheCall)}
    {c : Interleaving.Config SharedCache CacheCall}
    (hrun : Run (Step CacheCall.Starts CacheStep)
      (idle ⟨ResponseCache.new maxEntryBytes limit defaultTtl, false⟩) events c) :
    c.shared.cache.storedBytes ≤ c.shared.cache.totalBytes ∧
      c.shared.cache.totalBytes ≤ limit ∧
      (∀ i bytes next, c.threads i = some (.giveBack bytes next) →
        bytes ≤ c.shared.cache.totalBytes) ∧
      (Quiescent c → c.shared.cache.totalBytes = c.shared.cache.storedBytes) := by
  have hini : SharedCache.Balanced limit ⟨.new maxEntryBytes limit defaultTtl, false⟩ 0 :=
    ResponseCache.books_new maxEntryBytes defaultTtl hlimit
  have hs : ∀ p : CacheCall, p.Starts → p.holds = 0 := fun _ => holds_of_starts
  obtain ⟨S, -, hb⟩ := ledger hini hs (fun _ _ _ _ _ => balanced_step) hrun
  refine ⟨?_, hb.capped, fun i bytes next ht => ?_, fun hq => ?_⟩
  · rw [hb.balance]
    exact Nat.le_add_right _ _
  · obtain ⟨rest, hr⟩ := ledger_thread hini hs (fun _ _ _ _ _ => balanced_step) hrun ht
    exact hr.le_totalBytes
  · exact (ledger_of_quiescent hini hs (fun _ _ _ _ _ => balanced_step) hrun hq).balance

/-- A call of `put` that stores a response in an empty cache. -/
theorem byte_budget_capped_put :
    ∃ events c, Run (Step CacheCall.Starts CacheStep)
        (idle ⟨ResponseCache.new 1024 65536 ⟨60, 0, by decide⟩, false⟩) events c ∧
      c.shared.cache.entries ≠ ∅ ∧ c.shared.cache.totalBytes = c.shared.cache.storedBytes := by
  let r := ResponseCache.aged "60" ⟨60, 0, by decide⟩
  let s₀ : SharedCache := ⟨ResponseCache.new 1024 65536 ⟨60, 0, by decide⟩, false⟩
  let reserved : ResponseCache := { s₀.cache with totalBytes := 0 + r.accountedSize }
  have hr : CacheStep s₀ (.put r) ⟨reserved, false⟩ (some (.store r)) :=
    .putReserved (by decide) (by decide) (if_pos (by decide))
  have hst : CacheStep ⟨reserved, false⟩ (.store r)
      ⟨(reserved.store r ⟨1060, 0, by decide, by decide⟩).1, false⟩ none :=
    .store ResponseCache.bootTime (by decide)
  have hs : CacheCall.Starts (.put r) := trivial
  obtain ⟨events, hru⟩ := exists_run_call .start hs (.more hr (.last hst))
  refine ⟨events, _, hru, ?_, ?_⟩
  · exact fun he => nomatch congrArg AList.entries he
  · exact (byte_budget_capped 1024 ⟨60, 0, by decide⟩ (by decide) hru).2.2.2 fun _ => rfl

end LoadBalancer.Proxy
