import LoadBalancer.Lib.Text
import LoadBalancer.Proxy.Headers

/-!
# The response cache

`ResponseCache` of `crates/lb-proxy/src/cache.rs`, one call at a time: which responses are stored
and for how long (`cacheable_ttl`), and how room is made and accounted for (`put`).

Instants are those of the standard library on Linux: signed 64-bit seconds and nanoseconds, and the
addition of a duration panics when the seconds overflow.
-/

namespace LoadBalancer.Proxy

open LoadBalancer.Core AList

/-! ## Instants -/

structure Duration where
  secs : ℕ
  nanos : ℕ
  nanos_lt : nanos < 10 ^ 9 := by decide
  deriving DecidableEq

structure Instant where
  secs : ℤ
  nanos : ℕ
  secs_range : -2 ^ 63 ≤ secs ∧ secs < 2 ^ 63 := by decide
  nanos_lt : nanos < 10 ^ 9 := by decide
  deriving DecidableEq

lemma zero_lt_nanosPerSec : 0 < 10 ^ 9 := by decide

def Duration.fromSecs (secs : ℕ) : Duration := ⟨secs, 0, zero_lt_nanosPerSec⟩

namespace Instant

def ofSecs (secs : ℤ) (h : -2 ^ 63 ≤ secs ∧ secs < 2 ^ 63) : Instant :=
  ⟨secs, 0, h, zero_lt_nanosPerSec⟩

def toNanos (t : Instant) : ℤ := t.secs * 10 ^ 9 + t.nanos

/-- `Timespec::checked_add_duration`: the seconds are added first, then the carry. -/
def checkedAdd (t : Instant) (d : Duration) : Option Instant :=
  if h : t.secs + d.secs < 2 ^ 63 then
    if hcarry : t.nanos + d.nanos < 10 ^ 9 then
      some ⟨t.secs + d.secs, t.nanos + d.nanos, ⟨by have := t.secs_range; omega, h⟩, hcarry⟩
    else if h' : t.secs + d.secs + 1 < 2 ^ 63 then
      some ⟨t.secs + d.secs + 1, t.nanos + d.nanos - 10 ^ 9,
        ⟨by have := t.secs_range; omega, h'⟩, by have := t.nanos_lt; have := d.nanos_lt; omega⟩
    else none
  else none

end Instant

def Duration.toNanos (d : Duration) : ℤ := d.secs * 10 ^ 9 + d.nanos

lemma Instant.checkedAdd_isSome_iff {t : Instant} {d : Duration} :
    (t.checkedAdd d).isSome = true ↔ t.toNanos + d.toNanos < 2 ^ 63 * 10 ^ 9 := by
  have ht := t.nanos_lt
  have hd := d.nanos_lt
  unfold checkedAdd toNanos Duration.toNanos
  split_ifs with h hc h'
  · simp only [Option.isSome_some, true_iff]
    omega
  · simp only [Option.isSome_some, true_iff]
    omega
  · simp only [Option.isSome_none, Bool.false_eq_true, false_iff]
    omega
  · simp only [Option.isSome_none, Bool.false_eq_true, false_iff]
    omega

/-! ## What may be stored -/

def parseSeconds (value : List Char) : Option ℕ :=
  Text.parseUnsigned (2 ^ 64) (((trim value).dropWhile (· = '"')).rdropWhile (· = '"'))

def variesOnlyOnAcceptEncoding (headers : HeaderMap) : Bool :=
  (headers.getAll "vary").all fun value =>
    value.toStr.any fun text => (((text.splitOn ',').map trim).filter (· ≠ [])).all fun field =>
      lowercase field = "accept-encoding".toList

/-- The ages that `Cache-Control` gives: `none` if it has no such directive, `some none` if the
number is not one. -/
structure CacheAges where
  maxAge : Option (Option ℕ)
  sMaxage : Option (Option ℕ)

/-- One directive of `Cache-Control`; `none` if it forbids to store the response. -/
def CacheAges.read (ages : CacheAges) (directive : List Char) : Option CacheAges :=
  let directive := lowercase (trim directive)
  let name := trim (directive.takeWhile (· ≠ '='))
  if name ∈ ["no-store".toList, "private".toList, "no-cache".toList] then none
  else match directive.dropPrefix? "s-maxage=".toList with
    | some secs => some { ages with sMaxage := some (parseSeconds secs) }
    | none =>
      match directive.dropPrefix? "max-age=".toList with
      | some secs => some { ages with maxAge := some (parseSeconds secs) }
      | none => some ages

/-- How long a response may be stored, if at all. -/
def cacheableTtl (method : Method) (status : ℕ) (headers : HeaderMap) (maxEntryBytes : ℕ)
    (defaultTtl : Duration) : Option Duration := do
  guard (method = .get ∧ status = 200)
  let contentLength ← ((headers.get "content-length").bind HeaderValue.toStr).bind
    (Text.parseUnsigned (2 ^ 64))
  guard (contentLength ≤ maxEntryBytes)
  guard (!headers.containsKey "set-cookie" && variesOnlyOnAcceptEncoding headers)
  let lines ← (headers.getAll "cache-control").mapM HeaderValue.toStr
  let ages ← (lines.flatMap (List.splitOn ',')).foldlM CacheAges.read ⟨none, none⟩
  match ages.sMaxage.or ages.maxAge with
  | none => some defaultTtl
  | some none => none
  | some (some 0) => none
  | some (some secs) => some { secs := secs, nanos := 0 }

/-! ## The cache -/

abbrev CacheKey := List Char

structure CacheEntry where
  status : ℕ
  headers : HeaderMap
  body : List UInt8
  expiresAt : Instant
  accountedSize : ℕ
  lastUsed : ℕ

def CacheEntry.expired (entry : CacheEntry) (now : Instant) : Bool :=
  entry.expiresAt.toNanos ≤ now.toNanos

/-- `key_matches`: the host is what stands between the first two bars of a key, and the path begins
behind them. -/
def keyMatches (key : CacheKey) (host path : Option (List Char)) : Bool :=
  match key.dropWhile (· ≠ '|') with
  | [] => false
  | _ :: fields =>
    match fields.dropWhile (· ≠ '|') with
    | [] => false
    | _ :: rest =>
      host.all (fun host => lowercase host = lowercase (fields.takeWhile (· ≠ '|'))) &&
        path.all fun path => (rest.dropPrefix? path).any fun tail =>
          tail.head?.all (· ∈ ['/', '?', '|'])

structure StoredResponse where
  key : CacheKey
  status : ℕ
  headers : HeaderMap
  body : List UInt8
  ttl : Duration

def StoredResponse.accountedSize (r : StoredResponse) : ℕ :=
  let headersLen := (r.headers.lines.map fun line =>
    line.1.utf8ByteSize + line.2.bytes.length + 128).sum
  320 + (r.key.map Char.utf8Size).sum + headersLen + r.body.length

def StoredResponse.entry (r : StoredResponse) (expiresAt : Instant) (tick : ℕ) : CacheEntry where
  status := r.status
  headers := r.headers
  body := r.body
  expiresAt := expiresAt
  accountedSize := r.accountedSize
  lastUsed := tick

structure ResponseCache where
  entries : Table CacheKey CacheEntry
  totalBytes : ℕ
  maxEntryBytes : ℕ
  maxTotalBytes : ℕ
  defaultTtl : Duration
  accessTick : ℕ
  evictions : ℕ

/-- The difference of two numbers of type `usize`. -/
def wrappingSub (n m : ℕ) : ℕ := if m ≤ n then n - m else n + 2 ^ 64 - m

namespace ResponseCache

def new (maxEntryBytes maxTotalBytes : ℕ) (defaultTtl : Duration) : ResponseCache where
  entries := ∅
  totalBytes := 0
  maxEntryBytes := maxEntryBytes
  maxTotalBytes := maxTotalBytes
  defaultTtl := defaultTtl
  accessTick := 0
  evictions := 0

variable (c : ResponseCache)

/-! ### Atomic steps -/

/-- `reserve`: the bytes are counted if they fit. -/
def reserve (size : ℕ) : Option ResponseCache :=
  if c.totalBytes + size < 2 ^ 64 ∧ c.totalBytes + size ≤ c.maxTotalBytes then
    some { c with totalBytes := c.totalBytes + size }
  else none

/-- `total_bytes.fetch_sub`, which wraps around. -/
def subtract (size : ℕ) : ResponseCache :=
  { c with totalBytes := wrappingSub c.totalBytes size }

/-- `entries.remove`, with what was there. -/
def take (key : CacheKey) : ResponseCache × Option CacheEntry :=
  ({ c with entries := c.entries.erase key }, c.entries.get key)

/-- `entries.remove_if` for entries that have expired. -/
def takeExpired (key : CacheKey) (now : Instant) : ResponseCache × Option CacheEntry :=
  if (c.entries.get key).any (·.expired now) then c.take key else (c, none)

/-- `entries.insert` of a new entry, with what was there. -/
def store (r : StoredResponse) (expiresAt : Instant) : ResponseCache × Option CacheEntry :=
  ({ c with
    entries := c.entries.insert r.key (r.entry expiresAt c.accessTick)
    accessTick := (c.accessTick + 1) % 2 ^ 64 }, c.entries.get r.key)

/-! ### Calls -/

def release : ResponseCache × Option CacheEntry → ResponseCache
  | (c, some entry) => c.subtract entry.accountedSize
  | (c, none) => c

def removeExpired (now : Instant) (c : ResponseCache) (key : CacheKey) : ResponseCache :=
  release (c.takeExpired key now)

def sweepExpired (now : Instant) : ResponseCache :=
  let expired := (c.entries.entries.filter fun e => e.2.expired now).map fun e => e.1
  expired.foldl (removeExpired now) c

/-- `get` of an entry that is still valid: it is the last one used now. -/
def touch (key : CacheKey) : ResponseCache :=
  match c.entries.get key with
  | some entry =>
    { c with
      entries := c.entries.insert key { entry with lastUsed := c.accessTick }
      accessTick := (c.accessTick + 1) % 2 ^ 64 }
  | none => c

def byAge : List CacheKey :=
  ((c.entries.entries.map fun e => (e.2.lastUsed, e.1)).insertionSort
    fun a b => a.1 < b.1 ∨ (a.1 = b.1 ∧ a.2 ≤ b.2)).map Prod.snd

/-- One round of the loop of `make_room`. -/
def evictKey (key : CacheKey) : ResponseCache :=
  match c.take key with
  | (c, some entry) =>
    { c.subtract entry.accountedSize with evictions := (c.evictions + 1) % 2 ^ 64 }
  | (c, none) => c

def evict (target : ℕ) : List CacheKey → ResponseCache → ResponseCache
  | [], c => c
  | key :: keys, c => if c.totalBytes ≤ target then c else evict target keys (c.evictKey key)

/-- `make_room`, with the instant that `sweep_expired` reads. -/
def makeRoom (size : ℕ) (now : Instant) : ResponseCache :=
  let c := c.sweepExpired now
  let headroom := c.maxTotalBytes / 10
  let target := c.maxTotalBytes - size - headroom
  if c.totalBytes ≤ c.maxTotalBytes - size then c else evict target c.byAge c

/-- How a call of `put` ends. -/
inductive PutResult
  | returned (c : ResponseCache)
  /-- The expiry instant overflows; this is what other calls find. -/
  | panicked (c : ResponseCache)

/-- The end of `put`, once the bytes are reserved. -/
def finishPut (r : StoredResponse) (now : Instant) : PutResult :=
  match now.checkedAdd r.ttl with
  | some expiresAt => .returned (release (c.store r expiresAt))
  | none => .panicked c

/-- `put`, with the instants that `sweep_expired` and `put` itself read. -/
def put (r : StoredResponse) (sweepNow now : Instant) : PutResult :=
  if c.maxEntryBytes < r.body.length then .returned c
  else if c.maxTotalBytes < r.accountedSize then .returned c
  else match c.reserve r.accountedSize with
    | some c => c.finishPut r now
    | none =>
      let c := c.makeRoom r.accountedSize sweepNow
      match c.reserve r.accountedSize with
      | some c => c.finishPut r now
      | none => .returned c

def storedBytes : ℕ := c.entries.weigh CacheEntry.accountedSize

/-! ## Accounting -/

/-- The counter covers the stored entries and the bytes that calls under way hold: bytes that are
reserved for an entry that is not stored yet, and bytes of an entry that is no longer stored. -/
structure Books (limit : ℕ) (c : ResponseCache) (held : ℕ) : Prop where
  limit_eq : c.maxTotalBytes = limit
  /-- The limit is a `usize`. -/
  usize : limit < 2 ^ 64
  capped : c.totalBytes ≤ limit
  balance : c.totalBytes = c.storedBytes + held

lemma books_new (maxEntryBytes : ℕ) {limit : ℕ} (defaultTtl : Duration) (h : limit < 2 ^ 64) :
    Books limit (new maxEntryBytes limit defaultTtl) 0 :=
  ⟨rfl, h, Nat.zero_le _, rfl⟩

variable {c} {c' : ResponseCache} {limit held : ℕ}

def takenBytes (old : Option CacheEntry) : ℕ := old.elim 0 CacheEntry.accountedSize

namespace Books

lemma reserve {size : ℕ} (h : Books limit c held) (hr : c.reserve size = some c') :
    Books limit c' (held + size) := by
  unfold ResponseCache.reserve at hr
  split_ifs at hr with hf
  cases hr
  refine ⟨h.limit_eq, h.usize, hf.2.trans h.limit_eq.le, ?_⟩
  have hb := h.balance
  show c.totalBytes + size = c.storedBytes + (held + size)
  omega

lemma le_totalBytes {size : ℕ} (h : Books limit c (held + size)) : size ≤ c.totalBytes := by
  have hb := h.balance
  omega

lemma subtract {size : ℕ} (h : Books limit c (held + size)) :
    Books limit (c.subtract size) held := by
  have hb := h.balance
  have ht : (c.subtract size).totalBytes = c.totalBytes - size := if_pos h.le_totalBytes
  refine ⟨h.limit_eq, h.usize, ?_, ?_⟩
  · rw [ht]
    exact (Nat.sub_le _ _).trans h.capped
  · rw [ht]
    show c.totalBytes - size = c.storedBytes + held
    omega

lemma take (h : Books limit c held) (key : CacheKey) :
    Books limit (c.take key).1 (held + takenBytes (c.take key).2) := by
  have hb := h.balance
  have hw : (c.entries.erase key).weigh CacheEntry.accountedSize
      + takenBytes (c.entries.get key) = c.storedBytes := weigh_erase _ _ _
  refine ⟨h.limit_eq, h.usize, h.capped, ?_⟩
  show c.totalBytes = (c.entries.erase key).weigh CacheEntry.accountedSize
    + (held + takenBytes (c.entries.get key))
  omega

lemma takeExpired (h : Books limit c held) (key : CacheKey) (now : Instant) :
    Books limit (c.takeExpired key now).1 (held + takenBytes (c.takeExpired key now).2) := by
  unfold ResponseCache.takeExpired
  split_ifs
  · exact h.take key
  · exact h

lemma store {r : StoredResponse} (h : Books limit c (held + r.accountedSize))
    (expiresAt : Instant) :
    Books limit (c.store r expiresAt).1 (held + takenBytes (c.store r expiresAt).2) := by
  have hb := h.balance
  refine ⟨h.limit_eq, h.usize, h.capped, ?_⟩
  have hw : (c.entries.insert r.key (r.entry expiresAt c.accessTick)).weigh
      CacheEntry.accountedSize + takenBytes (c.entries.get r.key)
        = c.storedBytes + r.accountedSize := weigh_insert _ _ _ _
  show c.totalBytes = (c.entries.insert r.key (r.entry expiresAt c.accessTick)).weigh
    CacheEntry.accountedSize + (held + takenBytes (c.entries.get r.key))
  omega

lemma touch (h : Books limit c held) (key : CacheKey) : Books limit (c.touch key) held := by
  unfold ResponseCache.touch
  cases he : c.entries.get key with
  | none => exact h
  | some entry =>
    have hw := weigh_insert CacheEntry.accountedSize c.entries key
      { entry with lastUsed := c.accessTick }
    rw [he] at hw
    have hs : (c.entries.insert key { entry with lastUsed := c.accessTick }).weigh
        CacheEntry.accountedSize = c.storedBytes := Nat.add_right_cancel hw
    refine ⟨h.limit_eq, h.usize, h.capped, ?_⟩
    show c.totalBytes = (c.entries.insert key { entry with lastUsed := c.accessTick }).weigh
      CacheEntry.accountedSize + held
    rw [hs]
    exact h.balance

lemma release {old : Option CacheEntry} (h : Books limit c (held + takenBytes old)) :
    Books limit (release (c, old)) held := by
  cases old with
  | none => exact h
  | some entry => exact h.subtract

end Books

/-! ### One call at a time -/

lemma books_removeExpired (h : Books limit c held) (now : Instant) (key : CacheKey) :
    Books limit (removeExpired now c key) held :=
  (h.takeExpired key now).release

lemma books_sweepExpired (h : Books limit c held) (now : Instant) :
    Books limit (c.sweepExpired now) held := by
  unfold sweepExpired
  generalize (c.entries.entries.filter fun e => e.2.expired now).map (fun e => e.1) = keys
  induction keys generalizing c with
  | nil => exact h
  | cons key keys ih => exact ih (books_removeExpired h now key)

lemma mem_byAge {key : CacheKey} (h : key ∈ c.entries) : key ∈ c.byAge := by
  obtain ⟨entry, he⟩ := exists_get_of_mem h
  refine List.mem_map.mpr ⟨(entry.lastUsed, key), ?_, rfl⟩
  rw [List.mem_insertionSort]
  exact List.mem_map.mpr ⟨⟨key, entry⟩, mem_entries_iff_get.mpr he, rfl⟩

lemma books_evictKey (h : Books limit c held) (key : CacheKey) :
    Books limit (c.evictKey key) held := by
  have hb := (h.take key).release
  unfold evictKey
  cases ht : c.take key with
  | mk c' old =>
    rw [ht] at hb
    cases old with
    | some entry => exact ⟨hb.limit_eq, hb.usize, hb.capped, hb.balance⟩
    | none => exact hb

lemma entries_evictKey (key : CacheKey) : (c.evictKey key).entries = c.entries.erase key := by
  unfold evictKey take
  cases c.entries.get key <;> rfl

lemma evict_spec (target : ℕ) : ∀ (keys : List CacheKey) {c : ResponseCache},
    Books limit c held → Books limit (evict target keys c) held ∧
      ((evict target keys c).totalBytes ≤ target ∨
        ∀ key ∈ (evict target keys c).entries, key ∈ c.entries ∧ key ∉ keys)
  | [], c, h => ⟨h, Or.inr fun key hke => ⟨hke, List.not_mem_nil⟩⟩
  | key :: keys, c, h => by
    unfold evict
    by_cases ht : c.totalBytes ≤ target
    · rw [if_pos ht]
      exact ⟨h, Or.inl ht⟩
    · rw [if_neg ht]
      obtain ⟨hb, he⟩ := evict_spec target keys (books_evictKey h key)
      refine ⟨hb, he.imp_right fun ha k hk => ?_⟩
      obtain ⟨hk, hn⟩ := ha k hk
      rw [entries_evictKey, mem_erase] at hk
      exact ⟨hk.2, fun hm => (List.mem_cons.mp hm).elim hk.1 hn⟩

lemma storedBytes_of_empty (h : ∀ key, key ∉ c.entries) : c.storedBytes = 0 := by
  have he : c.entries = ∅ := eq_empty_iff_get.mpr fun key => get_eq_none_iff.mpr (h key)
  rw [storedBytes, he, weigh_empty]

lemma makeRoom_spec {size : ℕ} (h : Books limit c 0) (hsi : size ≤ limit) (now : Instant) :
    Books limit (c.makeRoom size now) 0 ∧ (c.makeRoom size now).totalBytes + size ≤ limit := by
  have hs := books_sweepExpired h now
  unfold makeRoom
  generalize c.sweepExpired now = swept at hs ⊢
  dsimp only
  rw [hs.limit_eq]
  by_cases hf : swept.totalBytes ≤ limit - size
  · rw [if_pos hf]
    exact ⟨hs, by omega⟩
  · rw [if_neg hf]
    obtain ⟨hb, hen⟩ := evict_spec (limit - size - limit / 10) swept.byAge hs
    refine ⟨hb, ?_⟩
    rcases hen with ht | ha
    · omega
    · -- all keys have been tried, so nothing is stored any more
      have he := storedBytes_of_empty fun key hk =>
        (ha key hk).2 (mem_byAge (ha key hk).1)
      have hba := hb.balance
      omega

lemma exists_reserve {size : ℕ} (h : Books limit c held) (hf : c.totalBytes + size ≤ limit) :
    ∃ c', c.reserve size = some c' :=
  ⟨_, if_pos ⟨hf.trans_lt h.usize, hf.trans h.limit_eq.ge⟩⟩

lemma put_eq_finishPut {r : StoredResponse} (h : Books limit c 0)
    (hbo : r.body.length ≤ c.maxEntryBytes) (hs : r.accountedSize ≤ c.maxTotalBytes)
    (sweepNow now : Instant) :
    ∃ c', Books limit c' (0 + r.accountedSize) ∧ c.put r sweepNow now = c'.finishPut r now := by
  unfold put
  rw [if_neg (not_lt.mpr hbo), if_neg (not_lt.mpr hs)]
  cases hr : c.reserve r.accountedSize with
  | some c' => exact ⟨c', h.reserve hr, rfl⟩
  | none =>
    obtain ⟨hb, hf⟩ := makeRoom_spec h (hs.trans h.limit_eq.le) sweepNow
    obtain ⟨c', hc'⟩ := exists_reserve hb hf
    refine ⟨c', hb.reserve hc', ?_⟩
    dsimp only
    rw [hc']

/-- **A response that may be stored is stored, and accounted for**, exactly when it is too large to
be tried or its expiry instant has signed 64-bit seconds. -/
theorem put_accounted_iff {r : StoredResponse} (h : Books c.maxTotalBytes c 0)
    (_httl : cacheableTtl .get r.status r.headers c.maxEntryBytes c.defaultTtl = some r.ttl)
    (sweepNow now : Instant) :
    (∃ c', c.put r sweepNow now = .returned c' ∧ c'.totalBytes = c'.storedBytes) ↔
      c.maxEntryBytes < r.body.length ∨ c.maxTotalBytes < r.accountedSize ∨
        now.toNanos + r.ttl.toNanos < 2 ^ 63 * 10 ^ 9 := by
  by_cases hb : c.maxEntryBytes < r.body.length
  · refine iff_of_true ⟨c, ?_, h.balance⟩ (Or.inl hb)
    unfold put
    exact if_pos hb
  by_cases hs : c.maxTotalBytes < r.accountedSize
  · refine iff_of_true ⟨c, ?_, h.balance⟩ (Or.inr (Or.inl hs))
    unfold put
    rw [if_neg hb, if_pos hs]
  obtain ⟨c', hbo, hp⟩ := put_eq_finishPut h (not_lt.mp hb) (not_lt.mp hs) sweepNow now
  rw [hp, ← Instant.checkedAdd_isSome_iff, or_iff_right hb, or_iff_right hs]
  unfold finishPut
  cases he : now.checkedAdd r.ttl with
  | none => simp
  | some expiresAt => exact iff_of_true ⟨_, rfl, (hbo.store expiresAt).release.balance⟩ rfl

/-! ### Two responses -/

def aged (maxAge : String) (ttl : Duration) : StoredResponse where
  key := "GET|shop.example|/|".toList
  status := 200
  headers := ⟨[("content-length", .fromStatic "2"),
    ("cache-control", .fromStatic ("max-age=" ++ maxAge))]⟩
  body := [111, 107]
  ttl := ttl

def smallCache : ResponseCache := new 1024 65536 ⟨60, 0, by decide⟩

def bootTime : Instant := ⟨1000, 0, by decide, by decide⟩

theorem put_accounted_minute :
    ∃ c', smallCache.put (aged "60" ⟨60, 0, by decide⟩) bootTime bootTime = .returned c' ∧
      c'.totalBytes = c'.storedBytes :=
  (put_accounted_iff (books_new _ _ (by decide)) (by decide) bootTime bootTime).mpr
    (Or.inr (Or.inr (by decide)))

/-- A response for `2 ^ 64 - 1` seconds: the call panics, and the bytes that it has reserved stay
reserved. -/
theorem put_leaks_reserved_bytes :
    let r := aged "18446744073709551615" ⟨2 ^ 64 - 1, 0, by decide⟩
    cacheableTtl .get r.status r.headers smallCache.maxEntryBytes smallCache.defaultTtl
        = some r.ttl ∧
      smallCache.totalBytes = smallCache.storedBytes ∧
      ∃ c', smallCache.put r bootTime bootTime = .panicked c' ∧
        c'.storedBytes = 0 ∧ c'.totalBytes = r.accountedSize := by
  intro r
  have ho : bootTime.checkedAdd r.ttl = none := by decide
  have hr : smallCache.reserve r.accountedSize
      = some { smallCache with totalBytes := 0 + r.accountedSize } := if_pos (by decide)
  refine ⟨by decide, rfl, { smallCache with totalBytes := 0 + r.accountedSize }, ?_, rfl, ?_⟩
  · rw [put, if_neg (by decide), if_neg (by decide), hr]
    dsimp only
    rw [finishPut, ho]
  · exact Nat.zero_add _

end ResponseCache

end LoadBalancer.Proxy
