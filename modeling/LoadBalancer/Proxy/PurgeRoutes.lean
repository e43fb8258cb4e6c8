import LoadBalancer.Proxy.CacheCalls
import LoadBalancer.Proxy.CacheKey

/-!
# Purging and routing

An operator purges the cache by host and path, and a route claims requests by host and path.  A
route looks at the parts of the request's target, a purge at the key of the stored response, in
which these parts are joined (`key_matches` in `crates/lb-proxy/src/cache.rs`).

They agree, but for the prefix `/` and targets without a path.  `GET http://shop.example?x=1` has
the path `/` for routes, and is stored under a key in which nothing stands before the query: a
purge of `/` leaves it.
-/

namespace LoadBalancer.Proxy

open Option

/-! ## Routes -/

/-- `Uri::path` of the `http` crate: what stands before the query. -/
def Uri.path (uri : Uri) : List Char :=
  match uri.pathAndQuery with
  | none => []
  | some pathAndQuery =>
    match pathAndQuery.takeWhile (· ≠ '?') with
    | [] => ['/']
    | path => path

def prefixAndHostMatch (pathPrefix hostRule : Option (List Char)) (path : List Char)
    (host : Option (List Char)) : Bool :=
  (pathPrefix.all fun start => path = start || (start ++ ['/']).isPrefixOf path) &&
    hostRule.all fun expected => host.any fun host => lowercase host = lowercase expected

/-- A route with the given rules claims the request. -/
def routeMatches (pathPrefix hostRule : Option (List Char)) (req : RequestHead) : Bool :=
  prefixAndHostMatch pathPrefix hostRule req.uri.path
    ((req.headers.get "host").bind HeaderValue.toStr)

def Uri.HasPath (uri : Uri) : Prop :=
  ∃ pathAndQuery, uri.pathAndQuery = some pathAndQuery ∧ pathAndQuery.takeWhile (· ≠ '?') ≠ []

lemma Uri.HasPath.split {uri : Uri} (h : uri.HasPath) :
    ∃ query, uri.pathAndQuery = some (uri.path ++ query) ∧ '?' ∉ uri.path ∧
      (query = [] ∨ ∃ rest, query = '?' :: rest) := by
  obtain ⟨pathAndQuery, hs, hne⟩ := h
  have hp : uri.path = pathAndQuery.takeWhile (· ≠ '?') := by
    unfold Uri.path
    rw [hs]
    dsimp only
    split
    · exact absurd ‹_› hne
    · rfl
  refine ⟨pathAndQuery.dropWhile (· ≠ '?'), ?_, ?_, ?_⟩
  · rw [hp, List.takeWhile_append_dropWhile]
    exact hs
  · rw [hp]
    intro hm
    have hne := List.mem_takeWhile_imp hm
    simp at hne
  · cases hd : pathAndQuery.dropWhile (· ≠ '?') with
    | nil => exact Or.inl rfl
    | cons a rest =>
      have hh := List.head?_dropWhile_not (fun c => decide (c ≠ '?')) pathAndQuery
      rw [hd] at hh
      have ha : a = '?' := by simpa using hh
      exact Or.inr ⟨rest, by rw [ha]⟩

/-! ## Whole segments -/

lemma segments_iff {start path stop : List Char} (hs : '?' ∉ start ∧ '|' ∉ start)
    (hq : '?' ∉ path) (hst : ∃ a rest, stop = a :: rest ∧ (a = '?' ∨ a = '|')) :
    ((path = start ∨ (start ++ ['/']) <+: path) →
      ∃ tail, path ++ stop = start ++ tail ∧ ∀ a ∈ tail.head?, a ∈ ['/', '?', '|']) ∧
    ('|' ∉ path → (∃ tail, path ++ stop = start ++ tail ∧ ∀ a ∈ tail.head?, a ∈ ['/', '?', '|']) →
      path = start ∨ (start ++ ['/']) <+: path) := by
  obtain ⟨a, rest, rfl, ha⟩ := hst
  constructor
  · rintro (rfl | ⟨tail, rfl⟩)
    · refine ⟨a :: rest, rfl, fun b hb => ?_⟩
      cases hb
      rcases ha with rfl | rfl <;> decide
    · refine ⟨'/' :: (tail ++ a :: rest), by simp, fun b hb => ?_⟩
      cases hb
      decide
  · rintro hba ⟨tail, heq, hh⟩
    rcases List.append_eq_append_iff.mp heq with ⟨more, rfl, hm⟩ | ⟨more, rfl, hm⟩
    · -- the start does not go on behind the path, where it would have to have the first of `stop`
      cases more with
      | nil => exact Or.inl (by simp)
      | cons b more =>
        obtain ⟨rfl, -⟩ := List.cons.inj hm
        rcases ha with rfl | rfl
        · exact absurd (by simp) hs.1
        · exact absurd (by simp) hs.2
    · cases more with
      | nil => exact Or.inl (by simp)
      | cons b more =>
        subst hm
        have hb := hh b rfl
        obtain rfl : b = '/' := by
          simp only [List.mem_cons, List.not_mem_nil, or_false] at hb
          rcases hb with rfl | rfl | rfl
          · rfl
          · exact absurd (by simp) hq
          · exact absurd (by simp) hba
        exact Or.inr ⟨more, by simp⟩

/-- Without a path, the target goes on at once in the end of a path, or in the `/` that `key_for`
puts in its place. -/
lemma Uri.rootless {uri : Uri} (h : ¬ uri.HasPath) :
    (uri.path = [] ∧ uri.pathAndQuery = none) ∨
      (uri.path = ['/'] ∧ ∃ query, uri.pathAndQuery = some query ∧
        (query = [] ∨ ∃ rest, query = '?' :: rest)) := by
  cases hs : uri.pathAndQuery with
  | none => exact Or.inl ⟨by rw [Uri.path, hs], rfl⟩
  | some query =>
    have hn : query.takeWhile (· ≠ '?') = [] := by
      by_contra hne
      exact h ⟨query, hs, hne⟩
    refine Or.inr ⟨?_, query, rfl, ?_⟩
    · rw [Uri.path, hs]
      dsimp only
      rw [hn]
    · cases query with
      | nil => exact Or.inl rfl
      | cons a rest =>
        have ha : a = '?' := by
          simpa using hn
        exact Or.inr ⟨rest, by rw [ha]⟩

/-- Other prefixes than `/` claim a target without a path only if they are empty. -/
lemma rootless_segments_iff {start stop : List Char} (hs : '?' ∉ start ∧ '|' ∉ start)
    (hr : start ≠ ['/']) (hst : ∃ a rest, stop = a :: rest ∧ (a = '?' ∨ a = '|'))
    {path text : List Char} (h : (path = [] ∧ text = '/' :: stop) ∨ (path = ['/'] ∧ text = stop)) :
    (path = start ∨ (start ++ ['/']) <+: path) ↔
      ∃ tail, text = start ++ tail ∧ ∀ a ∈ tail.head?, a ∈ ['/', '?', '|'] := by
  obtain ⟨a, rest, rfl, ha⟩ := hst
  have hf : a ∉ start := by
    rcases ha with rfl | rfl
    · exact hs.1
    · exact hs.2
  cases start with
  | nil =>
    refine iff_of_true ?_ ⟨text, rfl, fun b hb => ?_⟩
    · rcases h with ⟨rfl, -⟩ | ⟨rfl, -⟩
      · exact Or.inl rfl
      · exact Or.inr (List.prefix_refl _)
    · rcases h with ⟨-, rfl⟩ | ⟨-, rfl⟩
      · cases hb
        decide
      · cases hb
        rcases ha with rfl | rfl <;> decide
  | cons b start =>
    refine iff_of_false ?_ ?_
    · rcases h with ⟨rfl, -⟩ | ⟨rfl, -⟩
      · rintro (heq | hp)
        · cases heq
        · exact absurd (List.prefix_nil.mp hp) (by simp)
      · rintro (heq | hp)
        · exact hr heq.symm
        · have hl := hp.length_le
          simp at hl
    · rintro ⟨tail, ht, -⟩
      rcases h with ⟨-, rfl⟩ | ⟨-, rfl⟩
      · obtain ⟨rfl, hre⟩ := List.cons.inj ht
        cases start with
        | nil => exact hr rfl
        | cons d start =>
          obtain ⟨rfl, -⟩ := List.cons.inj hre
          exact hf (by simp)
      · obtain ⟨rfl, -⟩ := List.cons.inj ht
        exact hf List.mem_cons_self

/-! ## The key of a request -/

lemma keyMatches_keyFor {req : RequestHead} (hg : req.method = .get) {host : List Char}
    (hh : req.host = some host) (hb : '|' ∉ host) (hostRule pathPrefix : Option (List Char)) :
    keyMatches (keyFor req) hostRule pathPrefix = true ↔
      (∀ expected ∈ hostRule, lowercase host = lowercase expected) ∧
      ∀ start ∈ pathPrefix, ∃ tail,
        req.path ++ '|' :: normalizedAcceptEncoding req.headers = start ++ tail ∧
          ∀ a ∈ tail.head?, a ∈ ['/', '?', '|'] := by
  unfold keyMatches keyFor
  rw [hg, hh, Text.dropWhile_field (by decide)]
  dsimp only [getD_some]
  rw [Text.dropWhile_field hb]
  dsimp only
  rw [Text.takeWhile_field hb, Bool.and_eq_true, all_eq_true, all_eq_true]
  refine and_congr (forall₂_congr fun expected _ => ?_) (forall₂_congr fun start _ => ?_)
  · rw [decide_eq_true_iff, eq_comm]
  · rw [any_eq_true]
    refine exists_congr fun tail => and_congr ?_ ?_
    · rw [List.dropPrefix?_eq_some_iff]
      constructor
      · rintro ⟨start', heq, hs⟩
        rwa [eq_of_beq hs] at heq
      · exact fun heq => ⟨start, heq, beq_self_eq_true start⟩
    · rw [all_eq_true]
      exact forall₂_congr fun a _ => decide_eq_true_iff

lemma routeMatches_iff {req : RequestHead} {host : List Char}
    (hh : (req.headers.get "host").bind HeaderValue.toStr = some host)
    (hostRule pathPrefix : Option (List Char)) :
    routeMatches pathPrefix hostRule req = true ↔
      (∀ expected ∈ hostRule, lowercase host = lowercase expected) ∧
      ∀ start ∈ pathPrefix, req.uri.path = start ∨ (start ++ ['/']) <+: req.uri.path := by
  rw [routeMatches, prefixAndHostMatch, hh, Bool.and_eq_true, all_eq_true, all_eq_true, and_comm]
  refine and_congr (forall₂_congr fun expected _ => ?_) (forall₂_congr fun start _ => ?_)
  · rw [any_some, decide_eq_true_iff]
  · rw [Bool.or_eq_true, decide_eq_true_iff, List.isPrefixOf_iff_prefix]

lemma path_agrees (req : RequestHead) {start : List Char} (hs : '?' ∉ start ∧ '|' ∉ start)
    (hr : start = ['/'] → req.uri.HasPath) (codings : List Char) :
    ((req.uri.path = start ∨ (start ++ ['/']) <+: req.uri.path) →
      ∃ tail, req.path ++ '|' :: codings = start ++ tail ∧ ∀ a ∈ tail.head?, a ∈ ['/', '?', '|']) ∧
    ('|' ∉ req.uri.path → (∃ tail, req.path ++ '|' :: codings = start ++ tail ∧
        ∀ a ∈ tail.head?, a ∈ ['/', '?', '|']) →
      req.uri.path = start ∨ (start ++ ['/']) <+: req.uri.path) := by
  have hst : ∀ {query : List Char}, (query = [] ∨ ∃ rest, query = '?' :: rest) →
      ∃ a rest, query ++ '|' :: codings = a :: rest ∧ (a = '?' ∨ a = '|') := by
    rintro query (rfl | ⟨rest, rfl⟩)
    · exact ⟨'|', _, rfl, Or.inr rfl⟩
    · exact ⟨'?', _, rfl, Or.inl rfl⟩
  by_cases ht : req.uri.HasPath
  · obtain ⟨query, hp, hqu, hq⟩ := ht.split
    rw [RequestHead.path, hp, getD_some, List.append_assoc]
    exact segments_iff hs hqu (hst hq)
  · have hne : start ≠ ['/'] := fun heq => ht (hr heq)
    rw [RequestHead.path]
    rcases Uri.rootless ht with ⟨hp, hn⟩ | ⟨hp, query, hso, hq⟩
    · rw [hn, hp]
      have h := rootless_segments_iff hs hne (hst (Or.inl rfl)) (Or.inl ⟨rfl, rfl⟩)
      exact ⟨h.mp, fun _ => h.mpr⟩
    · rw [hso, hp]
      have h := rootless_segments_iff hs hne (hst hq) (Or.inr ⟨rfl, rfl⟩)
      exact ⟨h.mp, fun _ => h.mpr⟩

def holding (req : RequestHead) : ResponseCache where
  entries := AList.insert (keyFor req)
    { status := 200, headers := ⟨[]⟩, body := [], expiresAt := .ofSecs 60 (by decide),
      accountedSize := 320, lastUsed := 0 } ∅
  totalBytes := 320
  maxEntryBytes := 1000
  maxTotalBytes := 1000
  defaultTtl := .fromSecs 60
  accessTick := 1
  evictions := 0

lemma mem_holding (req : RequestHead) : keyFor req ∈ (holding req).entries :=
  AList.mem_insert _ |>.mpr (Or.inl rfl)

def targetRequest (pathAndQuery : Option String) : RequestHead where
  method := .get
  uri := { authority := some "shop.example".toList,
           pathAndQuery := pathAndQuery.map String.toList }
  version := .http11
  headers := ⟨[("host", .fromStatic "shop.example")]⟩

-- the other way round for `GET shop.example`, which has no target but the authority
example : routeMatches (some ['/']) none (targetRequest none) = false ∧
    keyMatches (keyFor (targetRequest none)) none (some ['/']) = true := by
  decide

end LoadBalancer.Proxy
