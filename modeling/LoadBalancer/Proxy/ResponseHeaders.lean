import LoadBalancer.Proxy.Cache
import LoadBalancer.Proxy.Forwarded

/-!
# What a client gets of a backend's response

The headers of the backend's connection are dropped, a copy may go into the cache, the sticky
cookie is set (`crates/lb-proxy/src/sticky.rs`), all in `handle_inner`; then `handle` adds the
request id, the end of the connection and the transport policy, and makes the configured edits.
The sticky cookie takes the place of the cookies that the backend sets.
-/

namespace LoadBalancer.Proxy

open LoadBalancer.Core

/-! ## The sticky cookie -/

structure StickyRuntime where
  cookieName : String
  maxAgeSecs : Option ℕ
  secure : Bool

def hexDigit (n : ℕ) : Char := "0123456789ABCDEF".toList.getD n '0'

def isUnreserved (c : Char) : Bool := c.isAlphanum || c ∈ ['-', '_', '.', '~']

def percentEncode (text : String) : List Char :=
  (text.toList.flatMap HeaderValue.encode).flatMap fun b =>
    if isUnreserved b then [b] else ['%', hexDigit (b.toNat / 16), hexDigit (b.toNat % 16)]

def setCookieHeader (sticky : StickyRuntime) (backendId : BackendId) : HeaderValue :=
  let value := sticky.cookieName.toList ++ "=".toList ++ percentEncode backendId ++
    "; Path=/; HttpOnly; SameSite=Lax".toList
  let value := if sticky.secure then value ++ "; Secure".toList else value
  let value := match sticky.maxAgeSecs with
    | some maxAge => value ++ "; Max-Age=".toList ++ Nat.toDigits 10 maxAge
    | none => value
  (HeaderValue.fromStr value).getD .empty

/-! ## The passes -/

def insertSome (headers : HeaderMap) (name : HeaderName) (value : Option HeaderValue) : HeaderMap :=
  value.elim headers (headers.insert name)

lemma getAll_insertSome_of_ne {headers : HeaderMap} {name name' : HeaderName}
    (value : Option HeaderValue) (h : name' ≠ name) :
    (insertSome headers name value).getAll name' = headers.getAll name' := by
  cases value with
  | none => rfl
  | some value => exact (MultiMap.getAll_insert _ _ _ _).trans (if_neg h)

structure ResponseHeaderSettings where
  /-- `max_entry_bytes` and `default_ttl` of the cache. -/
  cache : Option (ℕ × Duration)
  sticky : Option StickyRuntime
  hstsMaxAgeSecs : Option ℕ
  headers : Option HeaderRewrite

/-- A response of a backend; the body is there if it can be read in time. -/
structure BackendResponse where
  status : ℕ
  headers : HeaderMap
  body : Option (List UInt8)

/-- What becomes of a response in `handle_inner`. -/
inductive Relay
  | response (headers : HeaderMap) (stored : Option StoredResponse)
  /-- `502`: the body was to be stored and could not be read. -/
  | unreadable

namespace ResponseHeaderSettings

variable (ctx : ResponseHeaderSettings)

def cacheTtl (cacheKey : Option CacheKey) (status : ℕ) (headers : HeaderMap) : Option Duration :=
  match ctx.cache, cacheKey with
  | some (maxEntryBytes, defaultTtl), some _ =>
    cacheableTtl .get status headers maxEntryBytes defaultTtl
  | _, _ => none

def setSticky (backendId : BackendId) (headers : HeaderMap) : HeaderMap :=
  insertSome headers "set-cookie" (ctx.sticky.map fun sticky => setCookieHeader sticky backendId)

/-- A response that is returned, in `handle_inner`. -/
def relay (cacheKey : Option CacheKey) (backendId : BackendId) (resp : BackendResponse) : Relay :=
  let headers := stripHopByHop resp.headers
  match cacheKey, ctx.cacheTtl cacheKey resp.status headers with
  | some key, some ttl =>
    match resp.body with
    | some body =>
      .response (ctx.setSticky backendId headers) (some ⟨key, resp.status, headers, body, ttl⟩)
    | none => .unreadable
  | _, _ => .response (ctx.setSticky backendId headers) none

/-- The headers that `handle` adds to every response. -/
def stamp (requestId : List Char) (closes : Bool) (headers : HeaderMap) : HeaderMap :=
  let headers := insertSome headers "x-request-id" (HeaderValue.fromStr requestId)
  let headers := insertSome headers "connection"
    (if closes then some (.fromStatic "close") else none)
  insertSome headers "strict-transport-security" (ctx.hstsMaxAgeSecs.bind
    fun maxAge => HeaderValue.fromStr ("max-age=".toList ++ Nat.toDigits 10 maxAge))

def finish (requestId : List Char) (closes : Bool) (headers : HeaderMap) : HeaderMap :=
  match ctx.headers with
  | some rewrite => rewrite.response.apply (ctx.stamp requestId closes headers)
  | none => ctx.stamp requestId closes headers

/-! ## What is left of a header -/

/-- The headers that the proxy may drop or replace. -/
def Excepted (resp : BackendResponse) (name : HeaderName) : Prop :=
  IsHopByHop resp.headers name ∨ name = "x-request-id" ∨ name = "strict-transport-security" ∨
    ∃ rewrite ∈ ctx.headers, name ∈ rewrite.response.set.map Prod.fst ∨
      name ∈ rewrite.response.remove

variable {ctx} {resp : BackendResponse} {name : HeaderName}

lemma getAll_finish (h : ¬ ctx.Excepted resp name) (requestId : List Char) (closes : Bool)
    (headers : HeaderMap) :
    (ctx.finish requestId closes headers).getAll name = headers.getAll name := by
  simp only [Excepted, not_or, not_exists, not_and] at h
  obtain ⟨hh, hid, hst, he⟩ := h
  have hc : name ≠ "connection" := by
    rintro rfl
    exact hh (Or.inl (by decide))
  have hs : (ctx.stamp requestId closes headers).getAll name = headers.getAll name := by
    rw [stamp, getAll_insertSome_of_ne _ hst, getAll_insertSome_of_ne _ hc,
      getAll_insertSome_of_ne _ hid]
  unfold finish
  cases hr : ctx.headers with
  | none => exact hs
  | some rewrite =>
    obtain ⟨hse, hre⟩ := he rewrite hr
    exact (rewrite.response.getAll_apply_of_notMem hse hre).trans hs

lemma getAll_relay {cacheKey : Option CacheKey} {backendId : BackendId} {headers : HeaderMap}
    {stored : Option StoredResponse} (h : ¬ ctx.Excepted resp name)
    (hr : ctx.relay cacheKey backendId resp = .response headers stored)
    (requestId : List Char) (closes : Bool) :
    (ctx.finish requestId closes headers).getAll name
      = if name = "set-cookie" ∧ ctx.sticky.isSome then
          (ctx.sticky.map fun sticky => setCookieHeader sticky backendId).toList
        else resp.headers.getAll name := by
  have hh : headers = ctx.setSticky backendId (stripHopByHop resp.headers) := by
    unfold relay at hr
    dsimp only at hr
    split at hr
    · split at hr
      · exact (Relay.response.inj hr).1.symm
      · cases hr
    · exact (Relay.response.inj hr).1.symm
  have hs : (stripHopByHop resp.headers).getAll name = resp.headers.getAll name := by
    rw [getAll_stripHopByHop, if_neg (fun hho => h (Or.inl hho))]
  rw [getAll_finish h, hh, setSticky]
  by_cases hn : name = "set-cookie"
  · subst hn
    cases hst : ctx.sticky with
    | none => simpa [insertSome] using hs
    | some sticky => simp [insertSome, MultiMap.getAll_insert]
  · rw [if_neg (fun hb => hn hb.1), getAll_insertSome_of_ne _ hn]
    exact hs

/-- **The proxy loses nothing of a response**: all lines of the backend's headers reach the client,
in order, but for those that may be replaced, exactly when no cookie of the backend stands where the
sticky cookie is put. -/
theorem response_headers_kept_iff {cacheKey : Option CacheKey} {backendId : BackendId}
    {headers : HeaderMap} {stored : Option StoredResponse}
    (hrelay : ctx.relay cacheKey backendId resp = .response headers stored)
    (requestId : List Char) (closes : Bool) :
    (∀ name, ¬ ctx.Excepted resp name →
        (resp.headers.getAll name).Sublist ((ctx.finish requestId closes headers).getAll name)) ↔
      ∀ sticky, ctx.sticky = some sticky → ¬ ctx.Excepted resp "set-cookie" →
        resp.headers.getAll "set-cookie" = [] ∨
          resp.headers.getAll "set-cookie" = [setCookieHeader sticky backendId] := by
  constructor
  · intro h sticky hs hc
    have hsu := h "set-cookie" hc
    rw [getAll_relay hc hrelay, hs, if_pos ⟨rfl, rfl⟩] at hsu
    exact List.sublist_singleton.mp hsu
  · intro h name hn
    rw [getAll_relay hn hrelay]
    split_ifs with hb
    · obtain ⟨rfl, hso⟩ := hb
      obtain ⟨sticky, hs⟩ := Option.isSome_iff_exists.mp hso
      rw [hs]
      exact List.sublist_singleton.mpr (h sticky hs hn)
    · exact List.Sublist.refl _

/-! ### A response with a session cookie -/

def shopSettings (sticky : Bool) : ResponseHeaderSettings where
  cache := none
  sticky := if sticky then some ⟨"lb", none, false⟩ else none
  hstsMaxAgeSecs := some 3600
  headers := none

def loginPage : BackendResponse where
  status := 200
  headers := ⟨[("content-type", .fromStatic "text/html"),
    ("set-cookie", .fromStatic "session=abc"), ("set-cookie", .fromStatic "theme=dark")]⟩
  body := none

/-- Without sticky sessions both cookies reach the client. -/
theorem response_headers_kept_plain :
    ∃ headers stored, (shopSettings false).relay none "shop1" loginPage = .response headers stored ∧
      ∀ name, ¬ (shopSettings false).Excepted loginPage name →
        (loginPage.headers.getAll name).Sublist
          (((shopSettings false).finish "id".toList false headers).getAll name) := by
  have hr : (shopSettings false).relay none "shop1" loginPage
      = .response (stripHopByHop loginPage.headers) none := rfl
  exact ⟨_, _, hr, (response_headers_kept_iff hr _ _).mpr fun _ h => nomatch h⟩

/-- With sticky sessions none does: the sticky cookie is the only one. -/
theorem sticky_cookie_replaces_cookies :
    ∃ headers stored, (shopSettings true).relay none "shop1" loginPage = .response headers stored ∧
      ¬ (shopSettings true).Excepted loginPage "set-cookie" ∧
      loginPage.headers.getAll "set-cookie"
        = [.fromStatic "session=abc", .fromStatic "theme=dark"] ∧
      ((shopSettings true).finish "id".toList false headers).getAll "set-cookie"
        = [.fromStatic "lb=shop1; Path=/; HttpOnly; SameSite=Lax"] := by
  refine ⟨_, _, rfl, ?_, by decide, by decide⟩
  rintro (hh | hid | hs | ⟨rewrite, hr, -⟩)
  · exact absurd hh (by decide)
  · exact absurd hid (by decide)
  · exact absurd hs (by decide)
  · cases hr

end ResponseHeaderSettings

end LoadBalancer.Proxy
