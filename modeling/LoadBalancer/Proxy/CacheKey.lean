import LoadBalancer.Lib.Text
import LoadBalancer.Proxy.Headers

/-!
# The key of a cached response

`key_for` (`crates/lb-proxy/src/cache.rs`) joins the method, the host, the path and the accepted
codings of a request with `|`.  No host has that character, but a path may have it, and so may the
name of a coding: a part of a path can pass for a part of the codings.  Lines of `Accept-Encoding`
that are not text do not get into the key at all.
-/

namespace LoadBalancer.Proxy

open LoadBalancer.Core List

/-! ## The key -/

def Method.display : Method → String
  | .get => "GET"
  | .head => "HEAD"
  | .put => "PUT"
  | .delete => "DELETE"
  | .options => "OPTIONS"
  | .trace => "TRACE"
  | .other name => name

def normalizeCoding (coding : List Char) : List Char :=
  lowercase (coding.filter fun c => !isWhitespace c)

/-- The codings in the lines of `Accept-Encoding` that are text. -/
def readableCodings (headers : HeaderMap) : List (List Char) :=
  ((listElements headers "accept-encoding").map normalizeCoding).filter (· ≠ [])

def normalizedAcceptEncoding (headers : HeaderMap) : List Char :=
  [','].intercalate (Text.distinct (readableCodings headers))

def RequestHead.path (req : RequestHead) : List Char := req.uri.pathAndQuery.getD "/".toList

def keyFor (req : RequestHead) : List Char :=
  req.method.display.toList ++ '|' :: ((req.host.getD []) ++ '|' :: (req.path ++ '|' ::
    normalizedAcceptEncoding req.headers))

def requestIsCacheable (req : RequestHead) : Bool :=
  req.method = .get && !req.headers.containsKey "authorization" && !isUpgradeRequest req.headers

/-! ## What the key tells -/

def AcceptsCoding (headers : HeaderMap) (coding : List Char) : Prop :=
  coding ≠ [] ∧ ∃ value ∈ headers.getAll "accept-encoding", ∃ part ∈ value.bytes.splitOn ',',
    normalizeCoding part = coding

/-- Two requests that may be given the same response. -/
structure Interchangeable (req req' : RequestHead) : Prop where
  method : req.method = req'.method
  host : req.host = req'.host
  path : req.path = req'.path
  codings : ∀ coding, AcceptsCoding req.headers coding ↔ AcceptsCoding req'.headers coding

/-- The path of the second request is that of the first, a bar, and what stands before a bar in the
codings of the first; the codings of the second are what stands behind it. -/
def Straddles (req req' : RequestHead) : Prop :=
  req.host = req'.host ∧ ∃ part, req'.path = req.path ++ '|' :: part ∧
    normalizedAcceptEncoding req.headers
      = part ++ '|' :: normalizedAcceptEncoding req'.headers

/-- A coding in a line of `Accept-Encoding` that is not text. -/
def UnreadableCoding (headers : HeaderMap) (coding : List Char) : Prop :=
  coding ≠ [] ∧ ∃ value ∈ headers.getAll "accept-encoding", value.toStr = none ∧
    ∃ part ∈ value.bytes.splitOn ',', normalizeCoding part = coding

/-- The requests agree on all that is text, and one accepts a coding, in a line that is not, that
the other does not accept. -/
def DifferUnreadably (req req' : RequestHead) : Prop :=
  req.host = req'.host ∧ req.path = req'.path ∧
    (∀ coding, coding ∈ readableCodings req.headers ↔ coding ∈ readableCodings req'.headers) ∧
    ∃ coding, (UnreadableCoding req.headers coding ∧ ¬ AcceptsCoding req'.headers coding) ∨
      (UnreadableCoding req'.headers coding ∧ ¬ AcceptsCoding req.headers coding)

/-- What is assumed of the `http` crate: an authority has a character and no bar. -/
structure AuthorityLaws (crates : ConfigCrates) : Prop where
  no_bar : ∀ text, crates.isAuthority (String.ofList text) = true → '|' ∉ text
  not_empty : crates.isAuthority (String.ofList []) = false

lemma eq_comma_of_toLower {c : Char} (h : c.toLower = ',') : c = ',' := by
  unfold Char.toLower at h
  split_ifs at h with hu
  · have hv : c.val + ('a'.val - 'A'.val) = ','.val := congrArg Char.val h
    have hn := congrArg UInt32.toNat hv
    have hl : 65 ≤ c.val.toNat := hu.1
    have hh : c.val.toNat ≤ 90 := hu.2
    rw [UInt32.toNat_add] at hn
    simp only [show ('a'.val - 'A'.val).toNat = 32 from rfl, show ','.val.toNat = 44 from rfl]
      at hn
    omega
  · exact h

variable {headers : HeaderMap} {coding : List Char}

lemma readableCodings_spec (h : coding ∈ readableCodings headers) : coding ≠ [] ∧ ',' ∉ coding := by
  obtain ⟨hm, hne⟩ := mem_filter.mp h
  obtain ⟨part, hp, rfl⟩ := mem_map.mp hm
  obtain ⟨text, -, hs⟩ := mem_flatMap.mp hp
  refine ⟨by simpa using hne, fun hco => ?_⟩
  obtain ⟨c, hc, hl⟩ := mem_map.mp hco
  obtain rfl := eq_comma_of_toLower hl
  exact Text.notMem_of_mem_splitOn hs (mem_of_mem_filter hc)

lemma acceptsCoding_iff :
    AcceptsCoding headers coding ↔
      coding ∈ readableCodings headers ∨ UnreadableCoding headers coding := by
  constructor
  · rintro ⟨hne, value, hv, part, hp, rfl⟩
    cases ht : value.toStr with
    | none => exact Or.inr ⟨hne, value, hv, ht, part, hp, rfl⟩
    | some text =>
      refine Or.inl (mem_filter.mpr ⟨mem_map_of_mem ?_, by simpa using hne⟩)
      refine mem_flatMap.mpr ⟨text, mem_filterMap.mpr ⟨value, hv, ht⟩, ?_⟩
      rw [HeaderValue.toStr_eq ht]
      exact hp
  · rintro (h | ⟨hne, value, hv, -, part, hp, hc⟩)
    · obtain ⟨hm, hne⟩ := mem_filter.mp h
      obtain ⟨part, hp, rfl⟩ := mem_map.mp hm
      obtain ⟨text, ht, hs⟩ := mem_flatMap.mp hp
      obtain ⟨value, hv, hto⟩ := mem_filterMap.mp ht
      rw [HeaderValue.toStr_eq hto] at hs
      exact ⟨by simpa using hne, value, hv, part, hs, rfl⟩
    · exact ⟨hne, value, hv, part, hp, hc⟩

lemma unreadableCoding_of_accepts {headers' : HeaderMap}
    (hr : coding ∈ readableCodings headers → coding ∈ readableCodings headers')
    (h : AcceptsCoding headers coding) (hn : ¬ AcceptsCoding headers' coding) :
    UnreadableCoding headers coding := by
  refine (acceptsCoding_iff.mp h).resolve_left fun hm => ?_
  exact hn (acceptsCoding_iff.mpr (Or.inl (hr hm)))

lemma normalizedAcceptEncoding_eq_iff {headers' : HeaderMap} :
    normalizedAcceptEncoding headers = normalizedAcceptEncoding headers' ↔
      ∀ coding, coding ∈ readableCodings headers ↔ coding ∈ readableCodings headers' := by
  have hf : ∀ {headers : HeaderMap}, ∀ x ∈ Text.distinct (readableCodings headers),
      x ≠ [] ∧ ',' ∉ x := fun x hx => readableCodings_spec (Text.mem_distinct.mp hx)
  rw [← Text.distinct_eq_iff]
  exact ⟨Text.intercalate_inj hf hf, congrArg _⟩

section

variable {crates : ConfigCrates} (hlaws : AuthorityLaws crates) {req r : RequestHead}
  (hparsed : ∀ authority, req.uri.authority = some authority →
    crates.isAuthority (String.ofList authority) = true)
  (hnorm : normalizeHost crates req = some r)
include hlaws hparsed hnorm

lemma host_spec {host : List Char} (h : r.host = some host) : host ≠ [] ∧ '|' ∉ host := by
  have ha : crates.isAuthority (String.ofList host) = true :=
    (host_of_normalizeHost hnorm h).2.elim (hparsed host) id
  refine ⟨?_, hlaws.no_bar host ha⟩
  rintro rfl
  rw [hlaws.not_empty] at ha
  cases ha

end

/-- Two keys of `GET` requests are equal if the requests agree on all that is in them, or if the
bars do not stand where they seem to. -/
lemma keyFor_eq_iff {r r' : RequestHead} (hge : r.method = .get) (hg' : r'.method = .get)
    (hh : ∀ host, r.host = some host → host ≠ [] ∧ '|' ∉ host)
    (hh' : ∀ host, r'.host = some host → host ≠ [] ∧ '|' ∉ host) :
    keyFor r = keyFor r' ↔
      (r.host = r'.host ∧ r.path = r'.path ∧
        ∀ coding, coding ∈ readableCodings r.headers ↔ coding ∈ readableCodings r'.headers) ∨
      Straddles r r' ∨ Straddles r' r := by
  have hb : ∀ {r : RequestHead}, (∀ host, r.host = some host → host ≠ [] ∧ '|' ∉ host) →
      '|' ∉ r.host.getD [] := by
    intro r h
    cases hr : r.host with
    | none => simp
    | some host => exact (h host hr).2
  have hg : r.host.getD [] = r'.host.getD [] ↔ r.host = r'.host := by
    refine ⟨fun h => ?_, congrArg (Option.getD · [])⟩
    cases hr : r.host <;> cases hr' : r'.host <;> rw [hr, hr'] at h
    · exact absurd h.symm (hh' _ hr').1
    · exact absurd h (hh _ hr).1
    · exact congrArg some h
  rw [keyFor, keyFor, hge, hg', Text.append_cons_inj (by decide) (by decide),
    Text.append_cons_inj (hb hh) (hb hh'), hg, Text.append_cons_eq_iff,
    normalizedAcceptEncoding_eq_iff]
  unfold Straddles
  constructor
  · rintro ⟨-, hs, h | h | h⟩
    · exact Or.inl ⟨hs, h⟩
    · exact Or.inr (Or.inl ⟨hs, h⟩)
    · exact Or.inr (Or.inr ⟨hs.symm, h⟩)
  · rintro (⟨hs, h⟩ | ⟨hs, h⟩ | ⟨hs, h⟩)
    · exact ⟨rfl, hs, Or.inl h⟩
    · exact ⟨rfl, hs, Or.inr (Or.inl h)⟩
    · exact ⟨rfl, hs.symm, Or.inr (Or.inr h)⟩

/-- Requests whose bars do not stand where they seem to have different paths. -/
lemma path_ne_of_straddles {r r' : RequestHead} (h : Straddles r r') : r.path ≠ r'.path := by
  obtain ⟨-, part, hp, -⟩ := h
  intro heq
  have hl := congrArg List.length (heq.trans hp)
  simp at hl

/-- **A cached response goes to the right request**: two requests with one key are
interchangeable, exactly when no bar in a path or a coding is mistaken for a separator and the
codings that are not text make no difference. -/
theorem key_identifies_request_iff {crates : ConfigCrates} (hlaws : AuthorityLaws crates)
    {req req' r r' : RequestHead}
    (hparsed : ∀ authority, req.uri.authority = some authority →
      crates.isAuthority (String.ofList authority) = true)
    (hparsed' : ∀ authority, req'.uri.authority = some authority →
      crates.isAuthority (String.ofList authority) = true)
    (hnorm : normalizeHost crates req = some r) (hnorm' : normalizeHost crates req' = some r')
    (hcacheable : requestIsCacheable r = true) (hcacheable' : requestIsCacheable r' = true) :
    (keyFor r = keyFor r' → Interchangeable r r') ↔
      ¬ Straddles r r' ∧ ¬ Straddles r' r ∧ ¬ DifferUnreadably r r' := by
  have hg : ∀ {r : RequestHead}, requestIsCacheable r = true → r.method = .get := by
    intro r h
    simp only [requestIsCacheable, Bool.and_eq_true, decide_eq_true_eq] at h
    exact h.1.1
  have hk := keyFor_eq_iff (hg hcacheable) (hg hcacheable')
    (fun _ => host_spec hlaws hparsed hnorm) (fun _ => host_spec hlaws hparsed' hnorm')
  constructor
  · intro h
    refine ⟨fun hs => ?_, fun hs => ?_, fun hd => ?_⟩
    · exact path_ne_of_straddles hs (h (hk.mpr (Or.inr (Or.inl hs)))).path
    · exact path_ne_of_straddles hs (h (hk.mpr (Or.inr (Or.inr hs)))).path.symm
    · obtain ⟨hh, hp, hr, coding, hc⟩ := hd
      have hsa := (h (hk.mpr (Or.inl ⟨hh, hp, hr⟩))).codings coding
      rcases hc with ⟨hu, hn⟩ | ⟨hu, hn⟩
      · exact hn (hsa.mp (acceptsCoding_iff.mpr (Or.inr hu)))
      · exact hn (hsa.mpr (acceptsCoding_iff.mpr (Or.inr hu)))
  · rintro ⟨hf, hse, hd⟩ heq
    obtain ⟨hh, hp, hr⟩ | hs | hs := hk.mp heq
    · refine ⟨(hg hcacheable).trans (hg hcacheable').symm, hh, hp, fun coding => ?_⟩
      constructor
      · intro h
        by_contra hn
        have hu := unreadableCoding_of_accepts (hr coding).mp h hn
        exact hd ⟨hh, hp, hr, coding, Or.inl ⟨hu, hn⟩⟩
      · intro h
        by_contra hn
        have hu := unreadableCoding_of_accepts (hr coding).mpr h hn
        exact hd ⟨hh, hp, hr, coding, Or.inr ⟨hu, hn⟩⟩
    · exact absurd hs hf
    · exact absurd hs hse

/-! ### Requests to one host -/

/-- Crates that know an authority by its having a character and no bar. -/
def noBars : ConfigCrates where
  isAuthority text := !text.toList.isEmpty && !text.toList.contains '|'
  isUri _ := true
  isHeaderValue _ := true
  headerName name := some name

lemma authorityLaws_noBars : AuthorityLaws noBars where
  no_bar text h := by simpa [noBars] using And.right (by simpa [noBars] using h)
  not_empty := by decide

def codedRequest (path codings : String) : RequestHead where
  method := .get
  uri := { authority := none, pathAndQuery := some path.toList }
  version := .http11
  headers := ⟨[("host", .fromStatic "shop.example"), ("accept-encoding", .fromStatic codings)]⟩

/-- The order of the codings makes no difference. -/
theorem key_identifies_request_reordered :
    Interchangeable (codedRequest "/a" "gzip, br") (codedRequest "/a" "BR,gzip") := by
  have hparsed : ∀ codings authority, (codedRequest "/a" codings).uri.authority
      = some authority → noBars.isAuthority (String.ofList authority) = true :=
    fun _ _ h => nomatch h
  have hnorm : normalizeHost noBars (codedRequest "/a" "gzip, br")
      = some (codedRequest "/a" "gzip, br") := by decide
  have hn' : normalizeHost noBars (codedRequest "/a" "BR,gzip")
      = some (codedRequest "/a" "BR,gzip") := by decide
  have ht : ∀ value ∈ (codedRequest "/a" "gzip, br").headers.getAll "accept-encoding",
      value.toStr ≠ none := by decide
  have ht' : ∀ value ∈ (codedRequest "/a" "BR,gzip").headers.getAll "accept-encoding",
      value.toStr ≠ none := by decide
  refine (key_identifies_request_iff authorityLaws_noBars (hparsed _) (hparsed _) hnorm hn'
    (by decide) (by decide)).mpr ⟨?_, ?_, ?_⟩ (by decide)
  · exact fun h => path_ne_of_straddles h rfl
  · exact fun h => path_ne_of_straddles h rfl
  · rintro ⟨-, -, -, coding, ⟨⟨-, value, hv, hn, -⟩, -⟩ | ⟨⟨-, value, hv, hn, -⟩, -⟩⟩
    · exact ht value hv hn
    · exact ht' value hv hn

/-- `/a` with the coding `gzip|br`, and `/a|gzip` with the coding `br`, have one key. -/
theorem key_shared_across_paths :
    normalizeHost noBars (codedRequest "/a" "gzip|br") = some (codedRequest "/a" "gzip|br") ∧
      normalizeHost noBars (codedRequest "/a|gzip" "br") = some (codedRequest "/a|gzip" "br") ∧
      requestIsCacheable (codedRequest "/a" "gzip|br") = true ∧
      requestIsCacheable (codedRequest "/a|gzip" "br") = true ∧
      keyFor (codedRequest "/a" "gzip|br") = keyFor (codedRequest "/a|gzip" "br") ∧
      (codedRequest "/a" "gzip|br").path ≠ (codedRequest "/a|gzip" "br").path := by
  decide

end LoadBalancer.Proxy
