import LoadBalancer.Core.IpAddr
import LoadBalancer.Proxy.Headers
import LoadBalancer.Proxy.Pinning

/-!
# What a backend is told about the client

Three passes make the headers of an outbound request: the proxy says who the client is
(`crates/lb-proxy/src/forwarded.rs`), the configured edits are made, and the headers of the
client's connection are dropped (`handle_inner` and `build_outbound_request` in `service.rs`).  The
last pass drops every header that the client's `Connection` names, and by then the headers of the
first two passes are among them.
-/

namespace LoadBalancer.Proxy

open LoadBalancer.Core List

/-! ## The passes -/

structure ForwardedHeaders where
  trustedCidrs : List IpNet
  clientTls : Bool

/-- `set` of `forwarded.rs`: what is no header value removes the header. -/
def setText (headers : HeaderMap) (name : HeaderName) (value : List Char) : HeaderMap :=
  match HeaderValue.fromStr value with
  | some value => headers.insert name value
  | none => headers.remove name

def joined (headers : HeaderMap) (name : HeaderName) : Option (List Char) :=
  let values := (headers.getAll name).filterMap HeaderValue.toStr
  if values = [] then none else some (", ".toList.intercalate values)

/-- `append` of `forwarded.rs`: all lines of a header become one. -/
def appendText (headers : HeaderMap) (name : HeaderName) (value : List Char) : HeaderMap :=
  setText headers name <|
    match joined headers name with
    | some existing => existing ++ ", ".toList ++ value
    | none => value

def forwardedElement (peer : IpAddr) (proto : List Char)
    (host : Option (List Char)) : List Char :=
  let node := match peer with
    | .v4 v4 => displayV4 v4
    | .v6 v6 => "\"[".toList ++ displayV6 v6 ++ "]\"".toList
  let element := "for=".toList ++ node ++ ";proto=".toList ++ proto
  match host with
  | some host => element ++ ";host=\"".toList ++ host.filter (· ∉ ['"', '\\']) ++ "\"".toList
  | none => element

namespace ForwardedHeaders

variable (fw : ForwardedHeaders)

def trusts (peer : IpAddr) : Bool := fw.trustedCidrs.any fun net => net.contains peer.toCanonical

def proto : List Char := if fw.clientTls then "https".toList else "http".toList

def names : List HeaderName :=
  ["x-forwarded-for", "x-forwarded-proto", "x-forwarded-host", "forwarded"]

/-- The first part of `apply`, for a client that is trusted: what it says is kept. -/
def extend (headers : HeaderMap) (peer : IpAddr) (host : Option (List Char)) :
    HeaderMap :=
  let headers := appendText headers "x-forwarded-for" (peer.display)
  let headers :=
    if headers.containsKey "x-forwarded-proto" then headers
    else setText headers "x-forwarded-proto" fw.proto
  match headers.containsKey "x-forwarded-host", host with
  | false, some host => setText headers "x-forwarded-host" host
  | _, _ => headers

/-- The first part of `apply`, for any other client. -/
def replace (headers : HeaderMap) (peer : IpAddr) (host : Option (List Char)) :
    HeaderMap :=
  let headers := headers.removeAll names
  let headers := setText headers "x-forwarded-for" (peer.display)
  let headers := setText headers "x-forwarded-proto" fw.proto
  match host with
  | some host => setText headers "x-forwarded-host" host
  | none => headers

def apply (headers : HeaderMap) (peer : IpAddr) (host : Option (List Char)) :
    HeaderMap :=
  appendText
    (if fw.trusts peer.toCanonical then fw.extend headers peer.toCanonical host
      else fw.replace headers peer.toCanonical host)
    "forwarded" (forwardedElement peer.toCanonical fw.proto host)

end ForwardedHeaders

structure HeaderRewrite where
  request : HeaderEdits
  response : HeaderEdits

/-- The edits of a configuration (`build_listener_core`). -/
def HeaderRewrite.ofConfig (crates : ConfigCrates) (config : HeaderRewriteConfig) :
    HeaderRewrite where
  request := HeaderEdits.new crates config.requestSet config.requestRemove
  response := HeaderEdits.new crates config.responseSet config.responseRemove

structure RequestHeaderSettings where
  forwarded : Option ForwardedHeaders
  headers : Option HeaderRewrite

/-- What `handle_inner` does to the headers of a request on its way to the forwarding. -/
def RequestHeaderSettings.rewrite (ctx : RequestHeaderSettings) (peer : IpAddr)
    (req : RequestHead) : RequestHead :=
  let req := match ctx.forwarded with
    | some forwarded => { req with headers := forwarded.apply req.headers peer req.host }
    | none => req
  match ctx.headers with
  | some headers => { req with headers := headers.request.apply req.headers }
  | none => req

/-- A request to a backend without its body. -/
structure OutboundHead where
  method : Method
  scheme : String
  authority : String
  pathAndQuery : List Char
  headers : HeaderMap

def buildOutboundRequest (req : RequestHead) (backend : Backend) (backendTls : Bool) :
    Option OutboundHead := do
  let (scheme, authority) ← backendSchemeAndAuthority backend backendTls
  return {
    method := req.method
    scheme := scheme
    authority := authority
    pathAndQuery := req.uri.pathAndQuery.getD "/".toList
    headers := stripHopByHop req.headers }

/-! ## What each pass leaves of a header -/

lemma getAll_setText (headers : HeaderMap) (name name' : HeaderName) (value : List Char) :
    (setText headers name value).getAll name'
      = if name' = name then (HeaderValue.fromStr value).toList else headers.getAll name' := by
  unfold setText
  cases HeaderValue.fromStr value with
  | some value => exact MultiMap.getAll_insert _ _ _ _
  | none => exact MultiMap.getAll_remove _ _ _

lemma appendText_of_absent {headers : HeaderMap} {name : HeaderName} (value : List Char)
    (h : headers.getAll name = []) :
    appendText headers name value = setText headers name value := by
  rw [appendText, joined, h]
  rfl

namespace ForwardedHeaders

variable (fw : ForwardedHeaders)

/-- What the proxy says about a client that it does not trust. -/
def statement (peer : IpAddr) (host : Option (List Char)) (name : HeaderName) :
    Option HeaderValue :=
  if name = "x-forwarded-for" then HeaderValue.fromStr (peer.toCanonical.display)
  else if name = "x-forwarded-proto" then HeaderValue.fromStr fw.proto
  else if name = "x-forwarded-host" then host.bind HeaderValue.fromStr
  else if name = "forwarded" then
    HeaderValue.fromStr (forwardedElement peer.toCanonical fw.proto host)
  else none

variable {fw} {peer : IpAddr}

lemma trusts_toCanonical : fw.trusts peer.toCanonical = fw.trusts peer := by
  unfold trusts
  rw [IpAddr.toCanonical_toCanonical]

lemma getAll_replace (headers : HeaderMap) (host : Option (List Char)) (name : HeaderName) :
    (fw.replace headers peer.toCanonical host).getAll name
      = if name = "forwarded" then []
        else if name ∈ names then (fw.statement peer host name).toList
        else headers.getAll name := by
  have hx : (fw.replace headers peer.toCanonical host).getAll name
      = if name = "x-forwarded-host" then (host.bind HeaderValue.fromStr).toList
        else (setText (setText (headers.removeAll names) "x-forwarded-for"
          (peer.toCanonical.display)) "x-forwarded-proto" fw.proto).getAll name := by
    unfold replace
    cases host with
    | some host => exact getAll_setText _ _ _ _
    | none =>
      by_cases hn : name = "x-forwarded-host"
      · subst hn
        simp [getAll_setText, MultiMap.getAll_removeAll, names]
      · rw [if_neg hn]
  rw [hx, getAll_setText, getAll_setText, MultiMap.getAll_removeAll]
  by_cases hm : name ∈ names
  · simp only [names, mem_cons, not_mem_nil, or_false] at hm
    rcases hm with rfl | rfl | rfl | rfl <;> simp [statement, names]
  · have hne : name ≠ "x-forwarded-for" ∧ name ≠ "x-forwarded-proto" ∧ name ≠ "x-forwarded-host" ∧
        name ≠ "forwarded" := by
      simpa [names] using hm
    rw [if_neg hne.2.2.1, if_neg hne.2.1, if_neg hne.1, if_neg hm, if_neg hne.2.2.2, if_neg hm]

lemma getAll_apply_of_untrusted (h : fw.trusts peer = false) (headers : HeaderMap)
    (host : Option (List Char)) (name : HeaderName) :
    (fw.apply headers peer host).getAll name
      = if name ∈ names then (fw.statement peer host name).toList
        else headers.getAll name := by
  rw [apply, trusts_toCanonical, h, if_neg Bool.false_ne_true,
    appendText_of_absent _ (getAll_replace headers host "forwarded"), getAll_setText,
    getAll_replace]
  by_cases hn : name = "forwarded"
  · subst hn
    rfl
  · rw [if_neg hn, if_neg hn]

/-! ### The texts of the statement are header values -/

lemma visible_of_mem_display {c : Char} (h : c ∈ peer.display) : isVisibleAscii c = true := by
  have hb := (isAddrChar_of_parse (parse_display peer) h).toNat_bounds
  simp only [isVisibleAscii, Bool.or_eq_true, Bool.and_eq_true, decide_eq_true_eq]
  omega

lemma fromStr_display (peer : IpAddr) :
    (HeaderValue.fromStr (peer.display)).isSome = true := by
  obtain ⟨v, hv, -⟩ := HeaderValue.fromStr_of_visible
    (all_eq_true.mpr fun c hc => visible_of_mem_display hc)
  exact Option.isSome_of_eq_some hv

lemma fromStr_proto : (HeaderValue.fromStr fw.proto).isSome = true := by
  unfold proto
  split_ifs <;> decide

variable {host : Option (List Char)}
  (hhost : ∀ t, host = some t → (HeaderValue.fromStr t).isSome = true)

include hhost

lemma fromStr_forwardedElement :
    (HeaderValue.fromStr (forwardedElement peer fw.proto host)).isSome = true := by
  have hn : (HeaderValue.fromStr (match peer with
      | .v4 v4 => displayV4 v4
      | .v6 v6 => "\"[".toList ++ displayV6 v6 ++ "]\"".toList)).isSome = true := by
    cases peer with
    | v4 a => exact fromStr_display (.v4 a)
    | v6 a =>
      simp only [HeaderValue.fromStr_append_isSome_iff]
      exact ⟨⟨by decide, fromStr_display (.v6 a)⟩, by decide⟩
  unfold forwardedElement
  cases host with
  | none =>
    simp only [HeaderValue.fromStr_append_isSome_iff]
    exact ⟨⟨⟨by decide, hn⟩, by decide⟩, fromStr_proto⟩
  | some host =>
    -- Quotes and backslashes are dropped from a text that was a header value before.
    have hf : (HeaderValue.fromStr (host.filter (· ∉ ['"', '\\']))).isSome = true := by
      rw [HeaderValue.fromStr_isSome_iff]
      intro c hc
      exact HeaderValue.fromStr_isSome_iff.mp (hhost host rfl) c (mem_of_mem_filter hc)
    simp only [HeaderValue.fromStr_append_isSome_iff]
    exact ⟨⟨⟨⟨⟨⟨by decide, hn⟩, by decide⟩, fromStr_proto⟩, by decide⟩, hf⟩, by decide⟩

lemma statement_isSome_iff {name : HeaderName} (hn : name ∈ names) :
    (fw.statement peer host name).isSome = true ↔
      (name = "x-forwarded-host" → host.isSome = true) := by
  unfold statement
  simp only [names, mem_cons, not_mem_nil, or_false] at hn
  rcases hn with rfl | rfl | rfl | rfl
  · simpa using fromStr_display peer.toCanonical
  · simpa using fromStr_proto
  · cases host with
    | none => simp
    | some host => simpa using hhost host rfl
  · simpa using fromStr_forwardedElement hhost

end ForwardedHeaders

/-! ## Requests to a backend -/

def requestHost (crates : ConfigCrates) (req : RequestHead) : Option (List Char) :=
  (normalizeHost crates req).bind RequestHead.host

/-- The request that is sent to a backend for a request that does not ask to switch protocols. -/
def RequestHeaderSettings.outbound (ctx : RequestHeaderSettings) (crates : ConfigCrates)
    (peer : IpAddr) (req : RequestHead) (backend : Backend) (backendTls : Bool) :
    Option OutboundHead := do
  let req := ctx.rewrite peer (← normalizeHost crates req)
  guard (!isUpgradeRequest req.headers)
  buildOutboundRequest req backend backendTls

section

variable (crates : ConfigCrates) (config : HeaderRewriteConfig)

def requestSetNames : List HeaderName := config.requestSet.filterMap fun e => crates.headerName e.1

def requestRemoveNames : List HeaderName := config.requestRemove.filterMap crates.headerName

/-- The headers of an outbound request that are the proxy's to set. -/
def protectedNames : List HeaderName := ForwardedHeaders.names ++ requestSetNames crates config

/-- The value that the proxy was configured with, or otherwise computes, for a header. -/
def proxyValue (fw : ForwardedHeaders) (peer : IpAddr)
    (host : Option (List Char)) (name : HeaderName) : Option HeaderValue :=
  ((HeaderRewrite.ofConfig crates config).request.setValue name).or
    (fw.statement peer host name)

/-- Each of the proxy's headers is there exactly once, with the value of the proxy. -/
def Upheld (fw : ForwardedHeaders) (peer : IpAddr) (host : Option (List Char))
    (headers : HeaderMap) : Prop :=
  ∀ name ∈ protectedNames crates config,
    ∃ v, proxyValue crates config fw peer host name = some v ∧ headers.getAll name = [v]

/-- The request leaves the proxy's headers alone, and the configuration does so too. -/
structure Spared (req : RequestHead) : Prop where
  /-- The client does not declare them to be headers of its connection. -/
  unnamed : ∀ name ∈ protectedNames crates config, name ∉ connectionNames req.headers
  endToEnd : ∀ name ∈ requestSetNames crates config,
    name ≠ "proxy-authenticate" ∧ name ≠ "proxy-authorization"
  kept : ∀ name ∈ ForwardedHeaders.names,
    name ∈ requestRemoveNames crates config → name ∈ requestSetNames crates config
  host : (requestHost crates req).isSome = true ∨
    "x-forwarded-host" ∈ requestSetNames crates config

variable {crates config}

section

variable (hvalid : config.validate crates = .ok ())
  (hvalue : ∀ value, crates.isHeaderValue value = (HeaderValue.fromStr value.toList).isSome)
include hvalid

variable {name : HeaderName}

lemma requestSetNames_not_framing (h : name ∈ requestSetNames crates config) :
    name ∉ framingHeaders := by
  obtain ⟨e, he, hn⟩ := mem_filterMap.mp h
  obtain ⟨-, name', hn', hf⟩ := (HeaderRewriteConfig.of_validate hvalid).1 e (mem_append_left _ he)
  cases hn.symm.trans hn'
  exact hf

lemma requestRemoveNames_not_framing (h : name ∈ requestRemoveNames crates config) :
    name ∉ framingHeaders := by
  obtain ⟨n, hn, hna⟩ := mem_filterMap.mp h
  obtain ⟨name', hn', hf⟩ := (HeaderRewriteConfig.of_validate hvalid).2 n (mem_append_left _ hn)
  cases hna.symm.trans hn'
  exact hf

lemma protectedNames_not_always {req : RequestHead} (hs : Spared crates config req)
    (h : name ∈ protectedNames crates config) : ¬ (name ∈ alwaysHopByHop ∨ name = "upgrade") := by
  have hfr : ∀ n ∈ "upgrade" :: alwaysHopByHop, n ∈ framingHeaders ∨
      n = "proxy-authenticate" ∨ n = "proxy-authorization" := by decide
  intro hh
  rcases mem_append.mp h with hfo | hse
  · have hn : ∀ n ∈ ForwardedHeaders.names, n ∉ "upgrade" :: alwaysHopByHop := by decide
    exact hn name hfo (mem_cons.mpr hh.symm)
  · obtain ⟨hau, ha⟩ := hs.endToEnd name hse
    rcases hfr name (mem_cons.mpr hh.symm) with hf | rfl | rfl
    · exact requestSetNames_not_framing hvalid hse hf
    · exact hau rfl
    · exact ha rfl

include hvalue

lemma map_fst_requestEdits :
    (HeaderRewrite.ofConfig crates config).request.set.map Prod.fst
      = requestSetNames crates config := by
  show (config.requestSet.filterMap _).map Prod.fst = _
  rw [map_filterMap]
  refine filterMap_congr fun e he => ?_
  obtain ⟨hok, name, hn, -⟩ := (HeaderRewriteConfig.of_validate hvalid).1 e (mem_append_left _ he)
  rw [hvalue] at hok
  obtain ⟨v, hv⟩ := Option.isSome_iff_exists.mp hok
  simp [hn, hv]

lemma setValue_requestEdits_isSome_iff :
    ((HeaderRewrite.ofConfig crates config).request.setValue name).isSome = true ↔
      name ∈ requestSetNames crates config := by
  rw [HeaderEdits.setValue_isSome_iff, map_fst_requestEdits hvalid hvalue]

end

section

variable {fw : ForwardedHeaders} {peer : IpAddr} {req r : RequestHead}

def rewriting (crates : ConfigCrates) (config : HeaderRewriteConfig) (fw : ForwardedHeaders) :
    RequestHeaderSettings where
  forwarded := some fw
  headers := some (HeaderRewrite.ofConfig crates config)

lemma getAll_rewrite (huntrusted : fw.trusts peer = false) (name : HeaderName) :
    ((rewriting crates config fw).rewrite peer r).headers.getAll name =
      match (HeaderRewrite.ofConfig crates config).request.setValue name with
      | some v => [v]
      | none =>
        if name ∈ requestRemoveNames crates config then []
        else if name ∈ ForwardedHeaders.names then (fw.statement peer r.host name).toList
        else r.headers.getAll name := by
  have ha := (HeaderRewrite.ofConfig crates config).request.getAll_apply
    (fw.apply r.headers peer r.host) name
  rw [ForwardedHeaders.getAll_apply_of_untrusted huntrusted] at ha
  exact ha

variable (hvalid : config.validate crates = .ok ())
  (hvalue : ∀ value, crates.isHeaderValue value = (HeaderValue.fromStr value.toList).isSome)
  (huntrusted : fw.trusts peer = false) (hnorm : normalizeHost crates req = some r)
include hvalid hvalue huntrusted hnorm

/-- The passes before the last leave the `Connection` of the client as it is. -/
lemma connectionNames_rewrite :
    connectionNames ((rewriting crates config fw).rewrite peer r).headers
      = connectionNames req.headers := by
  have hs : (HeaderRewrite.ofConfig crates config).request.setValue "connection" = none := by
    rw [← Option.not_isSome_iff_eq_none, setValue_requestEdits_isSome_iff hvalid hvalue]
    exact fun h => requestSetNames_not_framing hvalid h (by decide)
  have hr : "connection" ∉ requestRemoveNames crates config :=
    fun h => requestRemoveNames_not_framing hvalid h (by decide)
  refine connectionNames_congr ?_
  rw [getAll_rewrite huntrusted, hs]
  simp only [if_neg hr]
  rw [if_neg (by decide), getAll_of_normalizeHost hnorm (by decide)]

lemma getAll_outbound (name : HeaderName) :
    (stripHopByHop ((rewriting crates config fw).rewrite peer r).headers).getAll name =
      if IsHopByHop req.headers name then [] else
      match (HeaderRewrite.ofConfig crates config).request.setValue name with
      | some v => [v]
      | none =>
        if name ∈ requestRemoveNames crates config then []
        else if name ∈ ForwardedHeaders.names then (fw.statement peer r.host name).toList
        else r.headers.getAll name := by
  have hh : IsHopByHop ((rewriting crates config fw).rewrite peer r).headers name ↔
      IsHopByHop req.headers name := by
    unfold IsHopByHop
    rw [connectionNames_rewrite hvalid hvalue huntrusted hnorm]
  rw [getAll_stripHopByHop, getAll_rewrite huntrusted]
  exact if_congr hh rfl rfl

/-- **What the proxy says is upheld** exactly when it is spared by the request and by the
configuration. -/
lemma upheld_iff_spared :
    Upheld crates config fw peer r.host
        (stripHopByHop ((rewriting crates config fw).rewrite peer r).headers) ↔
      Spared crates config req := by
  have ho := fun name => getAll_outbound hvalid hvalue huntrusted hnorm name
  have hse : ∀ name, _ ↔ name ∈ requestSetNames crates config :=
    fun _ => setValue_requestEdits_isSome_iff hvalid hvalue
  have hhost : requestHost crates req = r.host := by
    rw [requestHost, hnorm]
    rfl
  constructor
  · intro h
    -- A header of the proxy that is there cannot have been dropped with the connection's.
    have hk : ∀ name ∈ protectedNames crates config, ¬ IsHopByHop req.headers name := by
      intro name hn hh
      obtain ⟨v, -, hg⟩ := h name hn
      rw [ho, if_pos hh] at hg
      cases hg
    refine ⟨fun name hn hna => ?_, fun name hn => ?_, fun name hn hr => ?_, ?_⟩
    · exact hk name hn (Or.inr (Or.inr hna))
    · have hh := hk name (mem_append_right _ hn)
      constructor <;> rintro rfl <;> exact hh (Or.inl (by decide))
    · by_contra hno
      obtain ⟨v, -, hg⟩ := h name (mem_append_left _ hn)
      have hnon := Option.not_isSome_iff_eq_none.mp (mt (hse name).mp hno)
      rw [ho, if_neg (hk name (mem_append_left _ hn)), hnon] at hg
      simp [hr] at hg
    · by_contra hc
      obtain ⟨hnoh, hno⟩ := not_or.mp hc
      obtain ⟨v, hv, -⟩ := h "x-forwarded-host" (mem_append_left _ (by decide))
      have hnon := Option.not_isSome_iff_eq_none.mp (mt (hse "x-forwarded-host").mp hno)
      rw [hhost, Option.not_isSome_iff_eq_none] at hnoh
      rw [proxyValue, hnon, hnoh] at hv
      cases hv
  · intro h name hn
    have hh : ¬ IsHopByHop req.headers name := by
      rintro (ha | hu | hna)
      · exact protectedNames_not_always hvalid h hn (Or.inl ha)
      · exact protectedNames_not_always hvalid h hn (Or.inr hu)
      · exact h.unnamed name hn hna
    rw [ho, if_neg hh, proxyValue]
    cases hv' : (HeaderRewrite.ofConfig crates config).request.setValue name with
    | some v => exact ⟨v, rfl, rfl⟩
    | none =>
      have hno : name ∉ requestSetNames crates config := by
        rw [← hse, hv']
        exact Bool.false_ne_true
      have hf : name ∈ ForwardedHeaders.names := (mem_append.mp hn).resolve_right hno
      have hs : (fw.statement peer r.host name).isSome = true := by
        rw [ForwardedHeaders.statement_isSome_iff
          (fun t ht => (host_of_normalizeHost hnorm ht).1) hf]
        rintro rfl
        rw [← hhost]
        exact h.host.resolve_right hno
      obtain ⟨v, hv⟩ := Option.isSome_iff_exists.mp hs
      refine ⟨v, hv, ?_⟩
      simp only [if_neg (mt (h.kept name hf) hno), if_pos hf, hv]
      rfl

omit hnorm

lemma upheld_of_outbound {backend : Backend} {backendTls : Bool} {out : OutboundHead}
    (ho : (rewriting crates config fw).outbound crates peer req backend backendTls
      = some out) :
    Upheld crates config fw peer (requestHost crates req) out.headers ↔
      Spared crates config req := by
  obtain ⟨r, hnorm, ho⟩ := Option.bind_eq_some_iff.mp ho
  obtain ⟨-, -, ho⟩ := Option.bind_eq_some_iff.mp ho
  obtain ⟨address, -, ho⟩ := Option.bind_eq_some_iff.mp ho
  cases ho
  rw [← upheld_iff_spared hvalid hvalue huntrusted hnorm, requestHost, hnorm]
  rfl

/-- **The client has no say in what the proxy says about it**: for two requests of one client that
is not trusted, to one host, the outbound requests agree on the headers of the proxy and carry each
exactly once with the proxy's value, exactly when neither request names one of them in its
`Connection`, and the configuration sets no header that is always dropped, removes none of them
without setting it, and knows or sets the host. -/
theorem forwarded_headers_upheld_iff {req' : RequestHead} {backend : Backend} {backendTls : Bool}
    {out out' : OutboundHead} (hhost : requestHost crates req = requestHost crates req')
    (hout : (rewriting crates config fw).outbound crates peer req backend backendTls
      = some out)
    (hout' : (rewriting crates config fw).outbound crates peer req' backend backendTls
      = some out') :
    (Upheld crates config fw peer (requestHost crates req) out.headers ∧
        Upheld crates config fw peer (requestHost crates req) out'.headers ∧
        ∀ name ∈ protectedNames crates config,
          out.headers.getAll name = out'.headers.getAll name) ↔
      Spared crates config req ∧ Spared crates config req' := by
  have hu := upheld_of_outbound hvalid hvalue huntrusted hout
  have hu' := upheld_of_outbound hvalid hvalue huntrusted hout'
  rw [← hhost] at hu'
  constructor
  · rintro ⟨h, h', -⟩
    exact ⟨hu.mp h, hu'.mp h'⟩
  · rintro ⟨hs, hs'⟩
    have h := hu.mpr hs
    have h' := hu'.mpr hs'
    refine ⟨h, h', fun name hn => ?_⟩
    obtain ⟨v, hv, hg⟩ := h name hn
    obtain ⟨v', hv', hg'⟩ := h' name hn
    rw [hg, hg', Option.some.inj (hv.symm.trans hv')]

end

end

/-! ### Two requests of one client -/

/-- Crates that take every name and every text, and know header values. -/
def permissive : ConfigCrates where
  isAuthority _ := true
  isUri _ := true
  isHeaderValue value := (HeaderValue.fromStr value.toList).isSome
  headerName name := some name

def markEnv : HeaderRewriteConfig where
  requestSet := [("x-env", "prod")]
  requestRemove := []
  responseSet := []
  responseRemove := []

def shopRequest (lines : List (HeaderName × String)) : RequestHead where
  method := .get
  uri := { authority := none, pathAndQuery := some "/".toList }
  version := .http11
  headers := ⟨("host", .fromStatic "shop.example") ::
    lines.map fun line => (line.1, .fromStatic line.2)⟩

/-- The values of a header in the request that the shop's backend gets from `203.0.113.7`. -/
def shopBackendSees (req : RequestHead) (name : HeaderName) : Option (List HeaderValue) :=
  ((rewriting permissive markEnv ⟨[], false⟩).outbound permissive (.v4 0xCB007107) req
    ⟨"shop1", "10.0.0.1:80", 1, none, 0⟩ false).map fun out => out.headers.getAll name

/-- A client that claims to be someone else, and one that does not. -/
theorem forwarded_headers_upheld_shop :
    let settings := rewriting permissive markEnv ⟨[], false⟩
    let peer := IpAddr.v4 0xCB007107
    let backend : Backend := ⟨"shop1", "10.0.0.1:80", 1, none, 0⟩
    ∃ out out',
      settings.outbound permissive peer (shopRequest []) backend false = some out ∧
      settings.outbound permissive peer
        (shopRequest [("x-forwarded-for", "6.6.6.6"), ("connection", "close")]) backend false
          = some out' ∧
      ∀ name ∈ protectedNames permissive markEnv,
        out.headers.getAll name = out'.headers.getAll name := by
  intro settings peer backend
  obtain ⟨out, ho⟩ := Option.isSome_iff_exists.mp (by decide : (settings.outbound permissive
    peer (shopRequest []) backend false).isSome = true)
  obtain ⟨out', ho'⟩ := Option.isSome_iff_exists.mp (by decide : (settings.outbound permissive
    peer (shopRequest [("x-forwarded-for", "6.6.6.6"), ("connection", "close")])
    backend false).isSome = true)
  have hs : Spared permissive markEnv (shopRequest []) :=
    ⟨by decide, by decide, by decide, by decide⟩
  have hs' : Spared permissive markEnv
      (shopRequest [("x-forwarded-for", "6.6.6.6"), ("connection", "close")]) :=
    ⟨by decide, by decide, by decide, by decide⟩
  exact ⟨out, out', ho, ho', ((forwarded_headers_upheld_iff rfl (fun _ => rfl)
    rfl (by decide) ho ho').mpr ⟨hs, hs'⟩).2.2⟩

/-- The same client, once plainly and once with a `Connection` that names headers of the proxy: the
backend is not told the client's address any more, nor the environment. -/
theorem connection_drops_forwarded_headers :
    requestHost permissive (shopRequest [])
        = requestHost permissive (shopRequest [("connection", "x-forwarded-for, x-env")]) ∧
      shopBackendSees (shopRequest []) "x-forwarded-for" = some [.fromStatic "203.0.113.7"] ∧
      shopBackendSees (shopRequest []) "x-env" = some [.fromStatic "prod"] ∧
      shopBackendSees (shopRequest [("connection", "x-forwarded-for, x-env")]) "x-forwarded-for"
        = some [] ∧
      shopBackendSees (shopRequest [("connection", "x-forwarded-for, x-env")]) "x-env"
        = some [] := by
  decide +kernel

end LoadBalancer.Proxy
