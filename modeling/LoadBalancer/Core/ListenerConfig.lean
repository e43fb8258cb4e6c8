import LoadBalancer.Core.Config
import LoadBalancer.Core.IpAddr
import LoadBalancer.Core.Pool
import LoadBalancer.Lib.Float64

/-!
# The configuration of a listener

The settings of one `[[listeners]]` section and their validation (`ListenerConfig::validate` in
`crates/lb-core/src/config.rs`), check by check and message by message.  A listener has its own
backends, from the file or from DNS, and an HTTP listener may have more pools: one for each route,
and canary pools that get a share of the traffic.

What authorities, URIs and header texts look like is decided by the `http` crate, a parameter.
-/

namespace LoadBalancer.Core

open List Except

/-! ## The sections -/

inductive Protocol
  | http
  | tcp
  deriving DecidableEq

inductive LoadBalancingStrategy
  | roundRobin
  | leastConnections
  | weightedRoundRobin
  | consistentHash
  | peakEwmaP2c
  | maglev
  | rendezvousHash
  | random
  | weightedRandom
  | leastRequest
  deriving DecidableEq

structure DnsDiscoveryConfig where
  name : String
  port : ℕ
  pollIntervalSecs : Option ℕ
  serverName : Option String
  deriving DecidableEq

structure OutlierDetectionConfig where
  minVolume : ℕ
  minHosts : ℕ
  stddevFactor : Float64
  deriving BEq

structure HealthCheckConfig where
  path : Option String
  intervalMs : ℕ
  timeoutMs : ℕ
  failureThreshold : UInt32
  cooldownMs : ℕ
  halfOpenSuccessesRequired : UInt32
  flapBackoffMultiplier : Float64
  maxFlapCooldownMs : ℕ
  flapStreakResetMs : ℕ
  unhealthyLatencyMs : Option ℕ
  unhealthyRequestCount : Option ℕ
  outlierDetection : Option OutlierDetectionConfig
  maxEjectedFraction : Option Float64
  healthyThreshold : ℕ
  unhealthyThreshold : ℕ
  deriving BEq

structure BackendConfig where
  id : String
  address : SocketAddr
  weight : ℕ
  serverName : Option String
  priority : ℕ
  zone : Option String
  deriving DecidableEq

/-- A priority step for each configured one, and one more for a backend in another zone. -/
def BackendConfig.effectivePriority (b : BackendConfig) (localZone : Option String) : ℕ :=
  let away := localZone.any fun zone => b.zone ≠ some zone
  min (min (b.priority * 2) (2 ^ 32 - 1) + away.toNat) (2 ^ 32 - 1)

structure RouteConfig where
  pathPrefix : Option String
  host : Option String
  backends : List BackendConfig
  healthCheck : HealthCheckConfig
  loadBalancing : LoadBalancingStrategy
  deriving BEq

structure CanaryPoolConfig where
  percent : ℕ
  backends : List BackendConfig
  healthCheck : HealthCheckConfig
  loadBalancing : LoadBalancingStrategy
  deriving BEq

inductive RateLimitKeySource
  | sourceIp
  | header (name : String)
  deriving DecidableEq

structure RateLimitConfig where
  key : RateLimitKeySource
  ratePerSec : Float64
  burst : ℕ
  maxTrackedKeys : ℕ
  deriving BEq

structure RetryBudgetConfig where
  ratePerSec : Float64
  burst : ℕ
  deriving BEq

structure UpstreamLimitsConfig where
  maxActivePerBackend : ℕ
  maxPendingPerBackend : ℕ
  maxQueueMs : ℕ
  deriving DecidableEq

structure AdaptiveConcurrencyConfig where
  initialLimit : ℕ
  minLimit : ℕ
  maxLimit : ℕ
  smoothing : Float64
  tolerance : Float64
  deriving BEq, Inhabited

/-- The networks are in text form. -/
structure ForwardedConfig where
  trustedCidrs : List String
  deriving DecidableEq

/-- Header rewriting; the entries of the two maps are in the order of their names. -/
structure HeaderRewriteConfig where
  requestSet : List (String × String)
  requestRemove : List String
  responseSet : List (String × String)
  responseRemove : List String
  deriving DecidableEq

structure DirectResponseConfig where
  pathPrefix : Option String
  host : Option String
  status : ℕ
  body : Option String
  contentType : Option String
  redirect : Option String
  keepPath : Bool
  deriving DecidableEq

structure MirrorConfig where
  address : SocketAddr
  percent : ℕ
  maxInFlight : ℕ
  timeoutMs : ℕ
  deriving DecidableEq

structure TcpKeepaliveConfig where
  timeSecs : ℕ
  intervalSecs : ℕ
  retries : ℕ
  deriving DecidableEq

structure StickyConfig where
  cookieName : String
  maxAgeSecs : Option ℕ
  deriving DecidableEq

structure CacheConfig where
  maxEntryBytes : ℕ
  maxTotalBytes : ℕ
  defaultTtlSecs : ℕ
  deriving DecidableEq

inductive WafMode
  | block
  | log
  deriving DecidableEq

structure WafConfig where
  mode : WafMode
  inspectHeaders : Bool
  deriving DecidableEq

structure AcmeCertConfig where
  directoryUrl : String
  contactEmail : String
  accountKeyFile : String
  renewBeforeDays : ℕ
  checkIntervalSecs : ℕ
  caBundleFile : Option String
  fallbackDirectoryUrl : Option String
  stagingDirectoryUrl : Option String
  deriving DecidableEq

structure CertificateConfig where
  name : String
  certFile : String
  keyFile : String
  hostnames : List String
  acme : Option AcmeCertConfig
  deriving DecidableEq

inductive TlsVersion
  | tls12
  | tls13
  deriving DecidableEq

structure TlsConfig where
  certificates : List CertificateConfig
  handshakeTimeoutMs : Option ℕ
  minVersion : Option TlsVersion
  reloadIntervalSecs : Option ℕ
  hstsMaxAgeSecs : Option ℕ
  deriving DecidableEq

structure BackendTlsConfig where
  caFile : Option String
  dangerAcceptInvalidCerts : Bool
  deriving DecidableEq

structure Http2Config where
  enabled : Option Bool
  maxConcurrentStreams : Option ℕ
  maxPendingAcceptResetStreams : Option ℕ
  maxLocalErrorResetStreams : Option ℕ
  maxHeaderListSize : Option ℕ
  maxFrameSize : Option ℕ
  keepAliveIntervalSecs : Option ℕ
  keepAliveTimeoutSecs : Option ℕ
  backendH2c : Option Bool
  deriving DecidableEq

/-- The settings of a listener.  Of the sections `forwarded`, `sticky`, `cache` and `waf`
validation only asks whether they are there. -/
structure ListenerSettings where
  protocol : Protocol
  forwardTimeoutMs : Option ℕ
  maxRequestBodyBytes : Option ℕ
  writeTimeoutMs : Option ℕ
  responseBodyIdleTimeoutMs : Option ℕ
  requestTimeoutMs : Option ℕ
  retryOnStatus : List ℕ
  requestBufferBytes : Option ℕ
  slowStartMs : Option ℕ
  localZone : Option String
  forwarded : Option ForwardedConfig
  headers : Option HeaderRewriteConfig
  directResponses : List DirectResponseConfig
  mirror : Option MirrorConfig
  websocketIdleTimeoutMs : Option ℕ
  compression : Bool
  connectTimeoutMs : Option ℕ
  idleTimeoutMs : Option ℕ
  maxConnections : Option ℕ
  maxConnectionsPerIp : Option ℕ
  headerReadTimeoutMs : Option ℕ
  bodyReadTimeoutMs : Option ℕ
  proxyProtocol : Bool
  proxyProtocolTimeoutMs : Option ℕ
  proxyProtocolTrustedCidrs : List String
  clientTcpKeepalive : Option TcpKeepaliveConfig
  backendTcpKeepalive : Option TcpKeepaliveConfig
  tls : Option TlsConfig
  backendTls : Option BackendTlsConfig
  http2 : Option Http2Config
  dnsDiscovery : Option DnsDiscoveryConfig
  backends : List BackendConfig
  healthCheck : HealthCheckConfig
  rateLimit : RateLimitConfig
  loadBalancing : LoadBalancingStrategy
  routes : List RouteConfig
  canary : List CanaryPoolConfig
  sticky : Option StickyConfig
  cache : Option CacheConfig
  waf : Option WafConfig
  retryBudget : Option RetryBudgetConfig
  upstreamLimits : Option UpstreamLimitsConfig
  adaptiveConcurrency : Option AdaptiveConcurrencyConfig
  deriving BEq

/-- What validation asks of the `http` crate. -/
structure ConfigCrates where
  /-- `http::uri::Authority::try_from(text).is_ok()`. -/
  isAuthority : String → Bool
  /-- `text.parse::<http::Uri>().is_ok()`. -/
  isUri : String → Bool
  /-- `http::HeaderValue::from_str(text).is_ok()`. -/
  isHeaderValue : String → Bool
  /-- `http::HeaderName::from_bytes`, which lowers the letters of a valid name. -/
  headerName : String → Option String

/-- A health check with the defaults of the settings that have one. -/
def HealthCheckConfig.withDefaults (path : Option String) (intervalMs : ℕ)
    (failureThreshold : UInt32) (cooldownMs : ℕ) (timeoutMs : ℕ := 500) : HealthCheckConfig where
  path := path
  intervalMs := intervalMs
  timeoutMs := timeoutMs
  failureThreshold := failureThreshold
  cooldownMs := cooldownMs
  halfOpenSuccessesRequired := 1
  flapBackoffMultiplier := .finite 1
  maxFlapCooldownMs := 2 ^ 64 - 1
  flapStreakResetMs := 60000
  unhealthyLatencyMs := none
  unhealthyRequestCount := none
  outlierDetection := none
  maxEjectedFraction := none
  healthyThreshold := 2
  unhealthyThreshold := 3

/-- A listener with its sections only, every setting that has a default left to it. -/
def ListenerSettings.withDefaults (protocol : Protocol) (backends : List BackendConfig)
    (healthCheck : HealthCheckConfig) (rateLimit : RateLimitConfig)
    (loadBalancing : LoadBalancingStrategy := .roundRobin) : ListenerSettings where
  protocol := protocol
  forwardTimeoutMs := none
  maxRequestBodyBytes := none
  writeTimeoutMs := none
  responseBodyIdleTimeoutMs := none
  requestTimeoutMs := none
  retryOnStatus := []
  requestBufferBytes := none
  slowStartMs := none
  localZone := none
  forwarded := none
  headers := none
  directResponses := []
  mirror := none
  websocketIdleTimeoutMs := none
  compression := false
  connectTimeoutMs := none
  idleTimeoutMs := none
  maxConnections := none
  maxConnectionsPerIp := none
  headerReadTimeoutMs := none
  bodyReadTimeoutMs := none
  proxyProtocol := false
  proxyProtocolTimeoutMs := none
  proxyProtocolTrustedCidrs := []
  clientTcpKeepalive := none
  backendTcpKeepalive := none
  tls := none
  backendTls := none
  http2 := none
  dnsDiscovery := none
  backends := backends
  healthCheck := healthCheck
  rateLimit := rateLimit
  loadBalancing := loadBalancing
  routes := []
  canary := []
  sticky := none
  cache := none
  waf := none
  retryBudget := none
  upstreamLimits := none
  adaptiveConcurrency := none

/-- The port of an address in text form: what follows its last colon. -/
def portOf (address : SocketAddr) : String :=
  String.ofList (address.toList.reverse.takeWhile fun c => c ≠ ':').reverse

/-! ## Validation of the sections -/

/-- The early return of a failed check. -/
def refuseIf (c : Bool) (message : String) : Except String Unit :=
  if c then .error message else .ok ()

@[simp] lemma refuseIf_eq_ok_iff {c : Bool} {message : String} :
    refuseIf c message = .ok () ↔ c = false := by
  cases c <;> simp [refuseIf]

namespace DnsDiscoveryConfig

def validate (dns : DnsDiscoveryConfig) : Except String Unit := do
  refuseIf (isBlank dns.name) "dns_discovery.name must not be empty"
  refuseIf (dns.port = 0) "dns_discovery.port must be positive"

def validateServerName (crates : ConfigCrates) (dns : DnsDiscoveryConfig) : Except String Unit :=
  match dns.serverName with
  | none => .error "dns_discovery.server_name is required when backend_tls is set"
  | some name => do
    refuseIf (IpAddr.parse name.toList).isSome
      ("dns_discovery.server_name = \"" ++ name ++ "\" is an IP address — it " ++
        "must be the hostname on the backends' certificate")
    refuseIf (!crates.isAuthority (name ++ ":" ++ toString dns.port))
      ("dns_discovery.server_name = \"" ++ name ++ "\" cannot form a valid " ++
        "authority (check for stray spaces or punctuation)")

end DnsDiscoveryConfig

namespace RateLimitConfig

def validate (rateLimit : RateLimitConfig) : Except String Unit := do
  refuseIf (rateLimit.ratePerSec.le 0) "rate_limit.rate_per_sec must be positive"
  refuseIf (rateLimit.burst = 0) "rate_limit.burst must be positive"
  refuseIf (rateLimit.maxTrackedKeys = 0) "rate_limit.max_tracked_keys must be positive"

end RateLimitConfig

def RetryBudgetConfig.validate (rb : RetryBudgetConfig) : Except String Unit := do
  refuseIf (rb.ratePerSec.le 0) "retry_budget.rate_per_sec must be positive"
  refuseIf (rb.burst = 0) "retry_budget.burst must be positive"

def OutlierDetectionConfig.isUnusable (od : OutlierDetectionConfig) : Bool :=
  od.minVolume = 0 || od.minHosts < 2 || od.stddevFactor.le 0

namespace HealthCheckConfig

variable (hc : HealthCheckConfig)

def validate : Except String Unit := do
  refuseIf (hc.healthyThreshold = 0 || hc.unhealthyThreshold = 0)
    "health_check.healthy_threshold and unhealthy_threshold must be positive"
  refuseIf (hc.flapBackoffMultiplier.lt 1) "health_check.flap_backoff_multiplier must be >= 1.0"
  refuseIf (hc.unhealthyLatencyMs = some 0)
    "health_check.unhealthy_latency_ms must be positive if set"
  refuseIf (hc.unhealthyRequestCount = some 0)
    "health_check.unhealthy_request_count must be positive if set"
  refuseIf (hc.outlierDetection.any fun od => od.isUnusable)
    ("health_check.outlier_detection requires min_volume > 0, min_hosts >= 2, " ++
      "and stddev_factor > 0.0")
  refuseIf (hc.maxEjectedFraction.any fun f => !f.within 0 1)
    "health_check.max_ejected_fraction must be between 0.0 and 1.0"

/-- The health check of a pool of the section `kind`: the checks of the listener's own, two of
them in one, and a path. -/
def validateIn (kind : String) : Except String Unit := do
  let each := "each [[listeners." ++ kind ++ "]] "
  refuseIf hc.path.isNone (each ++ "needs health_check.path, same as the listener itself")
  refuseIf (hc.healthyThreshold = 0 || hc.unhealthyThreshold = 0)
    (each ++ "health_check.healthy_threshold and unhealthy_threshold must be positive")
  refuseIf (hc.flapBackoffMultiplier.lt 1)
    (each ++ "health_check.flap_backoff_multiplier must be >= 1.0")
  refuseIf (hc.unhealthyLatencyMs = some 0 || hc.unhealthyRequestCount = some 0)
    (each ++ "health_check.unhealthy_latency_ms/unhealthy_request_count must be positive if set")
  refuseIf (hc.outlierDetection.any fun od => od.isUnusable)
    (each ++ "health_check.outlier_detection requires min_volume > 0, min_hosts >= 2, " ++
      "and stddev_factor > 0.0")
  refuseIf (hc.maxEjectedFraction.any fun f => !f.within 0 1)
    (each ++ "health_check.max_ejected_fraction must be between 0.0 and 1.0")

end HealthCheckConfig

def AdaptiveConcurrencyConfig.validate (a : AdaptiveConcurrencyConfig) : Except String Unit := do
  refuseIf (!(1 ≤ a.minLimit && a.minLimit ≤ a.initialLimit && a.initialLimit ≤ a.maxLimit))
    "adaptive_concurrency requires 1 <= min_limit <= initial_limit <= max_limit"
  refuseIf (!(a.smoothing.gt 0 && a.smoothing.le 1) || a.tolerance.lt 1)
    "adaptive_concurrency requires 0 < smoothing <= 1 and tolerance >= 1"

def UpstreamLimitsConfig.validate (u : UpstreamLimitsConfig) : Except String Unit :=
  refuseIf (u.maxActivePerBackend = 0 || u.maxQueueMs = 0)
    "upstream_limits.max_active_per_backend and max_queue_ms must be positive"

/-! ### Sections of HTTP listeners -/

def framingHeaders : List String :=
  ["host", "content-length", "transfer-encoding", "connection", "upgrade", "te", "trailer",
    "keep-alive", "proxy-connection"]

def checkRewritableHeader (crates : ConfigCrates) (name : String) : Except String Unit :=
  match crates.headerName name with
  | none => .error ("headers: '" ++ name ++ "' is not a valid header name")
  | some parsed => refuseIf (parsed ∈ framingHeaders)
      ("headers: '" ++ name ++ "' controls message framing or routing and cannot be rewritten")

def HeaderRewriteConfig.validate (crates : ConfigCrates) (headers : HeaderRewriteConfig) :
    Except String Unit := do
  (headers.requestSet ++ headers.responseSet).forM fun (name, value) => do
    checkRewritableHeader crates name
    refuseIf (!crates.isHeaderValue value) ("headers: invalid value for '" ++ name ++ "'")
  (headers.requestRemove ++ headers.responseRemove).forM fun name =>
    checkRewritableHeader crates name

lemma HeaderRewriteConfig.of_validate {crates : ConfigCrates} {headers : HeaderRewriteConfig}
    (h : headers.validate crates = .ok ()) :
    (∀ e ∈ headers.requestSet ++ headers.responseSet, crates.isHeaderValue e.2 = true ∧
        ∃ name, crates.headerName e.1 = some name ∧ name ∉ framingHeaders) ∧
      ∀ n ∈ headers.requestRemove ++ headers.responseRemove,
        ∃ name, crates.headerName n = some name ∧ name ∉ framingHeaders := by
  have hna : ∀ {n : String}, checkRewritableHeader crates n = .ok () →
      ∃ name, crates.headerName n = some name ∧ name ∉ framingHeaders := by
    intro n hn
    unfold checkRewritableHeader at hn
    cases hp : crates.headerName n with
    | none =>
      rw [hp] at hn
      cases hn
    | some name =>
      rw [hp] at hn
      exact ⟨name, rfl, by simpa using hn⟩
  unfold validate at h
  rw [seq_eq_ok_iff, forM_eq_ok_iff, forM_eq_ok_iff] at h
  refine ⟨fun e he => ?_, fun n hn => hna (h.2 n hn)⟩
  have hen := seq_eq_ok_iff.mp (h.1 e he)
  exact ⟨by simpa using hen.2, hna hen.1⟩

def redirectStatuses : List ℕ := [301, 302, 303, 307, 308]

def DirectResponseConfig.validate (crates : ConfigCrates) (direct : DirectResponseConfig) :
    Except String Unit := do
  refuseIf (!(200 ≤ direct.status && direct.status ≤ 599))
    ("direct_responses: status " ++ toString direct.status ++ " must be between 200 and 599")
  match direct.pathPrefix with
  | some path =>
    refuseIf (path.toList.head? ≠ some '/')
      ("direct_responses: path_prefix '" ++ path ++ "' must start with '/'")
  | none => .ok ()
  let isRedirectStatus : Bool := direct.status ∈ redirectStatuses
  match direct.redirect with
  | some location => do
    refuseIf (!isRedirectStatus)
      ("direct_responses: redirect needs a redirect status (301, 302, 303, 307 or 308), not " ++
        toString direct.status)
    refuseIf (!crates.isUri location)
      ("direct_responses: redirect '" ++ location ++ "' is not a valid URI")
    refuseIf (!crates.isHeaderValue location)
      ("direct_responses: redirect '" ++ location ++ "' is not a valid header value")
  | none => do
    refuseIf isRedirectStatus
      ("direct_responses: status " ++ toString direct.status ++ " needs a redirect location")
    refuseIf direct.keepPath "direct_responses: keep_path only applies to a redirect"
  match direct.contentType with
  | some contentType =>
    refuseIf (!crates.isHeaderValue contentType)
      ("direct_responses: content_type '" ++ contentType ++ "' is not a valid header value")
  | none => .ok ()

def MirrorConfig.validate (mirror : MirrorConfig) : Except String Unit := do
  refuseIf (!(1 ≤ mirror.percent && mirror.percent ≤ 100))
    ("mirror.percent must be between 1 and 100, got " ++ toString mirror.percent)
  refuseIf (mirror.maxInFlight = 0) "mirror.max_in_flight must be at least 1"
  refuseIf (mirror.timeoutMs = 0) "mirror.timeout_ms must be at least 1"

def RouteConfig.validate (route : RouteConfig) : Except String Unit := do
  refuseIf route.backends.isEmpty "each [[listeners.routes]] needs at least one backend"
  route.healthCheck.validateIn "routes"

def CanaryPoolConfig.validate (pool : CanaryPoolConfig) : Except String Unit := do
  refuseIf pool.backends.isEmpty "each [[listeners.canary]] needs at least one backend"
  pool.healthCheck.validateIn "canary"
  refuseIf (pool.percent = 0 || 99 < pool.percent)
    "each [[listeners.canary]] percent must be between 1 and 99"

/-! ### Sections about TLS -/

def AcmeCertConfig.validate (certificate : String) (hostnames : List String)
    (acme : AcmeCertConfig) : Except String Unit := do
  let named := "certificate '" ++ certificate ++ "' "
  refuseIf (hostnames.length ≠ 1)
    (named ++ "has acme configured but does not have exactly one hostname -- " ++
      "multi-domain acme certificates are not supported yet")
  refuseIf (isBlank acme.directoryUrl) (named ++ "acme.directory_url must not be empty")
  refuseIf (isBlank acme.contactEmail) (named ++ "acme.contact_email must not be empty")
  refuseIf (acme.fallbackDirectoryUrl.any isBlank)
    (named ++ "acme.fallback_directory_url must not be empty if set")
  refuseIf (acme.stagingDirectoryUrl.any isBlank)
    (named ++ "acme.staging_directory_url must not be empty if set")

def TlsConfig.validate (protocol : Protocol) (tls : TlsConfig) : Except String Unit := do
  refuseIf (protocol = .tcp && 0 < tls.hstsMaxAgeSecs.getD 0)
    ("hsts_max_age_secs is meaningless on a tcp listener — there are no " ++
      "responses to add a header to")
  refuseIf tls.certificates.isEmpty "[listeners.tls] needs at least one certificate"
  tls.certificates.forM fun cert =>
    match cert.acme with
    | some acme => acme.validate cert.name cert.hostnames
    | none => .ok ()

def Http2Config.validate (protocol : Protocol) (backendTls : Bool) (h2 : Http2Config) :
    Except String Unit := do
  refuseIf (protocol = .tcp)
    ("http2 settings are meaningless on a tcp listener — HTTP/2 is " ++
      "an application protocol and the L4 data plane does not parse one")
  refuseIf (h2.maxConcurrentStreams.getD 128 = 0)
    ("http2.max_concurrent_streams must be greater than 0 — zero " ++
      "advertises that no streams may be opened, which accepts " ++
      "connections and then serves nothing")
  refuseIf (h2.backendH2c.getD false && backendTls)
    ("http2.backend_h2c cannot be combined with backend_tls — a TLS " ++
      "backend negotiates HTTP/2 over ALPN automatically, so " ++
      "backend_h2c is only for plaintext backends")

/-! ## Validation of a listener -/

/-- The ids of a list of backends, added to those met so far. -/
def insertIds (duplicate : String) : List BackendConfig → List String →
    Except String (List String)
  | [], seen => .ok seen
  | b :: rest, seen =>
    if b.id ∈ seen then .error (duplicate ++ b.id) else insertIds duplicate rest (b.id :: seen)

/-- The names on the certificates of the listener's own backends, with the backend that first
used each name. -/
def validateServerNames (crates : ConfigCrates) (protocol : Protocol) :
    List BackendConfig → Table String String → Except String Unit
  | [], _ => .ok ()
  | b :: rest, firstUse =>
    match b.serverName with
    | none =>
      .error ("backend '" ++ b.id ++ "' needs a server_name when backend_tls is set — " ++
        "certificates are issued for hostnames, but the backend is " ++
        "addressed as " ++ b.address ++
        ". Add server_name = \"<the name on its certificate>\".")
    | some name =>
      if (IpAddr.parse name.toList).isSome then
        .error ("backend '" ++ b.id ++ "' has server_name = \"" ++ name ++ "\", which is an IP " ++
          "address — server_name must be the hostname on the backend's " ++
          "certificate, not an address (IP-SAN certificates are not supported)")
      else if !crates.isAuthority (name ++ ":" ++ portOf b.address) then
        .error ("backend '" ++ b.id ++ "' has server_name = \"" ++ name ++
          "\", which cannot form a " ++
          "valid request authority (check for stray spaces or punctuation)")
      else if protocol = .http then
        match firstUse.get name with
        | some firstId =>
          .error ("backends '" ++ firstId ++ "' and '" ++ b.id ++
            "' both use server_name = \"" ++ name ++ "\" " ++
            "— at L7 each server_name resolves to exactly one address, so " ++
            "sharing one collapses both backends onto whichever address is " ++
            "registered last, silently defeating load balancing. Give each " ++
            "backend a distinct server_name.")
        | none => validateServerNames crates protocol rest (firstUse.insert name b.id)
      else validateServerNames crates protocol rest firstUse

namespace ListenerSettings

variable (s : ListenerSettings)

def validateSource : Except String Unit :=
  match s.dnsDiscovery, s.backends.isEmpty with
  | some _, false =>
    .error ("backends and dns_discovery are mutually exclusive — a listener's " ++
      "backend set comes from exactly one source")
  | none, true => .error "at least one backend is required"
  | _, _ => .ok ()

def validateIds : Except String Unit := do
  let seen ← insertIds "duplicate backend id: " s.backends []
  let seen ← s.routes.foldlM
    (fun seen route => insertIds "duplicate backend id across routes: " route.backends seen) seen
  let _ ← s.canary.foldlM
    (fun seen pool => insertIds "duplicate backend id across canary pools: " pool.backends seen)
    seen

def validateConnections : Except String Unit := do
  let maxConnections := s.maxConnections.getD 10000
  let maxConnectionsPerIp := s.maxConnectionsPerIp.getD 100
  refuseIf (maxConnections = 0 || maxConnectionsPerIp = 0)
    "max_connections and max_connections_per_ip must be positive"
  refuseIf (maxConnections < maxConnectionsPerIp)
    "max_connections_per_ip cannot exceed max_connections"

def validateTimeouts : Except String Unit :=
  refuseIf (s.headerReadTimeoutMs.getD 5000 = 0 || s.bodyReadTimeoutMs.getD 10000 = 0 ||
      s.writeTimeoutMs.getD 30000 = 0 || s.responseBodyIdleTimeoutMs.getD 60000 = 0)
    ("header_read_timeout_ms, body_read_timeout_ms, write_timeout_ms and " ++
      "response_body_idle_timeout_ms must be positive")

def validateRetryOnStatus : Except String Unit :=
  match s.retryOnStatus.find? fun status => !(500 ≤ status && status ≤ 599) with
  | some status =>
    .error ("retry_on_status may only list 5xx statuses, got " ++ toString status)
  | none => .ok ()

/-- Settings that are positive when they are set, and the PROXY protocol. -/
def validateLimits : Except String Unit := do
  refuseIf (s.slowStartMs = some 0) "slow_start_ms must be positive"
  refuseIf (s.requestBufferBytes = some 0) "request_buffer_bytes must be positive"
  refuseIf (s.requestTimeoutMs = some 0) "request_timeout_ms must be positive"
  refuseIf (s.proxyProtocolTimeoutMs.getD 1000 = 0) "proxy_protocol_timeout_ms must be positive"
  refuseIf (s.proxyProtocol && s.proxyProtocolTrustedCidrs.isEmpty)
    ("proxy_protocol = true requires proxy_protocol_trusted_cidrs, the networks " ++
      "of the front-end proxies allowed to send a PROXY header " ++
      "(use [\"0.0.0.0/0\", \"::/0\"] to accept one from any source)")
  refuseIf (!s.proxyProtocol && !s.proxyProtocolTrustedCidrs.isEmpty)
    "proxy_protocol_trusted_cidrs is set but proxy_protocol is not enabled"

def validateHttp (crates : ConfigCrates) : Except String Unit := do
  s.headers.elim (.ok ()) fun headers => headers.validate crates
  s.directResponses.forM fun direct => direct.validate crates
  s.mirror.elim (.ok ()) MirrorConfig.validate
  refuseIf s.healthCheck.path.isNone "health_check.path is required for http listeners"
  refuseIf (s.connectTimeoutMs.isSome || s.idleTimeoutMs.isSome)
    "connect_timeout_ms/idle_timeout_ms are tcp-only settings"
  s.routes.forM RouteConfig.validate
  s.canary.forM CanaryPoolConfig.validate
  refuseIf (99 < (s.canary.map fun pool => pool.percent).sum)
    ("the sum of every [[listeners.canary]] percent must be at most 99, " ++
      "leaving the listener's own backends at least 1%")

def validateTcp : Except String Unit := do
  refuseIf s.healthCheck.path.isSome
    "health_check.path is http-only — a tcp backend has no path to probe"
  refuseIf (s.forwardTimeoutMs.isSome || s.maxRequestBodyBytes.isSome || s.writeTimeoutMs.isSome ||
      s.websocketIdleTimeoutMs.isSome || s.responseBodyIdleTimeoutMs.isSome ||
      s.requestTimeoutMs.isSome || !s.retryOnStatus.isEmpty || s.requestBufferBytes.isSome ||
      s.slowStartMs.isSome)
    ("forward_timeout_ms/max_request_body_bytes/write_timeout_ms/websocket_idle_timeout_ms/" ++
      "response_body_idle_timeout_ms/request_timeout_ms/retry_on_status/request_buffer_bytes/" ++
      "slow_start_ms are http-only settings -- a tcp listener gets equivalent protection from " ++
      "idle_timeout_ms")
  refuseIf s.compression
    "compression is an http-only setting -- a tcp listener has no response to compress"
  refuseIf (!s.directResponses.isEmpty) "direct_responses is an http-only setting"
  refuseIf s.mirror.isSome "mirror is an http-only setting"
  refuseIf (!s.routes.isEmpty)
    "routes is an http-only setting -- a tcp listener has no path or Host to route on"
  refuseIf (!s.canary.isEmpty)
    ("canary is an http-only setting -- a tcp listener has no request identity " ++
      "to split traffic by")
  refuseIf s.sticky.isSome
    "sticky is an http-only setting -- a tcp listener has no cookie to set or read"
  refuseIf s.cache.isSome "cache is an http-only setting -- a tcp listener has no response to cache"
  refuseIf s.waf.isSome
    "waf is an http-only setting -- a tcp listener has no path or query to inspect"
  refuseIf s.retryBudget.isSome
    ("retry_budget is an http-only setting -- lb-tcp's own retry loop does not consult " ++
      "a listener-level budget")
  refuseIf s.upstreamLimits.isSome "upstream_limits is an http-only setting"
  refuseIf s.headers.isSome "headers is an http-only setting"
  refuseIf s.forwarded.isSome
    ("forwarded is an http-only setting -- use proxy_protocol to pass client addresses " ++
      "over tcp")
  refuseIf s.adaptiveConcurrency.isSome "adaptive_concurrency is an http-only setting"
  match s.rateLimit.key with
  | .header name =>
    .error ("rate_limit.key 'header:" ++ name ++ "' is http-only — a tcp listener has no " ++
      "headers to read, use 'source_ip'")
  | .sourceIp => .ok ()

/-- The names used with `backend_tls`: those of DNS and of the listener's own backends. -/
def validateBackendTls (crates : ConfigCrates) : Except String Unit :=
  match s.backendTls with
  | none => .ok ()
  | some _ => do
    s.dnsDiscovery.elim (.ok ()) fun dns => dns.validateServerName crates
    validateServerNames crates s.protocol s.backends ∅

def validate (crates : ConfigCrates) : Except String Unit := do
  s.validateSource
  s.dnsDiscovery.elim (.ok ()) DnsDiscoveryConfig.validate
  s.validateIds
  s.rateLimit.validate
  s.retryBudget.elim (.ok ()) RetryBudgetConfig.validate
  s.healthCheck.validate
  s.validateConnections
  s.validateTimeouts
  s.validateRetryOnStatus
  s.adaptiveConcurrency.elim (.ok ()) AdaptiveConcurrencyConfig.validate
  s.upstreamLimits.elim (.ok ()) UpstreamLimitsConfig.validate
  s.validateLimits
  match s.protocol with
  | .http => s.validateHttp crates
  | .tcp => s.validateTcp
  s.validateBackendTls crates
  s.tls.elim (.ok ()) fun tls => tls.validate s.protocol
  s.http2.elim (.ok ()) fun h2 => h2.validate s.protocol s.backendTls.isSome

end ListenerSettings

/-- The error of a listener names it. -/
def ListenerConfig.validate (crates : ConfigCrates)
    (l : ListenerConfig SocketAddr ListenerSettings) : Except ConfigError Unit :=
  match l.settings.validate crates with
  | .ok () => .ok ()
  | .error message => .error (.invalid ("listener '" ++ l.name ++ "': " ++ message))

/-! ## What is accepted -/

variable {crates : ConfigCrates}

lemma ListenerConfig.validate_eq_ok_iff {l : ListenerConfig SocketAddr ListenerSettings} :
    l.validate crates = .ok () ↔ l.settings.validate crates = .ok () := by
  rw [ListenerConfig.validate]
  cases l.settings.validate crates <;> simp

lemma named_of_validateServerNames : ∀ {backends : List BackendConfig}
    {firstUse : Table String String},
    validateServerNames crates .http backends firstUse = .ok () →
      (∀ b ∈ backends, ∃ name, b.serverName = some name ∧
        crates.isAuthority (name ++ ":" ++ portOf b.address) = true ∧ name ∉ firstUse) ∧
      (backends.map fun b => b.serverName).Nodup
  | [], _, _ => by simp
  | b :: rest, firstUse, h => by
    rw [validateServerNames] at h
    cases hn : b.serverName with
    | none =>
      rw [hn] at h
      cases h
    | some name =>
      rw [hn] at h
      dsimp only at h
      rw [ite_error_eq_ok_iff, ite_error_eq_ok_iff, if_pos rfl] at h
      obtain ⟨-, ha, h⟩ := h
      cases hf : firstUse.get name with
      | some firstId =>
        rw [hf] at h
        cases h
      | none =>
        rw [hf] at h
        obtain ⟨hna, hno⟩ := named_of_validateServerNames h
        constructor
        · refine forall_mem_cons.mpr ⟨⟨name, hn, by simpa using ha,
            AList.get_eq_none_iff.mp hf⟩, fun b' hb' => ?_⟩
          obtain ⟨name', hn', ha', hne⟩ := hna b' hb'
          refine ⟨name', hn', ha', fun hc => hne ?_⟩
          exact (AList.mem_insert _).mpr (Or.inr hc)
        · rw [map_cons, nodup_cons, hn]
          refine ⟨fun hm => ?_, hno⟩
          obtain ⟨b', hb', heq⟩ := mem_map.mp hm
          obtain ⟨name', hn', -, hne⟩ := hna b' hb'
          cases hn'.symm.trans heq
          exact hne ((AList.mem_insert _).mpr (Or.inl rfl))

lemma ListenerSettings.validateBackendTls_of_validate {s : ListenerSettings}
    (h : s.validate crates = .ok ()) : s.validateBackendTls crates = .ok () := by
  unfold ListenerSettings.validate at h
  simp only [seq_eq_ok_iff] at h
  obtain ⟨-, -, -, -, -, -, -, -, -, -, -, -, h⟩ := h
  cases hp : s.protocol with
  | http | tcp =>
    simp only [hp, seq_eq_ok_iff] at h
    exact h.2.1

lemma HealthCheckConfig.path_of_validateIn {hc : HealthCheckConfig} {kind : String}
    (h : hc.validateIn kind = .ok ()) : hc.path.isSome = true := by
  have hp := refuseIf_eq_ok_iff.mp (seq_eq_ok_iff.mp h).1
  simpa using hp

/-- **Every pool of an HTTP listener** has a path to probe. -/
lemma ListenerSettings.path_of_validate {s : ListenerSettings} (h : s.validate crates = .ok ())
    (hp : s.protocol = .http) :
    s.healthCheck.path.isSome = true ∧ (∀ r ∈ s.routes, r.healthCheck.path.isSome = true) ∧
      ∀ c ∈ s.canary, c.healthCheck.path.isSome = true := by
  have hh : s.validateHttp crates = .ok () := by
    unfold ListenerSettings.validate at h
    simp only [seq_eq_ok_iff, hp] at h
    obtain ⟨-, -, -, -, -, -, -, -, -, -, -, -, h, -⟩ := h
    exact h
  unfold ListenerSettings.validateHttp at hh
  simp only [seq_eq_ok_iff, forM_eq_ok_iff] at hh
  obtain ⟨-, -, -, hpa, -, hro, hca, -⟩ := hh
  refine ⟨by simpa using hpa, fun r hr => ?_, fun c hc => ?_⟩
  · exact HealthCheckConfig.path_of_validateIn (seq_eq_ok_iff.mp (hro r hr)).2
  · have hre := (seq_eq_ok_iff.mp (hca c hc)).2
    exact HealthCheckConfig.path_of_validateIn (seq_eq_ok_iff.mp hre).1

/-- **The names behind `backend_tls`**, as far as validation checks them. -/
theorem ListenerSettings.named_of_validate {s : ListenerSettings}
    (h : s.validate crates = .ok ()) (hp : s.protocol = .http)
    (ht : s.backendTls.isSome = true) :
    (∀ b ∈ s.backends, ∃ name, b.serverName = some name ∧
      crates.isAuthority (name ++ ":" ++ portOf b.address) = true) ∧
    (s.backends.map fun b => b.serverName).Nodup := by
  have hn := s.validateBackendTls_of_validate h
  obtain ⟨tls, ht⟩ := Option.isSome_iff_exists.mp ht
  rw [ListenerSettings.validateBackendTls, ht] at hn
  simp only [seq_eq_ok_iff, hp] at hn
  obtain ⟨hna, hno⟩ := named_of_validateServerNames hn.2
  refine ⟨fun b hb => ?_, hno⟩
  obtain ⟨name, hnam, ha, -⟩ := hna b hb
  exact ⟨name, hnam, ha⟩

lemma insertIds_eq_ok {duplicate : String} : ∀ {backends : List BackendConfig}
    {seen seen' : List String}, seen.Nodup → insertIds duplicate backends seen = .ok seen' →
      seen'.Nodup ∧ seen' = (backends.map fun b => b.id).reverse ++ seen
  | [], _, _, hs, h => by
    cases h
    exact ⟨hs, rfl⟩
  | b :: rest, _, _, hs, h => by
    rw [insertIds] at h
    split_ifs at h with hm
    obtain ⟨hn, heq⟩ := insertIds_eq_ok (nodup_cons.mpr ⟨hm, hs⟩) h
    exact ⟨hn, by simp [heq]⟩

lemma foldlM_insertIds_eq_ok {α : Type} {duplicate : String} {f : α → List BackendConfig} :
    ∀ {l : List α} {seen seen' : List String}, seen.Nodup →
      l.foldlM (fun seen x => insertIds duplicate (f x) seen) seen = .ok seen' →
        seen'.Nodup ∧ seen' = ((l.flatMap f).map fun b => b.id).reverse ++ seen
  | [], _, _, hs, h => by
    cases h
    exact ⟨hs, rfl⟩
  | x :: l, _, _, hs, h => by
    rw [foldlM_cons] at h
    obtain ⟨between, hb, h⟩ := bind_eq_ok_iff.mp h
    obtain ⟨hn, rfl⟩ := insertIds_eq_ok hs hb
    obtain ⟨hn', heq⟩ := foldlM_insertIds_eq_ok hn h
    exact ⟨hn', by simp [heq]⟩

/-- **Ids are unique** across the pools of an accepted listener. -/
lemma ListenerSettings.nodup_ids_of_validate {s : ListenerSettings}
    (h : s.validate crates = .ok ()) :
    ((s.backends ++ (s.routes.flatMap (fun r => r.backends) ++
      s.canary.flatMap fun p => p.backends)).map fun b => b.id).Nodup := by
  have hid : s.validateIds = .ok () := by
    unfold ListenerSettings.validate at h
    simp only [seq_eq_ok_iff] at h
    exact h.2.2.1
  unfold ListenerSettings.validateIds at hid
  obtain ⟨own, ho, hid⟩ := bind_eq_ok_iff.mp hid
  obtain ⟨routed, hr, hid⟩ := bind_eq_ok_iff.mp hid
  obtain ⟨all, ha, -⟩ := bind_eq_ok_iff.mp hid
  obtain ⟨hn, rfl⟩ := insertIds_eq_ok nodup_nil ho
  obtain ⟨hn, rfl⟩ := foldlM_insertIds_eq_ok hn hr
  obtain ⟨hn, rfl⟩ := foldlM_insertIds_eq_ok hn ha
  simpa [← reverse_append, nodup_reverse] using hn

lemma ListenerSettings.canary_of_validate {s : ListenerSettings}
    (h : s.validate crates = .ok ()) : (s.canary.map fun pool => pool.percent).sum ≤ 99 := by
  unfold ListenerSettings.validate at h
  simp only [seq_eq_ok_iff] at h
  obtain ⟨-, -, -, -, -, -, -, -, -, -, -, -, h⟩ := h
  cases hp : s.protocol with
  | http =>
    simp only [hp, seq_eq_ok_iff] at h
    have hh := h.1
    unfold ListenerSettings.validateHttp at hh
    simp only [seq_eq_ok_iff] at hh
    obtain ⟨-, -, -, -, -, -, -, hs⟩ := hh
    have hs := refuseIf_eq_ok_iff.mp hs
    rwa [decide_eq_false_iff_not, not_lt] at hs
  | tcp =>
    simp only [hp, seq_eq_ok_iff] at h
    have ht := h.1
    unfold ListenerSettings.validateTcp at ht
    simp only [seq_eq_ok_iff] at ht
    obtain ⟨-, -, -, -, -, -, hca, -⟩ := ht
    have he := refuseIf_eq_ok_iff.mp hca
    rw [Bool.not_eq_false', List.isEmpty_iff] at he
    rw [he]
    exact Nat.zero_le 99

lemma ListenerSettings.dns_of_validate {s : ListenerSettings} {dns : DnsDiscoveryConfig}
    (h : s.validate crates = .ok ()) (hd : s.dnsDiscovery = some dns)
    (ht : s.backendTls.isSome = true) :
    s.backends = [] ∧ ∃ name, dns.serverName = some name := by
  constructor
  · unfold ListenerSettings.validate at h
    simp only [seq_eq_ok_iff] at h
    have hs := h.1
    rw [ListenerSettings.validateSource, hd] at hs
    cases he : s.backends.isEmpty with
    | true => exact isEmpty_iff.mp he
    | false =>
      rw [he] at hs
      cases hs
  · have hna := s.validateBackendTls_of_validate h
    obtain ⟨tls, ht⟩ := Option.isSome_iff_exists.mp ht
    rw [ListenerSettings.validateBackendTls, ht, hd] at hna
    have hn := (seq_eq_ok_iff.mp hna).1
    rw [Option.elim_some, DnsDiscoveryConfig.validateServerName] at hn
    cases hse : dns.serverName with
    | none =>
      rw [hse] at hn
      cases hn
    | some name => exact ⟨name, rfl⟩

end LoadBalancer.Core
