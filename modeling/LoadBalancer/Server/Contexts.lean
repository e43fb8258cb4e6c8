import LoadBalancer.Cluster.Coordinator
import LoadBalancer.Core.Sections
import LoadBalancer.Proxy.ResponseHeaders

/-!
# What a listener runs with

A running listener has two parts (`crates/lb-server/src/wiring.rs`).  The `ListenerRuntime` belongs
to the accept loop and stays as it was built at startup.  The context belongs to the requests; it
can be swapped for a new one, and a request keeps the one it started with.

A context has settings, fixed when it is built, and live state.  `ListenerContext.view` is what can
be read of the settings.  The state carried over from a previous context does not show in it
(`view_buildListenerCore`).

Clients, connectors and acceptors are modelled by what they are built with; the contents of the
certificate files are not modelled.
-/

namespace LoadBalancer.Server

open LoadBalancer.Core LoadBalancer.Health List Except

/-- What building a listener takes from elsewhere. -/
structure Externals where
  crates : ConfigCrates
  scaledCooldown : HealthCheckConfig → ℕ → ℕ
  /-- `(rate_per_sec * window_secs as f64).ceil() as u64`. -/
  windowLimit : Float64 → ℕ → ℕ

/-! ## The accept loop -/

structure TlsAcceptor where
  config : TlsConfig
  alpn : List String

structure ConnectionLimits where
  capacity : ℕ
  perIp : ℕ

/-- What only the accept loop of an HTTP listener has. -/
structure HttpRuntime where
  headerReadTimeout : ℕ
  writeTimeout : ℕ
  compression : Bool
  http2 : Option Http2Config

structure ListenerRuntime where
  name : String
  listen : SocketAddr
  limits : ConnectionLimits
  proxyProtocol : Bool
  proxyProtocolTimeout : ℕ
  proxyProtocolTrustedCidrs : List String
  tls : Option TlsAcceptor
  clientTcpKeepalive : Option TcpKeepaliveConfig
  http : Option HttpRuntime

def Http2Config.default : Http2Config := ⟨none, none, none, none, none, none, none, none, none⟩

def alpnProtocols (s : ListenerSettings) : List String :=
  match s.protocol, s.http2Enabled with
  | .http, true => ["h2", "http/1.1"]
  | .http, false => ["http/1.1"]
  | .tcp, _ => []

def ListenerRuntime.build (l : ListenerEntry) (tls : Option TlsAcceptor) : ListenerRuntime :=
  let s := l.settings
  { name := l.name
    listen := l.listen
    limits := ⟨s.effectiveMaxConnections, s.effectiveMaxConnectionsPerIp⟩
    proxyProtocol := s.proxyProtocol
    proxyProtocolTimeout := s.proxyProtocolTimeout
    proxyProtocolTrustedCidrs := s.proxyProtocolTrustedCidrs
    tls := tls
    clientTcpKeepalive := s.clientTcpKeepalive
    http := match s.protocol with
      | .http => some
        { headerReadTimeout := s.headerReadTimeout
          writeTimeout := s.writeTimeout
          compression := s.compression
          http2 := if s.http2Enabled then some (s.http2.getD Http2Config.default) else none }
      | .tcp => none }

/-! ## The settings of a context -/

structure GcraConfig where
  ratePerSec : Float64
  burst : ℕ
  maxTrackedKeys : ℕ

structure CompiledRoute where
  pathPrefix : Option String
  host : Option String
  balancer : LoadBalancingStrategy

structure CompiledCanaryPool where
  percent : ℕ
  balancer : LoadBalancingStrategy

/-- What the client to the backends is built with, the pinned addresses apart. -/
structure ClientSettings where
  backendTls : Option BackendTlsConfig
  backendH2c : Bool
  backendTcpKeepalive : Option TcpKeepaliveConfig

/-- Clients for backends that share a name; each is built when its backend is first met. -/
structure PerBackendClients where
  serverName : String
  connector : BackendTlsConfig
  backendH2c : Bool
  backendTcpKeepalive : Option TcpKeepaliveConfig

structure DirectResponse where
  pathPrefix : Option String
  host : Option String
  status : ℕ
  body : String
  contentType : Option String
  redirect : Option String
  keepPath : Bool

structure ForwardedSettings where
  trustedCidrs : List String
  clientTls : Bool

structure AccessLog where
  logRequests : Bool
  sampleRate : Float64

/-- The settings of a `ProxyContext`; those of its pools and tables are in the `ListenerCore`. -/
structure HttpSettings where
  rateLimiter : GcraConfig
  balancer : LoadBalancingStrategy
  routes : List CompiledRoute
  canary : List CompiledCanaryPool
  sticky : Option Proxy.StickyRuntime
  cache : Option CacheConfig
  waf : Option WafMode
  wafInspectHeaders : Bool
  retryBudget : Option GcraConfig
  client : ClientSettings
  perBackendClient : Option PerBackendClients
  backendTls : Bool
  backendTlsConnector : Option BackendTlsConfig
  rateLimitKey : RateLimitKeySource
  forwardTimeout : ℕ
  requestTimeout : Option ℕ
  retryOnStatus : List ℕ
  requestBufferBytes : ℕ
  slowStart : Option ℕ
  mirror : Option MirrorConfig
  directResponses : List DirectResponse
  headers : Option Proxy.HeaderRewrite
  forwarded : Option ForwardedSettings
  maxRequestBodyBytes : ℕ
  websocketIdleTimeout : ℕ
  responseBodyIdleTimeout : ℕ
  backendTcpKeepalive : Option TcpKeepaliveConfig
  cluster : Option Cluster.ListenerCoordinator
  accessLog : AccessLog
  bodyReadTimeout : ℕ
  hstsMaxAgeSecs : Option ℕ

/-- The settings of a `TcpContext`. -/
structure TcpSettings where
  rateLimiter : GcraConfig
  balancer : LoadBalancingStrategy
  connectTimeout : ℕ
  idleTimeout : ℕ
  backendTls : Option BackendTlsConfig
  backendTcpKeepalive : Option TcpKeepaliveConfig
  cluster : Option Cluster.ListenerCoordinator

inductive ContextSettings
  | http (settings : HttpSettings)
  | tcp (settings : TcpSettings)

def ContextSettings.protocol : ContextSettings → Protocol
  | http _ => .http
  | tcp _ => .tcp

def rateLimiterConfig (s : ListenerSettings) : GcraConfig :=
  ⟨s.rateLimit.ratePerSec, s.rateLimit.burst, s.rateLimit.maxTrackedKeys⟩

/-- An error is a panic, with the message of the `expect` that failed. -/
def perBackendClient (s : ListenerSettings) (connector : Option BackendTlsConfig)
    (backendH2c : Bool) : Except String (Option PerBackendClients) :=
  match s.dnsDiscovery, connector with
  | some dns, some connector =>
    match dns.serverName with
    | some name => .ok (some ⟨name, connector, backendH2c, s.backendTcpKeepalive⟩)
    | none => .error "validated: server_name is required when backend_tls is set"
  | _, _ => .ok none

/-- A status that is none becomes 503, and a content type that is no header value is left out. -/
def DirectResponse.ofConfig (crates : ConfigCrates) (d : DirectResponseConfig) :
    DirectResponse where
  pathPrefix := d.pathPrefix
  host := d.host
  status := if 100 ≤ d.status ∧ d.status ≤ 999 then d.status else 503
  body := d.body.getD ""
  contentType := d.contentType.filter crates.isHeaderValue
  redirect := d.redirect
  keepPath := d.keepPath

section

variable (ext : Externals)

/-- The global cap is the sustained rate over the whole window, if this node is in a cluster. -/
def clusterCoordinator (clusterNode : Bool) (cluster : Option (ClusterConfig SocketAddr))
    (l : ListenerEntry) : Option Cluster.ListenerCoordinator :=
  match clusterNode, cluster with
  | true, some cc =>
    some ⟨l.name, max (ext.windowLimit l.settings.rateLimit.ratePerSec cc.windowSecs) 1⟩
  | _, _ => none

def httpSettings (s : ListenerSettings) (connector : Option BackendTlsConfig)
    (cluster : Option Cluster.ListenerCoordinator) (logging : LoggingConfig) :
    Except String HttpSettings := do
  let backendH2c := (s.http2.bind fun h2 => h2.backendH2c).getD false
  let perBackendClient ← perBackendClient s connector backendH2c
  return {
    rateLimiter := rateLimiterConfig s
    balancer := s.loadBalancing
    routes := s.routes.map fun r => ⟨r.pathPrefix, r.host, r.loadBalancing⟩
    canary := s.canary.map fun c => ⟨c.percent, c.loadBalancing⟩
    sticky := s.sticky.map fun st => ⟨st.cookieName, st.maxAgeSecs, s.tls.isSome⟩
    cache := s.cache
    waf := s.waf.map fun w => w.mode
    wafInspectHeaders := s.waf.any fun w => w.inspectHeaders
    retryBudget := s.retryBudget.map fun rb =>
      ⟨rb.ratePerSec, rb.burst, 1 + s.routes.length + s.canary.length⟩
    client := ⟨connector, backendH2c, s.backendTcpKeepalive⟩
    perBackendClient := perBackendClient
    backendTls := connector.isSome
    backendTlsConnector := connector
    rateLimitKey := s.rateLimit.key
    forwardTimeout := s.forwardTimeout
    requestTimeout := s.requestTimeoutMs
    retryOnStatus := s.retryOnStatus
    requestBufferBytes := s.effectiveRequestBufferBytes
    slowStart := s.slowStartMs
    mirror := s.mirror
    directResponses := s.directResponses.map (DirectResponse.ofConfig ext.crates)
    headers := s.headers.map (Proxy.HeaderRewrite.ofConfig ext.crates)
    forwarded := s.forwarded.map fun f => ⟨f.trustedCidrs, s.tls.isSome⟩
    maxRequestBodyBytes := s.effectiveMaxRequestBodyBytes
    websocketIdleTimeout := s.websocketIdleTimeout
    responseBodyIdleTimeout := s.responseBodyIdleTimeout
    backendTcpKeepalive := s.backendTcpKeepalive
    cluster := cluster
    accessLog := ⟨logging.logRequests, logging.sampleRate⟩
    bodyReadTimeout := s.bodyReadTimeout
    hstsMaxAgeSecs := (s.tls.map TlsConfig.effectiveHstsMaxAgeSecs).filter (0 < ·) }

def tcpSettings (s : ListenerSettings) (connector : Option BackendTlsConfig)
    (cluster : Option Cluster.ListenerCoordinator) : TcpSettings where
  rateLimiter := rateLimiterConfig s
  balancer := s.loadBalancing
  connectTimeout := s.connectTimeout
  idleTimeout := s.idleTimeout
  backendTls := connector
  backendTcpKeepalive := s.backendTcpKeepalive
  cluster := cluster

def contextSettings (s : ListenerSettings) (connector : Option BackendTlsConfig)
    (cluster : Option Cluster.ListenerCoordinator) (logging : LoggingConfig) :
    Except String ContextSettings :=
  match s.protocol with
  | .http => do return .http (← httpSettings ext s connector cluster logging)
  | .tcp => .ok (.tcp (tcpSettings s connector cluster))

/-! ## Contexts -/

/-- A context, with the section its backends are discovered by. -/
structure ListenerContext where
  settings : ContextSettings
  dnsDiscovery : Option DnsDiscoveryConfig
  core : ListenerCore

/-- `build_listener_core`; `clusterNode` tells whether this node is in a cluster. -/
def buildContext (l : ListenerEntry) (connector : Option BackendTlsConfig) (clusterNode : Bool)
    (cluster : Option (ClusterConfig SocketAddr)) (logging : LoggingConfig)
    (previous : Option PreviousListenerState) (nanos : ℕ) :
    Except String ListenerContext := do
  let settings ← contextSettings ext l.settings connector
    (clusterCoordinator ext clusterNode cluster l) logging
  return ⟨settings, l.settings.dnsDiscovery,
    buildListenerCore ext.scaledCooldown l previous nanos⟩

end

/-! ## Background tasks -/

inductive Task
  | rateLimitSweeper
  | cacheSweeper
  | dnsPoller (dns : DnsDiscoveryConfig)
  | outlierRounds
  | healthChecker (backend : BackendId) (path : Option String) (healthCheck : HealthCheckConfig)

def healthChecker (protocol : Protocol) (hc : HealthCheckConfig) (b : Backend) :
    Except String Task :=
  match protocol, hc.path with
  | .http, some path => .ok (.healthChecker b.id (some path) hc)
  | .http, none => .error "config validation guarantees http listeners have a health_check.path"
  | .tcp, _ => .ok (.healthChecker b.id none hc)

/-- One round for the whole pool if outliers are detected, and a checker for each backend. -/
def healthCheckers (protocol : Protocol) (hc : HealthCheckConfig) (backends : List Backend)
    (outlier : Bool) : Except String (List Task) := do
  let checkers ← backends.mapM (healthChecker protocol hc)
  return (if outlier then [.outlierRounds] else []) ++ checkers

def PoolCore.healthCheckers (p : PoolCore) : Except String (List Task) :=
  Server.healthCheckers .http p.healthCheck p.backends p.outlier.isSome

/-- The tasks of a listener: its own backends are the configured ones, DNS brings its own
checkers. -/
def spawnListenerTasks (l : ListenerEntry) (ctx : ListenerContext) :
    Except String (List Task) := do
  let s := l.settings
  let poller := s.dnsDiscovery.toList.map Task.dnsPoller
  let own ← healthCheckers ctx.settings.protocol s.healthCheck
    (s.backends.map (toBackend s.localZone)) ctx.core.main.outlier.isSome
  match ctx.settings with
  | .http settings => do
    let cacheSweeper := if settings.cache.isSome then [Task.cacheSweeper] else []
    let pools ← (ctx.core.routes ++ ctx.core.canary).mapM PoolCore.healthCheckers
    return .rateLimitSweeper :: cacheSweeper ++ poller ++ own ++ pools.flatten
  | .tcp _ => return .rateLimitSweeper :: poller ++ own

/-! ## What can be read of the settings -/

structure PoolView where
  healthCheck : HealthCheckConfig
  maxEjectedFraction : Option ℚ
  outlier : Option OutlierConfig

def PoolCore.view (p : PoolCore) : PoolView where
  healthCheck := p.healthCheck
  maxEjectedFraction := p.pool.maxEjectedFraction
  outlier := p.outlier.map fun detector => detector.config

def PoolCore.members (p : PoolCore) : List (BackendId × Option Backend) :=
  p.pool.inner.order.map fun id => (id, p.pool.backend id)

/-- The tables by backend id and by server name: of a breaker its settings, of a gate how many
requests it lets through, of an adaptive limit its bounds. -/
structure TablesView where
  serverNameAddresses : Table String SocketAddr
  breakers : BackendId → Option BreakerSettings
  metrics : BackendId → Option BackendMetrics
  gates : BackendId → Option ℕ
  limits : BackendId → Option AdaptiveConcurrencyConfig

def ListenerCore.tablesView (c : ListenerCore) : TablesView where
  serverNameAddresses := c.serverNameAddresses
  breakers id := (c.circuitBreakers.find id).map Breaker.settings
  metrics id := c.backendMetrics.find id
  gates id := (c.backendGates.find id).map BackendGate.capacity
  limits id := (c.adaptiveLimits.find id).map AdaptiveLimit.cfg

/-- Which backends the listener's own pool has, and what the tables have for them, is configured
only where DNS does not decide it. -/
structure CoreView where
  name : String
  main : PoolView
  routes : List (PoolView × List (BackendId × Option Backend))
  canary : List (PoolView × List (BackendId × Option Backend))
  upstreamLimits : Option UpstreamLimitsConfig
  adaptive : Option AdaptiveConcurrencyConfig
  configured : Option (List (BackendId × Option Backend) × TablesView)

def ListenerCore.view (discovered : Bool) (c : ListenerCore) : CoreView where
  name := c.name
  main := c.main.view
  routes := c.routes.map fun p => (p.view, p.members)
  canary := c.canary.map fun p => (p.view, p.members)
  upstreamLimits := c.upstreamLimits
  adaptive := c.adaptive
  configured := if discovered then none else some (c.main.members, c.tablesView)

/-- What tables hold is as the settings say.  A breaker has the settings of a route or canary pool
that its backend is in, or those of the listener's own pool: then no other pool has the backend,
unless DNS has found it under the same id.  Gates and limits are those that are configured. -/
structure CoreView.Furnishes (scaled : HealthCheckConfig → ℕ → ℕ) (v : CoreView)
    (tables : TablesView) : Prop where
  breakers : ∀ id, ∀ settings ∈ tables.breakers id,
    (∃ pool ∈ v.routes ++ v.canary, id ∈ pool.2.map Prod.fst ∧
      settings = (breakerFor scaled pool.1.healthCheck none).settings) ∨
    (settings = (breakerFor scaled v.main.healthCheck none).settings ∧
      ∀ pool ∈ v.routes ++ v.canary, id ∈ pool.2.map Prod.fst → ∃ addr, id = "dns:" ++ addr)
  gates : ∀ id, ∀ capacity ∈ tables.gates id, ∃ u ∈ v.upstreamLimits,
    capacity = u.maxActivePerBackend
  limits : ∀ id, ∀ cfg ∈ tables.limits id, v.adaptive = some cfg

/-- The tables are sound, and what they hold is as the settings say. -/
structure ListenerCore.Furnished (scaled : HealthCheckConfig → ℕ → ℕ) (c : ListenerCore) :
    Prop where
  breakersSound : c.circuitBreakers.Sound
  gatesSound : c.backendGates.Sound
  limitsSound : c.adaptiveLimits.Sound
  furnishes : (c.view true).Furnishes scaled c.tablesView

structure ListenerView where
  settings : ContextSettings
  dnsDiscovery : Option DnsDiscoveryConfig
  core : CoreView

def ListenerContext.view (ctx : ListenerContext) : ListenerView where
  settings := ctx.settings
  dnsDiscovery := ctx.dnsDiscovery
  core := ctx.core.view ctx.dnsDiscovery.isSome

/-! ### The state carried over does not show -/

variable (hc : HealthCheckConfig) (previous : Option PreviousListenerState) (nanos : ℕ)

lemma view_buildPool (backends backends' : List Backend) :
    (buildPool backends hc previous nanos).view = (buildPool backends' hc none 0).view := by
  have ho : ∀ bs : List Backend, (buildOutlierDetector bs hc).map (fun d => d.config)
      = (buildOutlierDetector backends' hc).map fun d => d.config := by
    intro bs
    rw [buildOutlierDetector, buildOutlierDetector, Option.map_map, Option.map_map]
    rfl
  rw [PoolCore.view, PoolCore.view, maxEjectedFraction_buildPool, maxEjectedFraction_buildPool]
  exact congrArg (PoolView.mk hc _) (ho backends)

lemma members_buildPool (backends : List Backend) :
    (buildPool backends hc previous nanos).members
      = (buildPool backends hc none 0).members := by
  rw [PoolCore.members, PoolCore.members, order_buildPool, order_buildPool]
  exact map_congr_left fun id _ =>
    congrArg (Prod.mk id) ((backend_buildPool ..).trans (backend_buildPool ..).symm)

section

variable (scaled : HealthCheckConfig → ℕ → ℕ) (l : ListenerEntry)

lemma map_settings_breakerEntries (pools : List PoolCore) :
    (pools.flatMap (breakerEntries scaled previous)).map (fun e => (e.1, e.2.settings))
      = (pools.map fun p => (p.backends, p.healthCheck)).flatMap fun q =>
          q.1.map fun b => (b.id, (breakerFor scaled q.2 none).settings) := by
  rw [map_flatMap, flatMap_map]
  refine congrArg (List.flatMap · pools) (funext fun p => ?_)
  rw [breakerEntries, map_map]
  rfl

lemma tablesView_buildListenerCore (hd : l.settings.dnsDiscovery = none) :
    (buildListenerCore scaled l previous nanos).tablesView
      = (buildListenerCore scaled l none 0).tablesView := by
  set c := buildListenerCore scaled l previous nanos with hc
  set c₀ := buildListenerCore scaled l none 0 with hc₀
  have hpo : c.pools.map (fun p => (p.backends, p.healthCheck))
      = c₀.pools.map fun p => (p.backends, p.healthCheck) := by
    simp only [hc, hc₀, buildListenerCore, ListenerCore.pools, buildPool, map_cons,
      map_append, map_map, Function.comp_def, poolBackends_of_static hd]
  have ha : c.allBackends = c₀.allBackends :=
    (allBackends_buildListenerCore scaled hd previous nanos).trans
      (allBackends_buildListenerCore scaled hd none 0).symm
  have hb : ∀ id, (c.circuitBreakers.find id).map Breaker.settings
      = (c₀.circuitBreakers.find id).map Breaker.settings := by
    refine BackendMap.Alike.find_eq (.collect ?_)
    rw [map_settings_breakerEntries, map_settings_breakerEntries]
    exact congrArg (List.flatMap _) hpo
  have hp : c.serverNameAddresses = c₀.serverNameAddresses := congrArg pinnedAddresses ha
  have hm : c.backendMetrics = c₀.backendMetrics := congrArg (fun bs : List Backend =>
      BackendMap.collect (bs.map fun b : Backend => (b.id, (⟨l.name, b.id⟩ : BackendMetrics)))) ha
  have hg : c.backendGates = c₀.backendGates :=
    congrArg (fun bs : List Backend => BackendMap.collectIf l.settings.upstreamLimits
      (bs.map fun b : Backend => b.id) fun u => BackendGate.new u.maxActivePerBackend) ha
  have hl : c.adaptiveLimits = c₀.adaptiveLimits :=
    congrArg (fun bs : List Backend => BackendMap.collectIf l.settings.adaptiveConcurrency
      (bs.map fun b : Backend => b.id) AdaptiveLimit.new) ha
  rw [ListenerCore.tablesView, ListenerCore.tablesView, hp, hm, hg, hl,
    funext hb]

lemma exists_of_mem_breakerEntries {pool : PoolCore} {id : BackendId} {breaker : Breaker}
    (h : (id, breaker) ∈ breakerEntries scaled previous pool) :
    id ∈ pool.backends.map (fun b => b.id) ∧
      breaker.settings = (breakerFor scaled pool.healthCheck none).settings := by
  obtain ⟨b, hb, heq⟩ := mem_map.mp h
  obtain ⟨rfl, rfl⟩ := Prod.mk.inj heq
  exact ⟨mem_map_of_mem hb, rfl⟩

/-- **The tables that are built** hold what the settings say. -/
lemma furnished_buildListenerCore :
    (buildListenerCore scaled l previous nanos).Furnished scaled := by
  set c := buildListenerCore scaled l previous nanos with hc
  -- the pools of a listener list the backends they are built of
  have hids : ∀ pool ∈ c.routes ++ c.canary,
      pool.members.map Prod.fst = pool.backends.map fun b => b.id := by
    intro pool hp
    obtain ⟨backends, hc, rfl⟩ := exists_buildPool_of_mem_pools (mem_cons_of_mem _ hp)
    rw [PoolCore.members, map_map, order_buildPool, map_map]
    rfl
  have hv : (c.view true).routes ++ (c.view true).canary =
      (c.routes ++ c.canary).map fun p => (p.view, p.members) := map_append.symm
  refine ⟨.collect _, .collectIf .., .collectIf .., ?_, ?_, ?_⟩
  · intro id settings hs
    obtain ⟨breaker, hf, rfl⟩ := Option.map_eq_some_iff.mp hs
    have he : c.circuitBreakers = .collect (breakerEntries scaled previous c.main ++
        (c.routes ++ c.canary).flatMap (breakerEntries scaled previous)) := rfl
    rw [he, BackendMap.find_collect_append, Option.or_eq_some_iff] at hf
    rw [hv]
    rcases hf with ho | ⟨hn, hm⟩
    · obtain ⟨pool, hp, hme⟩ := mem_flatMap.mp (BackendMap.mem_of_find_collect ho)
      obtain ⟨hid, hbr⟩ := exists_of_mem_breakerEntries previous scaled hme
      exact .inl ⟨_, mem_map_of_mem hp, by rwa [hids pool hp], hbr⟩
    · refine .inr ⟨(exists_of_mem_breakerEntries previous scaled
        (BackendMap.mem_of_find_collect hm)).2, fun q hq hid => ?_⟩
      -- a backend of another pool would have its breaker from there
      obtain ⟨pool, hp, rfl⟩ := mem_map.mp hq
      rw [hids pool hp] at hid
      obtain ⟨b, hb, rfl⟩ := mem_map.mp hid
      have hso := (BackendMap.contains_collect ((c.routes ++ c.canary).flatMap
        (breakerEntries scaled previous))).mpr (mem_map.mpr ⟨_, mem_flatMap.mpr ⟨pool, hp,
          mem_map_of_mem (f := fun b => (b.id, _)) hb⟩, rfl⟩)
      rw [BackendMap.contains_iff_find, hn] at hso
      cases hso
  · intro id capacity hca
    obtain ⟨gate, hf, rfl⟩ := Option.map_eq_some_iff.mp hca
    exact BackendMap.find_collectIf (P := fun u gate => gate.capacity = u.maxActivePerBackend)
      (fun u => rfl) hf
  · intro id cfg hcf
    obtain ⟨limit, hf, rfl⟩ := Option.map_eq_some_iff.mp hcf
    obtain ⟨cfg, hcf, heq⟩ := BackendMap.find_collectIf
      (P := fun cfg (limit : AdaptiveLimit) => limit.cfg = cfg) (fun cfg => rfl) hf
    exact heq ▸ hcf

/-- **What is carried over does not show** in the settings. -/
lemma view_buildListenerCore :
    (buildListenerCore scaled l previous nanos).view l.settings.dnsDiscovery.isSome
      = (buildListenerCore scaled l none 0).view l.settings.dnsDiscovery.isSome := by
  set c := buildListenerCore scaled l previous nanos with hc
  set c₀ := buildListenerCore scaled l none 0 with hc₀
  have hp : ∀ backends (hc : HealthCheckConfig),
      ((buildPool backends hc previous nanos).view,
        (buildPool backends hc previous nanos).members)
      = ((buildPool backends hc none 0).view, (buildPool backends hc none 0).members) :=
    fun backends hc => congrArg₂ Prod.mk (view_buildPool hc previous nanos backends backends)
      (members_buildPool hc previous nanos backends)
  have hm : c.main.view = c₀.main.view := view_buildPool ..
  have hr : c.routes.map (fun p => (p.view, p.members))
      = c₀.routes.map fun p => (p.view, p.members) := by
    simp only [hc, hc₀, buildListenerCore, map_map, Function.comp_def, hp]
  have hca : c.canary.map (fun p => (p.view, p.members))
      = c₀.canary.map fun p => (p.view, p.members) := by
    simp only [hc, hc₀, buildListenerCore, map_map, Function.comp_def, hp]
  have hco : l.settings.dnsDiscovery = none →
      (c.main.members, c.tablesView) = (c₀.main.members, c₀.tablesView) := by
    intro hd
    refine congrArg₂ Prod.mk ?_
      (tablesView_buildListenerCore previous nanos scaled l hd)
    have hb : poolBackends l.settings previous = poolBackends l.settings none :=
      (poolBackends_of_static hd previous).trans (poolBackends_of_static hd none).symm
    exact (members_buildPool l.settings.healthCheck previous nanos _).trans
      (congrArg (fun bs => (buildPool bs l.settings.healthCheck none 0).members) hb)
  rw [ListenerCore.view, ListenerCore.view, hm, hr, hca]
  cases hd : l.settings.dnsDiscovery with
  | none =>
    rw [hco hd]
    rfl
  | some dns => rfl

end

/-! ## Accepted listeners are built -/

variable {ext : Externals} {l : ListenerEntry}

lemma protocol_of_buildContext {connector : Option BackendTlsConfig} {clusterNode : Bool}
    {cluster : Option (ClusterConfig SocketAddr)} {logging : LoggingConfig} {ctx : ListenerContext}
    (h : buildContext ext l connector clusterNode cluster logging previous nanos = .ok ctx) :
    ctx.settings.protocol = l.settings.protocol := by
  obtain ⟨settings, hs, h⟩ := bind_eq_ok_iff.mp h
  cases h
  unfold contextSettings at hs
  cases hp : l.settings.protocol with
  | tcp =>
    rw [hp] at hs
    cases hs
    rfl
  | http =>
    rw [hp] at hs
    obtain ⟨http, -, hs⟩ := bind_eq_ok_iff.mp hs
    cases hs
    rfl

lemma furnished_of_buildContext {connector : Option BackendTlsConfig} {clusterNode : Bool}
    {cluster : Option (ClusterConfig SocketAddr)} {logging : LoggingConfig} {ctx : ListenerContext}
    {previous : Option PreviousListenerState} {nanos : ℕ}
    (h : buildContext ext l connector clusterNode cluster logging previous nanos = .ok ctx) :
    ctx.core.Furnished ext.scaledCooldown := by
  obtain ⟨settings, -, h⟩ := bind_eq_ok_iff.mp h
  cases h
  exact furnished_buildListenerCore previous nanos ext.scaledCooldown l

lemma exists_perBackendClient (h : l.settings.validate ext.crates = .ok ()) (backendH2c : Bool) :
    ∃ clients, perBackendClient l.settings l.settings.backendTls backendH2c = .ok clients := by
  have ht := l.settings.validateBackendTls_of_validate h
  unfold perBackendClient
  cases hco : l.settings.backendTls with
  | none =>
    cases l.settings.dnsDiscovery with
    | none | some => exact ⟨none, rfl⟩
  | some connector =>
    cases hd : l.settings.dnsDiscovery with
    | none => exact ⟨none, rfl⟩
    | some dns =>
      rw [ListenerSettings.validateBackendTls, hco, hd] at ht
      have hn := (seq_eq_ok_iff.mp ht).1
      cases hs : dns.serverName with
      | none =>
        simp [DnsDiscoveryConfig.validateServerName, hs] at hn
      | some name =>
        dsimp only
        rw [hs]
        exact ⟨_, rfl⟩

section

variable (h : l.settings.validate ext.crates = .ok ()) (clusterNode : Bool)
  (cluster : Option (ClusterConfig SocketAddr)) (logging : LoggingConfig)

include h

lemma exists_contextSettings (coordinator : Option Cluster.ListenerCoordinator) :
    ∃ settings, contextSettings ext l.settings l.settings.backendTls coordinator logging
        = .ok settings ∧ settings.protocol = l.settings.protocol := by
  unfold contextSettings
  cases hp : l.settings.protocol with
  | tcp => exact ⟨_, rfl, rfl⟩
  | http =>
    obtain ⟨clients, hcl⟩ := exists_perBackendClient h
      ((l.settings.http2.bind fun h2 => h2.backendH2c).getD false)
    unfold httpSettings
    dsimp only
    rw [hcl]
    exact ⟨_, rfl, rfl⟩

/-- **A context** can be built, with the same settings whatever is carried over. -/
lemma exists_buildContext : ∃ settings : ContextSettings, settings.protocol = l.settings.protocol ∧
    ∀ previous nanos, buildContext ext l l.settings.backendTls clusterNode cluster logging
        previous nanos
      = .ok ⟨settings, l.settings.dnsDiscovery,
          buildListenerCore ext.scaledCooldown l previous nanos⟩ := by
  obtain ⟨settings, hs, hp⟩ := exists_contextSettings h logging
    (clusterCoordinator ext clusterNode cluster l)
  refine ⟨settings, hp, fun previous nanos => ?_⟩
  rw [buildContext, hs]
  rfl

omit h in
lemma exists_healthCheckers {protocol : Protocol} {hc : HealthCheckConfig}
    (hp : protocol = .http → hc.path.isSome = true) (backends : List Backend)
    (outlier : Bool) : ∃ tasks, healthCheckers protocol hc backends outlier = .ok tasks := by
  have hche : ∀ b, ∃ task, healthChecker protocol hc b = .ok task := by
    intro b
    unfold healthChecker
    cases protocol with
    | tcp => exact ⟨_, rfl⟩
    | http =>
      obtain ⟨path, hs⟩ := Option.isSome_iff_exists.mp (hp rfl)
      rw [hs]
      exact ⟨_, rfl⟩
  obtain ⟨checkers, hch⟩ := exists_mapM_eq_ok fun b (_ : b ∈ backends) => hche b
  rw [healthCheckers, hch]
  exact ⟨_, rfl⟩

lemma exists_spawnListenerTasks {settings : ContextSettings}
    (hpr : settings.protocol = l.settings.protocol)
    (previous : Option PreviousListenerState) (nanos : ℕ) :
    ∃ tasks, spawnListenerTasks l ⟨settings, l.settings.dnsDiscovery,
      buildListenerCore ext.scaledCooldown l previous nanos⟩ = .ok tasks := by
  have hpa := l.settings.path_of_validate h
  obtain ⟨own, ho⟩ := exists_healthCheckers (fun hh => (hpa (hpr ▸ hh)).1)
    (l.settings.backends.map (toBackend l.settings.localZone))
    (buildListenerCore ext.scaledCooldown l previous nanos).main.outlier.isSome
  unfold spawnListenerTasks
  cases settings with
  | tcp settings => exact ⟨_, bind_eq_ok_iff.mpr ⟨own, ho, rfl⟩⟩
  | http settings =>
    obtain ⟨-, hro, hca⟩ := hpa hpr.symm
    set core := buildListenerCore ext.scaledCooldown l previous nanos with hco
    have hpoo : ∀ p ∈ core.routes ++ core.canary, ∃ tasks, p.healthCheckers = .ok tasks := by
      intro p hp
      refine exists_healthCheckers (fun _ => ?_) _ _
      rcases mem_append.mp hp with hp | hp
      · obtain ⟨r, hr, rfl⟩ := mem_map.mp hp
        exact hro r hr
      · obtain ⟨c, hc, rfl⟩ := mem_map.mp hp
        exact hca c hc
    obtain ⟨pools, hpo⟩ := exists_mapM_eq_ok hpoo
    exact ⟨_, bind_eq_ok_iff.mpr ⟨own, ho, bind_eq_ok_iff.mpr ⟨pools, hpo, rfl⟩⟩⟩

end

end LoadBalancer.Server
