import LoadBalancer.Server.Contexts

/-!
# Reloading the configuration

`build_app` (`crates/lb-server/src/wiring.rs`) starts a process from a configuration, and
`apply_reload` (`crates/lb-server/src/reload.rs`) brings a running one in line with a new
configuration.  A reload refuses what the accept loops would have to be rebuilt for.

What can fail comes first: the comparison with the current configuration, and the files of the
connectors.  Then the new contexts and tasks are built, with state carried over from the contexts
that are live at that time; they are swapped in under the lock of the tasks, and last the
configuration is stored under a lock of its own.

Loading certificate files may or may not succeed; a message of `expect` or `unreachable!` is a
panic.
-/

namespace LoadBalancer.Server

open LoadBalancer.Core LoadBalancer.Health

/-! ## The state of a process -/

/-- Whether certificate files can be loaded. -/
structure TlsFiles where
  bootstrap : CertificateConfig → String → Except String Unit
  acceptor : TlsConfig → Except String Unit
  connector : BackendTlsConfig → Except String Unit
  peer : PeerTlsConfig → Except String Unit

/-- What a reload works on.  The contexts are those that the accept loops hand to requests. -/
structure ReloadState where
  clusterNode : Bool
  listeners : Table String ListenerContext
  tasks : Table String (List Task)
  config : AppConfig

structure WiredApp where
  runtimes : List ListenerRuntime
  reload : ReloadState

/-! ## Starting -/

def tlsAcceptor (l : ListenerEntry) : Option TlsAcceptor :=
  l.settings.tls.map fun tls => ⟨tls, alpnProtocols l.settings⟩

def ensureBootstrap (files : TlsFiles) (l : ListenerEntry) (cert : CertificateConfig) :
    Except String Unit :=
  match cert.acme, cert.hostnames with
  | none, _ => .ok ()
  | some _, [] => .error "index out of bounds: the len is 0 but the index is 0"
  | some _, host :: _ => (files.bootstrap cert host).mapError fun err =>
      "listener '" ++ l.name ++ "' could not write a bootstrap certificate for '" ++ cert.name ++
        "': " ++ err

def buildTlsAcceptor (files : TlsFiles) (l : ListenerEntry) :
    Except String (Option TlsAcceptor) :=
  match l.settings.tls with
  | none => .ok none
  | some tls => do
    tls.certificates.forM (ensureBootstrap files l)
    (files.acceptor tls).mapError fun err =>
      "listener '" ++ l.name ++ "' could not load its TLS material: " ++ err
    return some ⟨tls, alpnProtocols l.settings⟩

def buildBackendConnector (files : TlsFiles) (l : ListenerEntry) :
    Except String (Option BackendTlsConfig) :=
  match l.settings.backendTls with
  | none => .ok none
  | some tls => do
    (files.connector tls).mapError fun err =>
      "listener '" ++ l.name ++ "' could not load its backend TLS trust roots: " ++ err
    return some tls

/-- A listener as `build_app` makes it. -/
structure BuiltListener where
  runtime : ListenerRuntime
  context : ListenerContext
  tasks : List Task

section

variable (ext : Externals) (files : TlsFiles) (cfg : AppConfig)

def buildPeerTls : Except String Unit :=
  match cfg.cluster.bind fun cluster => cluster.tls with
  | none => .ok ()
  | some tls => (files.peer tls).mapError fun err =>
      "cluster could not load its peer TLS material: " ++ err

def buildListener (clusterNode : Bool) (l : ListenerEntry) (tls : Option TlsAcceptor)
    (connector : Option BackendTlsConfig) : Except String BuiltListener := do
  let context ← buildContext ext l connector clusterNode cfg.cluster cfg.sections.logging none 0
  let tasks ← spawnListenerTasks l context
  return ⟨.build l tls, context, tasks⟩

def buildApp (clusterSecret : Bool) : Except String WiredApp := do
  let acceptors ← cfg.listeners.mapM (buildTlsAcceptor files)
  let connectors ← cfg.listeners.mapM (buildBackendConnector files)
  let clusterNode := cfg.cluster.isSome && clusterSecret
  buildPeerTls files cfg
  let built ← ((cfg.listeners.zip acceptors).zip connectors).mapM fun x =>
    buildListener ext cfg clusterNode x.1.1 x.1.2 x.2
  return {
    runtimes := built.map fun b => b.runtime
    reload := {
      clusterNode := clusterNode
      listeners := (built.map fun b => (b.runtime.name, b.context)).foldl
        (fun t e => t.insert e.1 e.2) ∅
      tasks := (built.map fun b => (b.runtime.name, b.tasks)).foldl
        (fun t e => t.insert e.1 e.2) ∅
      config := cfg } }

end

/-! ## The state carried over -/

namespace PreviousListenerState

def empty (breakers : BackendMap Breaker) : PreviousListenerState where
  manuallyDrained := []
  health := ∅
  circuitBreakers := breakers.inner.mapValues fun r => (breakers.arena.read r).state
  dnsBackends := none

def collectBackend (pool : BackendPool) (st : PreviousListenerState) (id : BackendId) :
    PreviousListenerState :=
  { st with
    manuallyDrained :=
      if pool.isManuallyDrained id then id :: st.manuallyDrained else st.manuallyDrained
    health := st.health.insert id ⟨pool.isActiveHealthy id, pool.isAwaitingFirstProbe id⟩ }

def collectPool (st : PreviousListenerState) (pool : PoolCore) : PreviousListenerState :=
  pool.pool.allBackendIds.foldl (collectBackend pool.pool) st

def poolBackends (pool : BackendPool) : List Backend := pool.allBackendIds.filterMap pool.backend

/-- `from_http` and `from_tcp`. -/
def ofContext (ctx : ListenerContext) (carryDnsBackends : Bool) : PreviousListenerState :=
  let pools := match ctx.settings with
    | .http _ => ctx.core.pools
    | .tcp _ => [ctx.core.main]
  let st := pools.foldl collectPool (empty ctx.core.circuitBreakers)
  if carryDnsBackends then { st with dnsBackends := some (poolBackends ctx.core.main.pool) } else st

end PreviousListenerState

/-! ## Reloading -/

inductive ReloadOutcome
  | applied (changed : List String)
  | refused (message : String)
  | panicked (message : String)
  deriving DecidableEq

def refuseReload (c : Bool) (message : String) : Except ReloadOutcome Unit :=
  if c then .error (.refused message) else .ok ()

def compareSections (new current : AppConfig) : Except ReloadOutcome Unit := do
  refuseReload (new.sections.server != current.sections.server)
    "[server] changed -- requires a restart"
  refuseReload (new.sections.admin != current.sections.admin)
    "[admin] changed -- requires a restart"
  refuseReload (new.cluster != current.cluster) "[cluster] changed -- requires a restart"
  refuseReload (new.sections.logging != current.sections.logging)
    "[logging] changed -- requires a restart"
  refuseReload (new.sections.tracing != current.sections.tracing)
    "[tracing] changed -- requires a restart"

def identities (cfg : AppConfig) : Table String (Protocol × SocketAddr) :=
  (cfg.listeners.map fun l => (l.name, l.settings.protocol, l.listen)).foldl
    (fun t e => t.insert e.1 e.2) ∅

def restartOnlyFieldsChanged (old new : ListenerSettings) : Bool :=
  old.tls != new.tls || old.backendTls != new.backendTls || old.http2 != new.http2 ||
    old.maxConnections != new.maxConnections ||
    old.maxConnectionsPerIp != new.maxConnectionsPerIp ||
    old.headerReadTimeoutMs != new.headerReadTimeoutMs ||
    old.writeTimeoutMs != new.writeTimeoutMs || old.compression != new.compression ||
    old.proxyProtocol != new.proxyProtocol ||
    old.proxyProtocolTimeoutMs != new.proxyProtocolTimeoutMs ||
    old.proxyProtocolTrustedCidrs != new.proxyProtocolTrustedCidrs ||
    old.clientTcpKeepalive != new.clientTcpKeepalive

def changedListeners (current : List ListenerEntry) :
    List ListenerEntry → Except ReloadOutcome (List ListenerEntry)
  | [] => .ok []
  | l :: rest =>
    match current.find? fun old => old.name = l.name with
    | none => .error (.panicked
        "checked above: every name in new_config also exists in current_config")
    | some old => do
      refuseReload (restartOnlyFieldsChanged old.settings l.settings)
        ("listener '" ++ l.name ++ "': tls, backend_tls, http2, connection limits, " ++
          "write_timeout_ms, compression, proxy_protocol, proxy_protocol_timeout_ms, " ++
          "proxy_protocol_trusted_cidrs, or client_tcp_keepalive changed -- requires a restart")
      let changed ← changedListeners current rest
      return if old != l then l :: changed else changed

/-- What has to be rebuilt. -/
def planReload (new current : AppConfig) : Except ReloadOutcome (List ListenerEntry) := do
  compareSections new current
  refuseReload (!(identities current).sameEntries (identities new))
    "adding, removing, or re-addressing a listener requires a restart"
  changedListeners current.listeners new.listeners

def resolveConnector (files : TlsFiles) (l : ListenerEntry) :
    Except ReloadOutcome (Option BackendTlsConfig) :=
  (buildBackendConnector files l).mapError fun err => .refused
    ("listener '" ++ l.name ++ "': " ++ err ++
      " -- reload refused, still serving the previous config")

/-- A listener that is ready to be swapped in. -/
structure Prepared where
  name : String
  context : ListenerContext
  tasks : List Task

section

variable (ext : Externals) (files : TlsFiles) (new current : AppConfig) (nanos : ℕ)

def prepareListener (st : ReloadState) (l : ListenerEntry)
    (connector : Option BackendTlsConfig) : Except ReloadOutcome Prepared := do
  let dns := l.settings.dnsDiscovery
  let carryDnsBackends := dns.isSome && current.listeners.any fun old =>
    old.name = l.name && old.settings.dnsDiscovery = dns
  let previous := (st.listeners.get l.name).map fun ctx =>
    PreviousListenerState.ofContext ctx carryDnsBackends
  let context ← (buildContext ext l connector st.clusterNode new.cluster new.sections.logging
    previous nanos).mapError .panicked
  let tasks ← (spawnListenerTasks l context).mapError .panicked
  return ⟨l.name, context, tasks⟩

/-- The connectors of all changed listeners come before the first context. -/
def prepareReload (st : ReloadState) (changed : List ListenerEntry) :
    Except ReloadOutcome (List Prepared) := do
  let connectors ← changed.mapM (resolveConnector files)
  (changed.zip connectors).mapM fun x => prepareListener ext new current nanos st x.1 x.2

/-- The swaps, under the lock of the tasks.  A panic would leave the swaps before it. -/
def swapContexts : List Prepared → ReloadState → Except ReloadOutcome (List String) × ReloadState
  | [], st => (.ok [], st)
  | p :: rest, st =>
    if (st.listeners.get p.name).map (fun ctx => ctx.settings.protocol)
        = some p.context.settings.protocol then
      let swapped := swapContexts rest { st with
        listeners := st.listeners.insert p.name p.context
        tasks := st.tasks.insert p.name p.tasks }
      (swapped.1.map (p.name :: ·), swapped.2)
    else
      (.error (.panicked ("internal error: entered unreachable code: listener identity " ++
        "(name -> protocol) was already confirmed unchanged above")), st)

def applyReload (st : ReloadState) : ReloadOutcome × ReloadState :=
  match planReload new current with
  | .error outcome => (outcome, st)
  | .ok [] => (.applied [], st)
  | .ok changed =>
    match prepareReload ext files new current nanos st changed with
    | .error outcome => (outcome, st)
    | .ok prepared =>
      match swapContexts prepared st with
      | (.error outcome, st) => (outcome, st)
      | (.ok names, st) => (.applied names, { st with config := new })

end

end LoadBalancer.Server
