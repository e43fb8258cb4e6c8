import LoadBalancer.Core.Drained
import LoadBalancer.Server.Contexts
import LoadBalancer.Server.DnsRuntime

/-!
# Clients for backends that share a name

The backends that DNS finds share one `server_name`, and a client keeps connections by name.  So a
listener with `dns_discovery` and `backend_tls` has a client for each backend
(`crates/lb-proxy/src/per_backend.rs`), built when traffic or a probe first asks for it; it pins
the name of the DNS section to the address of the backend.

Traffic to routes and canary pools asks the same table, by backend id, and is addressed by names
that these clients do not pin.
-/

namespace LoadBalancer.Core.BackendPool

variable {p : BackendPool} {P : Backend → Prop}

/-- All backends the pool has had satisfy `P`. -/
structure Holds (P : Backend → Prop) (p : BackendPool) : Prop where
  listing : p.Listing
  all : ∀ r < p.arena.next, P (p.arena.read r).backend

lemma Holds.of_backend (h : p.Holds P) {id : BackendId} {b : Backend}
    (hb : p.backend id = some b) : P b ∧ b.id = id := by
  obtain ⟨r, hg, rfl⟩ := Option.map_eq_some_iff.mp hb
  obtain ⟨hlt, -, hid⟩ := h.listing.indexed.sound id r hg
  exact ⟨h.all r hlt, hid⟩

variable {backends : List Backend}

lemma holds_withMaxEjectedFraction (h : ∀ b ∈ backends, P b) (fraction : Option ℚ) :
    (withMaxEjectedFraction backends fraction).Holds P :=
  ⟨listing_withMaxEjectedFraction backends fraction,
    collect_startup_forall (Q := fun s => P s.backend) backends h (by simp [Arena.empty])⟩

lemma FlagWrite.holds {p' : BackendPool} (h : FlagWrite p p') (hp : p.Holds P) : p'.Holds P := by
  refine ⟨h.listing hp.listing, fun r hr => ?_⟩
  rw [h.backend_eq]
  exact hp.all r (h.next_eq ▸ hr)

lemma Holds.applyResolved (hp : p.Holds P) (h : ∀ b ∈ backends, P b) :
    (p.applyResolved backends).Holds P := by
  refine ⟨hp.listing.applyResolved backends, ?_⟩
  unfold BackendPool.applyResolved
  split_ifs
  · exact hp.all
  · exact collect_resolved_forall (Q := fun s => P s.backend) p backends
      (fun b hb => ⟨h b hb, fun _ _ => h b hb⟩) hp.all

lemma Listing.exists_backend (h : p.Listing) {id : BackendId} (hid : id ∈ p.allBackendIds) :
    ∃ b, p.backend id = some b :=
  Option.isSome_iff_exists.mp (isSome_backend_iff.mpr (h.indexed.listed id hid))

end LoadBalancer.Core.BackendPool

namespace LoadBalancer.Proxy

open LoadBalancer.Core LoadBalancer.Server List

/-! ## Clients -/

/-- A client with what it is built with. -/
structure ProxyClient where
  settings : ClientSettings
  resolver : PinnedResolver

def buildClient (backendTls : Option BackendTlsConfig) (table : Table String SocketAddr)
    (backendH2c : Bool) (backendTcpKeepalive : Option TcpKeepaliveConfig) : ProxyClient :=
  ⟨⟨backendTls, backendH2c, backendTcpKeepalive⟩, ⟨table⟩⟩

/-- `PerBackendClients` with the clients built so far. -/
structure BackendClients where
  settings : PerBackendClients
  clients : Table BackendId ProxyClient

namespace BackendClients

variable (c : BackendClients)

def build (backend : Backend) : ProxyClient :=
  buildClient (some c.settings.connector)
    ((∅ : Table String SocketAddr).insert c.settings.serverName backend.address)
    c.settings.backendH2c c.settings.backendTcpKeepalive

/-- A call that finds a client takes effect at the read lock.  One that finds none builds a client
and looks again under the write lock (`or_insert`), so it takes effect there. -/
def getOrBuild (backend : Backend) : ProxyClient × BackendClients :=
  match c.clients.get backend.id with
  | some client => (client, c)
  | none =>
    (c.build backend, { c with clients := c.clients.insert backend.id (c.build backend) })

def evictMissing (live : List BackendId) : BackendClients :=
  { c with clients := c.clients.retain fun id _ => id ∈ live }

end BackendClients

/-! ## A listener -/

/-- An HTTP listener, with the backends that requests and probes have taken from its pools: they
ask for a client later. -/
structure HttpListener where
  core : ListenerCore
  client : ProxyClient
  perBackendClient : Option BackendClients
  taken : List Backend

namespace HttpListener

def start (settings : HttpSettings) (core : ListenerCore) : HttpListener where
  core := core
  client := ⟨settings.client, ⟨core.serverNameAddresses⟩⟩
  perBackendClient := settings.perBackendClient.map fun c => ⟨c, ∅⟩
  taken := []

variable (w : HttpListener)

def Offers (b : Backend) : Prop :=
  ∃ pool ∈ w.core.pools, ∃ id ∈ pool.pool.allBackendIds, pool.pool.backend id = some b

def selectClient (b : Backend) : ProxyClient × HttpListener :=
  match w.perBackendClient with
  | some c =>
    let (client, c) := c.getOrBuild b
    (client, { w with perBackendClient := some c })
  | none => (w.client, w)

def poll (scaled : HealthCheckConfig → ℕ → ℕ) (dns : DnsDiscoveryConfig)
    (round : DnsRound) : HttpListener :=
  { w with
    core := w.core.poll scaled dns round
    perBackendClient := match round with
      | .answer addrs => w.perBackendClient.map fun c => c.evictMissing (answeredIds addrs)
      | .lookupFailed => w.perBackendClient }

end HttpListener

inductive ClientEvent
  | take (b : Backend)
  | select (b : Backend)
  | dns (round : DnsRound)

namespace ClientEvent

variable (scaled : HealthCheckConfig → ℕ → ℕ) (dns : DnsDiscoveryConfig)
  (answers : Set SocketAddr)

def apply (w : HttpListener) : ClientEvent → HttpListener
  | take b => { w with taken := b :: w.taken }
  | select b => (w.selectClient b).2
  | .dns round => w.poll scaled dns round

/-- Backends are taken from the pools, clients are selected for backends that were taken, and the
resolver answers with some of the addresses `answers`. -/
def Possible (w : HttpListener) : ClientEvent → Prop
  | take b => w.Offers b
  | select b => b ∈ w.taken
  | .dns (.answer addrs) => ∀ addr ∈ addrs, addr ∈ answers
  | .dns .lookupFailed => True

def Step (w : HttpListener) (e : ClientEvent) (w' : HttpListener) : Prop :=
  e.Possible answers w ∧ e.apply scaled dns w = w'

end ClientEvent

/-- The client connects to the backend's address for the authority of the backend. -/
def Addresses (client : ProxyClient) (b : Backend) : Prop :=
  ∃ name, b.serverName = some name ∧
    backendSchemeAndAuthority b true = some ("https", name ++ ":" ++ portOf b.address) ∧
    client.resolver.dial name (portOf b.address) = .ok b.address

/-! ## Who is in the pools -/

/-- Backends of the configuration, and those that DNS finds. -/
inductive Known (s : ListenerSettings) (dns : DnsDiscoveryConfig) (answers : Set SocketAddr) :
    Backend → Prop
  | configured {b : BackendConfig} (h : b ∈ staticBackends s) :
      Known s dns answers (toBackend s.localZone b)
  | discovered {addr : SocketAddr} (h : addr ∈ answers) : Known s dns answers (dns.discovered addr)

/-- What a reload has carried over was found by the same section. -/
def CarriesDiscovered (dns : DnsDiscoveryConfig) (answers : Set SocketAddr)
    (previous : Option PreviousListenerState) : Prop :=
  ∀ st ∈ previous, ∀ carried ∈ st.dnsBackends, ∀ b ∈ carried, ∃ addr ∈ answers,
    b = dns.discovered addr

/-- The listener's own pool has what DNS finds, the others have what is configured. -/
structure Pools (s : ListenerSettings) (dns : DnsDiscoveryConfig) (answers : Set SocketAddr)
    (c : ListenerCore) : Prop where
  main : c.main.pool.Holds fun b => ∃ addr ∈ answers, b = dns.discovered addr
  others : ∀ pool ∈ c.routes ++ c.canary,
    pool.pool.Holds fun b => ∃ d ∈ staticBackends s, b = toBackend s.localZone d

section

variable {s : ListenerSettings} {dns : DnsDiscoveryConfig} {answers : Set SocketAddr}
  {c : ListenerCore}

lemma holds_buildPool {P : Backend → Prop} {backends : List Backend} (h : ∀ b ∈ backends, P b)
    (hc : HealthCheckConfig) (previous : Option PreviousListenerState) (nanos : ℕ) :
    (buildPool backends hc previous nanos).pool.Holds P :=
  (flagWrite_seedFromPrevious _ backends previous nanos).holds
    (BackendPool.holds_withMaxEjectedFraction h _)

lemma pools_buildListenerCore {l : ListenerEntry} (hdn : l.settings.dnsDiscovery = some dns)
    (ho : l.settings.backends = []) {previous : Option PreviousListenerState}
    (hp : CarriesDiscovered dns answers previous)
    (scaled : HealthCheckConfig → ℕ → ℕ) (nanos : ℕ) :
    Pools l.settings dns answers
      (buildListenerCore scaled l previous nanos) := by
  refine ⟨holds_buildPool (fun b hb => ?_) _ _ _, fun pool hpo => ?_⟩
  · rw [poolBackends, hdn, ho] at hb
    cases hc : previous.bind fun p => p.dnsBackends with
    | none =>
      rw [hc] at hb
      cases hb
    | some carried =>
      rw [hc] at hb
      obtain ⟨st, hst, hc⟩ := Option.bind_eq_some_iff.mp hc
      exact hp st hst carried hc b hb
  · rcases mem_append.mp hpo with h | h
    · obtain ⟨r, hr, rfl⟩ := mem_map.mp h
      refine holds_buildPool (fun b hb => ?_) _ _ _
      obtain ⟨d, hd, rfl⟩ := mem_map.mp hb
      exact ⟨d, mem_append_left _ (mem_flatMap.mpr ⟨r, hr, hd⟩), rfl⟩
    · obtain ⟨r, hr, rfl⟩ := mem_map.mp h
      refine holds_buildPool (fun b hb => ?_) _ _ _
      obtain ⟨d, hd, rfl⟩ := mem_map.mp hb
      exact ⟨d, mem_append_right _ (mem_flatMap.mpr ⟨r, hr, hd⟩), rfl⟩

variable {addrs : List SocketAddr}

lemma Pools.answer (h : Pools s dns answers c) (scaled : HealthCheckConfig → ℕ → ℕ)
    (ha : ∀ addr ∈ addrs, addr ∈ answers) :
    Pools s dns answers (c.poll scaled dns (.answer addrs)) := by
  refine ⟨h.main.applyResolved fun b hb => ?_, h.others⟩
  obtain ⟨addr, had, rfl⟩ := mem_map.mp hb
  exact ⟨addr, ha addr had, rfl⟩

lemma Pools.offers_answered {w : HttpListener} (h : Pools s dns answers w.core)
    (ha : ∀ addr ∈ addrs, addr ∈ answers) {addr : SocketAddr} (had : addr ∈ addrs)
    (scaled : HealthCheckConfig → ℕ → ℕ) :
    (w.poll scaled dns (.answer addrs)).Offers (dns.discovered addr) := by
  have hm := (h.answer scaled ha).main
  have hid : (dns.discovered addr).id
      ∈ (w.core.poll scaled dns (.answer addrs)).main.pool.allBackendIds := by
    refine (h.main.listing.indexed.mem_order_applyResolved (addrs.map dns.discovered) _).mpr ?_
    exact mem_map_of_mem (mem_map_of_mem had)
  obtain ⟨b, hb⟩ := hm.listing.exists_backend hid
  obtain ⟨⟨a, -, rfl⟩, hs⟩ := hm.of_backend hb
  obtain rfl : a = addr := (String.append_right_inj "dns:").mp hs
  exact ⟨_, mem_cons_self, _, hid, hb⟩

lemma Pools.known (h : Pools s dns answers c) {w : HttpListener} (hw : w.core = c) {b : Backend}
    (hb : w.Offers b) : Known s dns answers b := by
  subst hw
  obtain ⟨pool, hp, id, -, hb⟩ := hb
  rcases mem_cons.mp hp with rfl | hp
  · obtain ⟨⟨addr, ha, rfl⟩, -⟩ := h.main.of_backend hb
    exact .discovered ha
  · obtain ⟨⟨d, hd, rfl⟩, -⟩ := (h.others pool hp).of_backend hb
    exact .configured hd

end

/-! ## What the clients pin -/

lemma BackendClients.call_build (c : BackendClients) (b : Backend) (name : String) :
    (c.build b).resolver.call name
      = if name = c.settings.serverName then .ok b.address else .error ⟨name⟩ := by
  have hg : (c.build b).resolver.table.get name
      = if name = c.settings.serverName then some b.address else none := AList.get_insert ..
  rw [PinnedResolver.call, hg]
  split_ifs <;> rfl

/-- The name is an IP address, which is not resolved. -/
def IsLiteral (serverName : Option String) : Prop := ∃ name ∈ serverName, literalHost name ≠ none

/-- Names that are IP addresses are those of their backends.  The other backends of routes and
canary pools have the name of the DNS section; and unless that one is an IP address, none has the
id of another address that DNS finds. -/
structure SharesName (s : ListenerSettings) (dns : DnsDiscoveryConfig) (answers : Set SocketAddr) :
    Prop where
  literal : ∀ b ∈ staticBackends s, OwnLiteral b.serverName b.address
  discovered : ∀ addr ∈ answers, OwnLiteral dns.serverName addr
  shared : ∀ b ∈ staticBackends s, IsLiteral b.serverName ∨ b.serverName = dns.serverName
  ids : ¬ IsLiteral dns.serverName → ∀ b ∈ staticBackends s, ∀ addr ∈ answers,
    b.id = "dns:" ++ addr → b.address = addr

section

variable {s : ListenerSettings} {dns : DnsDiscoveryConfig} {answers : Set SocketAddr}
  {b b' : Backend}

lemma Known.ownLiteral (h : Known s dns answers b) (hs : SharesName s dns answers) :
    OwnLiteral b.serverName b.address := by
  cases h with
  | configured h => exact hs.literal _ h
  | discovered h => exact hs.discovered _ h

lemma Known.serverName_eq (h : Known s dns answers b) (hs : SharesName s dns answers) :
    IsLiteral b.serverName ∨ b.serverName = dns.serverName := by
  cases h with
  | configured h => exact hs.shared _ h
  | discovered h => exact .inr rfl

lemma Known.address_eq (h : Known s dns answers b) (h' : Known s dns answers b')
    (hs : SharesName s dns answers) (hn : ¬ IsLiteral dns.serverName)
    (hno : ((staticBackends s).map fun b => b.id).Nodup) (hid : b.id = b'.id) :
    b.address = b'.address := by
  cases h with
  | configured h =>
    cases h' with
    | configured h' => rw [inj_on_of_nodup_map hno h h' hid]
    | discovered h' => exact hs.ids hn _ h _ h' hid
  | discovered h =>
    cases h' with
    | configured h' => exact (hs.ids hn _ h' _ h hid.symm).symm
    | discovered h' => exact (String.append_right_inj "dns:").mp hid

/-- A listener whose clients pin the name of the DNS section, each to an address of its id. -/
structure Serves (s : ListenerSettings) (dns : DnsDiscoveryConfig) (answers : Set SocketAddr)
    (name : String) (w : HttpListener) : Prop where
  pools : Pools s dns answers w.core
  taken : ∀ b ∈ w.taken, Known s dns answers b
  clients : ∃ c, w.perBackendClient = some c ∧ c.settings.serverName = name ∧
    ∀ id client, c.clients.get id = some client →
      ∃ b, Known s dns answers b ∧ b.id = id ∧ client.resolver.call name = .ok b.address

variable {name : String} {w : HttpListener}

lemma HttpListener.selectClient_of_some {c : BackendClients} {client : ProxyClient}
    (hc : w.perBackendClient = some c) (hg : c.clients.get b.id = some client) :
    w.selectClient b = (client, { w with perBackendClient := some c }) := by
  unfold HttpListener.selectClient BackendClients.getOrBuild
  rw [hc]
  dsimp only
  rw [hg]

lemma HttpListener.selectClient_of_none {c : BackendClients} (hc : w.perBackendClient = some c)
    (hg : c.clients.get b.id = none) :
    w.selectClient b = (c.build b, { w with
      perBackendClient := some { c with clients := c.clients.insert b.id (c.build b) } }) := by
  unfold HttpListener.selectClient BackendClients.getOrBuild
  rw [hc]
  dsimp only
  rw [hg]

variable (h : Serves s dns answers name w)

include h

lemma Serves.selectClient (hb : Known s dns answers b) :
    (∃ b', Known s dns answers b' ∧ b'.id = b.id ∧
      (w.selectClient b).1.resolver.call name = .ok b'.address) ∧
      Serves s dns answers name (w.selectClient b).2 := by
  obtain ⟨c, hc, hn, hcl⟩ := h.clients
  cases hg : c.clients.get b.id with
  | some client =>
    rw [HttpListener.selectClient_of_some hc hg]
    exact ⟨hcl b.id client hg, h.pools, h.taken, c, rfl, hn, hcl⟩
  | none =>
    rw [HttpListener.selectClient_of_none hc hg]
    have hca : (c.build b).resolver.call name = .ok b.address := by
      rw [c.call_build, if_pos hn.symm]
    refine ⟨⟨b, hb, rfl, hca⟩, h.pools, h.taken, _, rfl, hn, fun id client hid => ?_⟩
    rw [AList.get_insert] at hid
    split_ifs at hid with hs
    · cases hid
      exact ⟨b, hb, hs.symm, hca⟩
    · exact hcl id client hid

lemma Serves.step {scaled : HealthCheckConfig → ℕ → ℕ} {e : ClientEvent} {w' : HttpListener}
    (hs : e.Step scaled dns answers w w') : Serves s dns answers name w' := by
  obtain ⟨hp, rfl⟩ := hs
  cases e with
  | take b =>
    exact ⟨h.pools, forall_mem_cons.mpr ⟨h.pools.known rfl hp, h.taken⟩, h.clients⟩
  | select b => exact (h.selectClient (h.taken b hp)).2
  | dns round =>
    obtain ⟨c, hc, hn, hcl⟩ := h.clients
    cases round with
    | lookupFailed => exact h
    | answer addrs =>
      have hpo := h.pools.answer scaled hp
      refine ⟨hpo, h.taken, c.evictMissing (answeredIds addrs), congrArg (Option.map _) hc,
        hn, fun id client hid => ?_⟩
      exact hcl id client ((AList.get_retain_eq_some_iff _ _ _ _).mp hid).1

/-- **Where the names are shared**, every backend is addressed. -/
lemma Serves.addresses (hd : dns.serverName = some name) (hs : SharesName s dns answers)
    (hnod : ((staticBackends s).map fun b => b.id).Nodup) (hb : w.Offers b) :
    Addresses (w.selectClient b).1 b := by
  have hk := h.pools.known rfl hb
  have ho := hk.ownLiteral hs
  obtain ⟨⟨b', hb', hid, hc⟩, -⟩ := h.selectClient hk
  rcases hk.serverName_eq hs with ⟨own, hn, hl⟩ | hn
  · rw [Option.mem_def] at hn
    exact ⟨own, hn, backendSchemeAndAuthority_of_named hn,
      PinnedResolver.dial_eq_ok_iff.mpr ⟨hn ▸ ho, fun hno => absurd hno hl⟩⟩
  · rw [hd] at hn
    refine ⟨name, hn, backendSchemeAndAuthority_of_named hn,
      PinnedResolver.dial_eq_ok_iff.mpr ⟨hn ▸ ho, fun hno => ?_⟩⟩
    have hh : ¬ IsLiteral dns.serverName := by
      rw [hd]
      rintro ⟨_, ⟨⟩, hl⟩
      exact hl hno
    rw [hc, hb'.address_eq hk hs hh hnod hid]

omit h

/-- The client that is built for a backend pins the name of the section only. -/
lemma serverName_of_addresses {c : BackendClients} (hc : w.perBackendClient = some c)
    (hg : c.clients.get b.id = none) (h : Addresses (w.selectClient b).1 b) :
    OwnLiteral b.serverName b.address ∧
      (IsLiteral b.serverName ∨ b.serverName = some c.settings.serverName) := by
  obtain ⟨own, ho, -, hd⟩ := h
  obtain ⟨hl, hca⟩ := PinnedResolver.dial_eq_ok_iff.mp hd
  refine ⟨ho ▸ hl, or_iff_not_imp_left.mpr fun hh => ?_⟩
  have hn : literalHost own = none := by
    by_contra hne
    exact hh ⟨own, ho, hne⟩
  have hp := hca hn
  rw [HttpListener.selectClient_of_none hc hg, c.call_build] at hp
  split_ifs at hp with heq
  rw [ho, heq]

/-- A backend that has had its client and an address that DNS then finds under the same id: both
have the client of the first. -/
lemma selectClient_of_same_id {c : BackendClients} {addr : SocketAddr}
    (hc : w.perBackendClient = some c) (hg : c.clients.get b.id = none)
    (hid : b.id = "dns:" ++ addr) (scaled : HealthCheckConfig → ℕ → ℕ) :
    (((w.selectClient b).2.poll scaled dns (.answer [addr])).selectClient
      (dns.discovered addr)).1 = c.build b := by
  rw [HttpListener.selectClient_of_none hc hg]
  refine congrArg Prod.fst (HttpListener.selectClient_of_some rfl ?_)
  refine (AList.get_retain_eq_some_iff _ _ _ _).mpr
    ⟨?_, by simp [answeredIds, DnsDiscoveryConfig.discovered]⟩
  rw [AList.get_insert]
  exact if_pos hid.symm

include h

/-- What DNS finds is offered, and addressed under the name of the section. -/
lemma ownLiteral_of_addresses {addr : SocketAddr} (haddr : addr ∈ answers)
    {scaled : HealthCheckConfig → ℕ → ℕ}
    (had : ∀ events w', Run (ClientEvent.Step scaled dns answers) w events w' →
      ∀ b, w'.Offers b → Addresses (w'.selectClient b).1 b) :
    OwnLiteral dns.serverName addr := by
  have hadd : ∀ a ∈ [addr], a ∈ answers := fun a ha => mem_singleton.mp ha ▸ haddr
  have han : ClientEvent.Step scaled dns answers w (.dns (.answer [addr]))
      (w.poll scaled dns (.answer [addr])) := ⟨hadd, rfl⟩
  obtain ⟨own, ho, -, hd⟩ := had _ _ (Run.start.next han) _
    (h.pools.offers_answered hadd mem_cons_self scaled)
  have hl := (PinnedResolver.dial_eq_ok_iff.mp hd).1
  rwa [← ho] at hl

lemma address_of_addresses {c : BackendClients} (hc : w.perBackendClient = some c)
    (hg : c.clients.get b.id = none) (hb : w.Offers b) {addr : SocketAddr}
    (haddr : addr ∈ answers) (hid : b.id = "dns:" ++ addr)
    {scaled : HealthCheckConfig → ℕ → ℕ}
    (had : ∀ events w', Run (ClientEvent.Step scaled dns answers) w events w' →
      ∀ b, w'.Offers b → Addresses (w'.selectClient b).1 b)
    (hn : ¬ IsLiteral dns.serverName) :
    b.address = addr := by
  have hadd : ∀ a ∈ [addr], a ∈ answers := fun a ha => mem_singleton.mp ha ▸ haddr
  set taken : HttpListener := { w with taken := b :: w.taken }
  have ht : ClientEvent.Step scaled dns answers w (.take b) taken := ⟨hb, rfl⟩
  have hs : ClientEvent.Step scaled dns answers taken (.select b)
      (taken.selectClient b).2 := ⟨mem_cons_self, rfl⟩
  have han : ClientEvent.Step scaled dns answers (taken.selectClient b).2
      (.dns (.answer [addr])) ((taken.selectClient b).2.poll scaled dns (.answer [addr])) :=
    ⟨hadd, rfl⟩
  have hf := ((h.step ht).step hs).pools.offers_answered hadd mem_cons_self
    scaled
  obtain ⟨own, ho, -, hd⟩ := had _ _ (((Run.start.next ht).next hs).next han) _ hf
  have hca := (PinnedResolver.dial_eq_ok_iff.mp hd).2 (by
    by_contra hne
    exact hn ⟨own, ho, hne⟩)
  have hcl : taken.perBackendClient = some c := hc
  rw [selectClient_of_same_id hcl hg hid, c.call_build] at hca
  split_ifs at hca
  exact Except.ok.inj hca

end

/-! ## A listener that is built -/

section

variable {ext : Externals} {l : ListenerEntry} {clusterNode : Bool}
  {cluster : Option (ClusterConfig SocketAddr)} {logging : LoggingConfig}
  {previous : Option PreviousListenerState} {nanos : ℕ} {ctx : ListenerContext}
  {settings : HttpSettings} {dns : DnsDiscoveryConfig} {name : String}

lemma core_of_buildContext {connector : Option BackendTlsConfig}
    (h : buildContext ext l connector clusterNode cluster logging previous nanos = .ok ctx) :
    ctx.core = buildListenerCore ext.scaledCooldown l previous nanos := by
  obtain ⟨settings, -, h⟩ := Except.bind_eq_ok_iff.mp h
  cases h
  rfl

lemma exists_perBackendClient
    (h : buildContext ext l l.settings.backendTls clusterNode cluster logging previous nanos
      = .ok ctx) (hs : ctx.settings = .http settings)
    (hd : l.settings.dnsDiscovery = some dns) (ht : l.settings.backendTls.isSome = true)
    (hn : dns.serverName = some name) :
    ∃ c, settings.perBackendClient = some c ∧ c.serverName = name := by
  obtain ⟨settings', hs', h⟩ := Except.bind_eq_ok_iff.mp h
  cases h
  dsimp only at hs
  subst hs
  obtain ⟨tls, ht⟩ := Option.isSome_iff_exists.mp ht
  unfold contextSettings at hs'
  cases hp : l.settings.protocol with
  | tcp =>
    rw [hp] at hs'
    cases hs'
  | http =>
    rw [hp] at hs'
    obtain ⟨http, hh, hs'⟩ := Except.bind_eq_ok_iff.mp hs'
    obtain rfl := ContextSettings.http.inj (Except.ok.inj hs')
    obtain ⟨c, hc, hh⟩ := Except.bind_eq_ok_iff.mp hh
    cases hh
    unfold perBackendClient at hc
    rw [hd, ht] at hc
    dsimp only at hc
    rw [hn] at hc
    cases hc
    exact ⟨_, rfl, rfl⟩

lemma offers_configured {w : HttpListener}
    (hw : w.core = buildListenerCore ext.scaledCooldown l previous nanos)
    (hn : ((staticBackends l.settings).map fun b => b.id).Nodup) {d : BackendConfig}
    (hd : d ∈ staticBackends l.settings) : w.Offers (toBackend l.settings.localZone d) := by
  -- the pool that is built of a section's backends has each of them
  have hp : ∀ (backends : List BackendConfig) (hc : HealthCheckConfig),
      (∀ d' ∈ backends, d' ∈ staticBackends l.settings) → d ∈ backends →
      buildPool (backends.map (toBackend l.settings.localZone)) hc previous nanos
        ∈ w.core.pools → w.Offers (toBackend l.settings.localZone d) := by
    intro backends hc hs hdm hme
    have hm : ∀ b ∈ backends.map (toBackend l.settings.localZone),
        ∃ d' ∈ backends, b = toBackend l.settings.localZone d' := by
      intro b hb
      obtain ⟨d', hd', rfl⟩ := mem_map.mp hb
      exact ⟨d', hd', rfl⟩
    have hh := holds_buildPool hm hc previous nanos
    have hid : d.id ∈ (buildPool (backends.map (toBackend l.settings.localZone)) hc previous
        nanos).pool.allBackendIds := by
      rw [BackendPool.allBackendIds, order_buildPool, map_map]
      exact mem_map_of_mem (f := fun d => d.id) hdm
    obtain ⟨b, hb⟩ := hh.listing.exists_backend hid
    obtain ⟨⟨d', hd', rfl⟩, hdi⟩ := hh.of_backend hb
    obtain rfl : d' = d := inj_on_of_nodup_map hn (hs d' hd') hd hdi
    exact ⟨_, hme, d'.id, hid, hb⟩
  rcases mem_append.mp hd with h | h
  · obtain ⟨r, hr, hdr⟩ := mem_flatMap.mp h
    refine hp r.backends r.healthCheck (fun d' hd' => ?_) hdr ?_
    · exact mem_append_left _ (mem_flatMap.mpr ⟨r, hr, hd'⟩)
    · rw [hw]
      exact mem_cons_of_mem _ (mem_append_left _ (mem_map_of_mem hr))
  · obtain ⟨r, hr, hdr⟩ := mem_flatMap.mp h
    refine hp r.backends r.healthCheck (fun d' hd' => ?_) hdr ?_
    · exact mem_append_right _ (mem_flatMap.mpr ⟨r, hr, hd'⟩)
    · rw [hw]
      exact mem_cons_of_mem _ (mem_append_right _ (mem_map_of_mem hr))

variable {answers : Set SocketAddr}

lemma serves_start
    (hct : buildContext ext l l.settings.backendTls clusterNode cluster logging previous
      nanos = .ok ctx) (hs : ctx.settings = .http settings)
    (hd : l.settings.dnsDiscovery = some dns) (ht : l.settings.backendTls.isSome = true)
    (hn : dns.serverName = some name) (ho : l.settings.backends = [])
    (hp : CarriesDiscovered dns answers previous) :
    Serves l.settings dns answers name (.start settings ctx.core) := by
  obtain ⟨c, hc, hse⟩ := exists_perBackendClient hct hs hd ht hn
  refine ⟨?_, fun b hb => absurd hb not_mem_nil, ⟨c, ∅⟩, congrArg (Option.map _) hc, hse,
    fun id client hg => ?_⟩
  · have hpo := pools_buildListenerCore hd ho hp ext.scaledCooldown nanos
    exact core_of_buildContext hct ▸ hpo
  · cases hg

end

/-! ### A route behind DNS -/

/-- A listener with `backend_tls` whose own backends come from DNS, and a route whose backend has
the given name. -/
def discoveredWithNamedRoute (name : String) : ListenerConfig SocketAddr ListenerSettings :=
  let hc := HealthCheckConfig.withDefaults (some "/health") 2000 3 5000
  let s := ListenerSettings.withDefaults .http [] hc ⟨.sourceIp, .finite 50, 100, 100000⟩
  { name := "web"
    listen := "0.0.0.0:8443"
    settings := { s with
      backendTls := some ⟨none, false⟩
      dnsDiscovery := some ⟨"app.internal", 443, none, some "app.internal"⟩
      routes := [⟨some "/api", none, [⟨"api1", "10.1.0.1:443", 1, some name, 0, none⟩], hc,
        .roundRobin⟩] } }

def hostNameExternals : Externals := ⟨hostNamesOnly, fun _ _ => 0, fun _ _ => 0⟩

end LoadBalancer.Proxy
