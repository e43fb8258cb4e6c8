import LoadBalancer.Server.Wiring

/-!
# Where a request is sent

With `backend_tls` a request is addressed to the name on the backend's certificate, and the
connector of the listener resolves that name in a table of pinned addresses (`PinnedResolver` in
`crates/lb-proxy/src/resolver.rs`).  The table has one address for a name, and it is built from the
backends of all pools; validation looks at the names of the listener's own backends only.

A name that is an IP address is never resolved: the connector of the HTTP client, `HttpConnector`,
connects to that address.
-/

namespace LoadBalancer.Proxy

open LoadBalancer.Core LoadBalancer.Server List

/-- The scheme and authority a request to the backend is addressed with. -/
def backendSchemeAndAuthority (backend : Backend) (backendTls : Bool) : Option (String × String) :=
  match backendTls, backend.serverName with
  | true, some name => some ("https", name ++ ":" ++ portOf backend.address)
  | true, none => none
  | false, _ => some ("http", backend.address)

lemma backendSchemeAndAuthority_of_named {b : Backend} {name : String}
    (hn : b.serverName = some name) :
    backendSchemeAndAuthority b true = some ("https", name ++ ":" ++ portOf b.address) := by
  unfold backendSchemeAndAuthority
  rw [hn]

structure PinnedResolver where
  table : Table String SocketAddr

structure UnpinnedServerName where
  name : String
  deriving DecidableEq

def PinnedResolver.call (resolver : PinnedResolver) (name : String) :
    Except UnpinnedServerName SocketAddr :=
  match resolver.table.get name with
  | some address => .ok address
  | none => .error ⟨name⟩

/-- `SocketAddr::new`, in the text form of addresses. -/
def socketAddr (port : String) : IpAddr → SocketAddr
  | .v4 a => String.ofList (displayV4 a) ++ ":" ++ port
  | .v6 a => "[" ++ String.ofList (displayV6 a) ++ "]:" ++ port

/-- A host that `HttpConnector` takes for an IP address, with or without brackets. -/
def literalHost (name : String) : Option IpAddr :=
  IpAddr.parse ((name.toList.dropWhile (· = '[')).rdropWhile (· = ']'))

/-- Where `HttpConnector` connects to: the resolver is not asked for an IP address. -/
def PinnedResolver.dial (resolver : PinnedResolver) (name port : String) :
    Except UnpinnedServerName SocketAddr :=
  match literalHost name with
  | some ip => .ok (socketAddr port ip)
  | none => resolver.call name

example (resolver : PinnedResolver) : resolver.dial "10.0.0.1" "443" = .ok "10.0.0.1:443" := rfl

/-- A name that is an IP address is that of the address it is used for. -/
def OwnLiteral (serverName : Option String) (address : SocketAddr) : Prop :=
  ∀ name ∈ serverName, ∀ ip ∈ literalHost name, address = socketAddr (portOf address) ip

lemma ownLiteral_of_hostName {name : String} {address : SocketAddr} (h : literalHost name = none) :
    OwnLiteral (some name) address := by
  rintro _ ⟨⟩ ip hip
  rw [h] at hip
  cases hip

lemma PinnedResolver.dial_eq_ok_iff {resolver : PinnedResolver} {name : String}
    {address : SocketAddr} :
    resolver.dial name (portOf address) = .ok address ↔ OwnLiteral (some name) address ∧
      (literalHost name = none → resolver.call name = .ok address) := by
  unfold PinnedResolver.dial OwnLiteral
  cases hl : literalHost name <;> simp [hl, eq_comm]

/-- A request to the backend can be addressed, the name it is addressed to is pinned to the
backend's address, and that is where it is sent. -/
def Dialable (crates : ConfigCrates) (resolver : PinnedResolver) (b : Backend) : Prop :=
  ∃ name authority, b.serverName = some name ∧
    backendSchemeAndAuthority b true = some ("https", authority) ∧
    crates.isAuthority authority = true ∧ resolver.call name = .ok b.address ∧
    resolver.dial name (portOf b.address) = .ok b.address

/-- The names of the backends can be authorities, those that are IP addresses are the backend's
own, and backends that share a name share their address. -/
structure WellNamed (crates : ConfigCrates) (backends : List Backend) : Prop where
  named : ∀ b ∈ backends, ∃ name, b.serverName = some name ∧
    crates.isAuthority (name ++ ":" ++ portOf b.address) = true
  literal : ∀ b ∈ backends, OwnLiteral b.serverName b.address
  shared : ∀ b ∈ backends, ∀ b' ∈ backends, b.serverName = b'.serverName → b.address = b'.address

lemma dialable_iff_wellNamed {crates : ConfigCrates} {backends : List Backend} :
    (∀ b ∈ backends, Dialable crates ⟨pinnedAddresses backends⟩ b) ↔
      WellNamed crates backends := by
  constructor
  · intro h
    refine ⟨fun b hb => ?_, fun b hb => ?_, fun b hb b' hb' hsh => ?_⟩
    · obtain ⟨name, authority, hn, hs, hau, -⟩ := h b hb
      rw [backendSchemeAndAuthority_of_named hn] at hs
      obtain rfl := (Prod.mk.inj (Option.some.inj hs)).2
      exact ⟨name, hn, hau⟩
    · obtain ⟨name, -, hn, -, -, -, hd⟩ := h b hb
      rw [hn]
      exact (PinnedResolver.dial_eq_ok_iff.mp hd).1
    · obtain ⟨name, -, hn, -, -, hc, -⟩ := h b hb
      obtain ⟨name', -, hn', -, -, hc', -⟩ := h b' hb'
      obtain rfl : name = name' := Option.some.inj (hn.symm.trans (hsh.trans hn'))
      exact Except.ok.inj (hc.symm.trans hc')
  · intro h b hb
    obtain ⟨name, hn, hau⟩ := h.named b hb
    have hc : PinnedResolver.call ⟨pinnedAddresses backends⟩ name = .ok b.address := by
      obtain ⟨a, ha⟩ := exists_get_pinnedAddresses hb hn
      obtain ⟨b', hb', hn', rfl⟩ := exists_of_get_pinnedAddresses ha
      rw [h.shared b hb b' hb' (hn.trans hn'.symm), PinnedResolver.call, ha]
    exact ⟨name, _, hn, backendSchemeAndAuthority_of_named hn, hau, hc,
      PinnedResolver.dial_eq_ok_iff.mpr ⟨hn ▸ h.literal b hb, fun _ => hc⟩⟩

/-- What is left to demand of a configuration: names of the backends of routes and canary pools,
no IP address as a name but the backend's own, and one address for each name. -/
structure NamesEveryBackend (crates : ConfigCrates) (s : ListenerSettings) : Prop where
  named : ∀ b ∈ staticBackends s, ∃ name, b.serverName = some name ∧
    crates.isAuthority (name ++ ":" ++ portOf b.address) = true
  literal : ∀ b ∈ s.backends ++ staticBackends s, OwnLiteral b.serverName b.address
  shared : ∀ b ∈ s.backends ++ staticBackends s, ∀ b' ∈ s.backends ++ staticBackends s,
    b.serverName = b'.serverName → b.address = b'.address

lemma wellNamed_iff_namesEveryBackend {crates : ConfigCrates} {s : ListenerSettings}
    (hv : s.validate crates = .ok ()) (hp : s.protocol = .http)
    (ht : s.backendTls.isSome = true) :
    WellNamed crates ((s.backends ++ staticBackends s).map (toBackend s.localZone)) ↔
      NamesEveryBackend crates s := by
  obtain ⟨ho, -⟩ := s.named_of_validate hv hp ht
  constructor
  · intro h
    refine ⟨fun b hb => ?_, fun b hb => ?_, fun b hb b' hb' hs => ?_⟩
    · exact h.named _ (mem_map_of_mem (mem_append_right _ hb))
    · exact h.literal _ (mem_map_of_mem hb)
    · exact h.shared _ (mem_map_of_mem hb) _ (mem_map_of_mem hb') hs
  · intro h
    refine ⟨fun b hb => ?_, fun b hb => ?_, fun b hb b' hb' hs => ?_⟩
    · obtain ⟨d, hd, rfl⟩ := mem_map.mp hb
      exact (mem_append.mp hd).elim (ho d) (h.named d)
    · obtain ⟨d, hd, rfl⟩ := mem_map.mp hb
      exact h.literal d hd
    · obtain ⟨d, hd, rfl⟩ := mem_map.mp hb
      obtain ⟨d', hd', rfl⟩ := mem_map.mp hb'
      exact h.shared d hd d' hd' hs

section

variable {crates : ConfigCrates} {Sections : Type}
  {validateSections : Config SocketAddr ListenerSettings Sections → Except ConfigError Unit}
  {cfg : Config SocketAddr ListenerSettings Sections}
  {l : ListenerConfig SocketAddr ListenerSettings}

end

/-! ### Two configurations -/

def hostNamesOnly : ConfigCrates where
  isAuthority _ := true
  isUri _ := true
  isHeaderValue _ := true
  headerName name := some name

/-- A listener with `backend_tls`, a backend of its own, and a route with the given ones. -/
def encryptedWithRoute (routed : List BackendConfig) :
    ListenerConfig SocketAddr ListenerSettings :=
  let hc := HealthCheckConfig.withDefaults (some "/health") 2000 3 5000
  let s := ListenerSettings.withDefaults .http
    [⟨"web1", "10.0.0.1:443", 1, some "web.internal", 0, none⟩] hc
    ⟨.sourceIp, .finite 50, 100, 100000⟩
  { name := "web"
    listen := "0.0.0.0:8443"
    settings := { s with
      backendTls := some ⟨none, false⟩
      routes := [⟨some "/api", none, routed, hc, .roundRobin⟩] } }

end LoadBalancer.Proxy
