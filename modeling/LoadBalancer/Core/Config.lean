import Mathlib
import LoadBalancer.Lib.Fallible

/-!
# The configuration of a cluster node

`Config::validate` (`crates/lb-core/src/config.rs`) is what stands between a configuration file and
a running node.  Modelled here is what it demands of the listeners as a whole and of the
`[cluster]` section.  The checks inside one listener and those of the remaining sections (overload,
admin, logging, tracing) are parameters: they run at the places they have in the source, and the
settings they read are opaque.

Apart from being positive, `window_secs` is not restricted, and neither are the length of `node_id`
and of the listeners' names.
-/

namespace LoadBalancer.Core

open Except List

/-- The `ConfigError` that validation reports. -/
inductive ConfigError
  | invalid (message : String)
  deriving DecidableEq, Repr

/-- A listener: its name, its address, and the settings only its own validation reads. -/
structure ListenerConfig (Addr Settings : Type) where
  name : String
  listen : Addr
  settings : Settings
  deriving BEq

/-- The certificate, key and trust root of the peer channel. -/
structure PeerTlsConfig where
  certFile : String
  keyFile : String
  caFile : String
  handshakeTimeoutMs : Option ℕ
  deriving DecidableEq

structure ClusterConfig (Addr : Type) where
  nodeId : String
  listen : Addr
  peers : List Addr
  syncIntervalMs : ℕ
  windowSecs : ℕ
  sharedSecretEnv : Option String
  sharedSecret : Option String
  tls : Option PeerTlsConfig
  deriving DecidableEq

structure Config (Addr Settings Sections : Type) where
  listeners : List (ListenerConfig Addr Settings)
  cluster : Option (ClusterConfig Addr)
  sections : Sections

/-- `char::is_whitespace`: the characters with the property `White_Space`. -/
def isWhitespace (c : Char) : Bool :=
  let n := c.toNat
  (9 ≤ n && n ≤ 13) || n = 0x20 || n = 0x85 || n = 0xa0 || n = 0x1680 ||
    (0x2000 ≤ n && n ≤ 0x200a) || n = 0x2028 || n = 0x2029 || n = 0x202f || n = 0x205f || n = 0x3000

def isBlank (s : String) : Bool := s.toList.all isWhitespace

variable {Addr Settings Sections : Type} [DecidableEq Addr] [ToString Addr]

section

variable (validateListener : ListenerConfig Addr Settings → Except ConfigError Unit)
  (validateSections : Config Addr Settings Sections → Except ConfigError Unit)

def validateListeners : List (ListenerConfig Addr Settings) → List String → List Addr →
    Except ConfigError Unit
  | [], _, _ => .ok ()
  | l :: rest, names, addresses =>
    if l.name ∈ names then .error (.invalid ("duplicate listener name: " ++ l.name))
    else if l.listen ∈ addresses then
      .error (.invalid ("listener '" ++ l.name ++ "' reuses listen address " ++ toString l.listen ++
        " — two listeners cannot bind the same address"))
    else do
      validateListener l
      validateListeners rest (l.name :: names) (l.listen :: addresses)

/-- Exactly one source of the shared secret. -/
def validateSecret : Option String → Option String → Except ConfigError Unit
  | some _, none => .ok ()
  | none, some _ => .ok ()
  | _, _ => .error (.invalid "cluster requires exactly one of shared_secret_env or shared_secret")

def validateCluster (listeners : List (ListenerConfig Addr Settings))
    (cluster : ClusterConfig Addr) : Except ConfigError Unit :=
  if isBlank cluster.nodeId then .error (.invalid "cluster.node_id must not be empty")
  else if cluster.syncIntervalMs = 0 then
    .error (.invalid "cluster.sync_interval_ms must be positive")
  else if cluster.windowSecs = 0 then .error (.invalid "cluster.window_secs must be positive")
  else if cluster.listen ∈ cluster.peers then
    .error (.invalid ("cluster.peers contains this node's own listen address " ++
      toString cluster.listen ++ " — peers must list only the other nodes"))
  else match listeners.find? fun l => l.listen = cluster.listen with
  | some clash =>
    .error (.invalid ("cluster.listen " ++ toString cluster.listen ++
      " is already used by listener '" ++ clash.name ++ "'"))
  | none => validateSecret cluster.sharedSecretEnv cluster.sharedSecret

def Config.validate (cfg : Config Addr Settings Sections) : Except ConfigError Unit :=
  if cfg.listeners.isEmpty then .error (.invalid "at least one listener is required")
  else do
    validateListeners validateListener cfg.listeners [] []
    match cfg.cluster with
    | some cluster => validateCluster cfg.listeners cluster
    | none => .ok ()
    validateSections cfg

/-! ## What is accepted -/

lemma validateListeners_eq_ok_iff : ∀ (listeners : List (ListenerConfig Addr Settings))
    (names : List String) (addresses : List Addr),
    validateListeners validateListener listeners names addresses = .ok () ↔
      (listeners.map fun l => l.name).Nodup ∧ (∀ l ∈ listeners, l.name ∉ names) ∧
      (listeners.map fun l => l.listen).Nodup ∧ (∀ l ∈ listeners, l.listen ∉ addresses) ∧
      ∀ l ∈ listeners, validateListener l = .ok ()
  | [], names, addresses => by simp [validateListeners]
  | l :: rest, names, addresses => by
    have ih := validateListeners_eq_ok_iff rest (l.name :: names) (l.listen :: addresses)
    simp only [validateListeners, ite_error_eq_ok_iff, seq_eq_ok_iff, ih,
      map_cons, nodup_cons, forall_mem_cons]
    simp only [mem_cons, mem_map, not_or, not_exists, not_and]
    constructor
    · rintro ⟨hna, hli, hl, hn, hnn, ha, haa, hr⟩
      exact ⟨⟨fun x hx heq => (hnn x hx).1 heq, hn⟩, ⟨hna, fun x hx => (hnn x hx).2⟩,
        ⟨fun x hx heq => (haa x hx).1 heq, ha⟩, ⟨hli, fun x hx => (haa x hx).2⟩, hl, hr⟩
    · rintro ⟨⟨hne, hn⟩, ⟨hna, hnam⟩, ⟨hae, ha⟩, ⟨hli, had⟩, hl, hr⟩
      exact ⟨hna, hli, hl, hn, fun x hx => ⟨hne x hx, hnam x hx⟩, ha,
        fun x hx => ⟨hae x hx, had x hx⟩, hr⟩

/-- A usable `[cluster]` section. -/
structure ClusterConfig.Valid (listeners : List (ListenerConfig Addr Settings))
    (cluster : ClusterConfig Addr) : Prop where
  nodeId : isBlank cluster.nodeId = false
  syncIntervalMs : 0 < cluster.syncIntervalMs
  windowSecs : 0 < cluster.windowSecs
  peers : cluster.listen ∉ cluster.peers
  listen : ∀ l ∈ listeners, l.listen ≠ cluster.listen
  secret : cluster.sharedSecretEnv.isSome ≠ cluster.sharedSecret.isSome

lemma validateCluster_eq_ok_iff (listeners : List (ListenerConfig Addr Settings))
    (cluster : ClusterConfig Addr) :
    validateCluster listeners cluster = .ok () ↔ cluster.Valid listeners := by
  have hse : validateSecret cluster.sharedSecretEnv cluster.sharedSecret = .ok () ↔
      cluster.sharedSecretEnv.isSome ≠ cluster.sharedSecret.isSome := by
    cases cluster.sharedSecretEnv <;> cases cluster.sharedSecret <;> simp [validateSecret]
  unfold validateCluster
  simp only [ite_error_eq_ok_iff]
  cases hf : listeners.find? fun l => l.listen = cluster.listen with
  | some clash =>
    have hc : clash.listen = cluster.listen := by simpa using List.find?_some hf
    constructor
    · rintro ⟨-, -, -, -, h⟩
      cases h
    · intro h
      exact absurd hc (h.listen clash (mem_of_find?_eq_some hf))
  | none =>
    have hfr : ∀ l ∈ listeners, l.listen ≠ cluster.listen := by
      simpa using List.find?_eq_none.mp hf
    dsimp only
    rw [hse]
    constructor
    · rintro ⟨hid, hsy, hw, hp, hs⟩
      exact ⟨by simpa using hid, Nat.pos_of_ne_zero hsy, Nat.pos_of_ne_zero hw, hp, hfr, hs⟩
    · rintro ⟨hid, hsy, hw, hp, -, hs⟩
      exact ⟨by simpa using hid, hsy.ne', hw.ne', hp, hs⟩

/-- **The accepted configurations.** -/
theorem Config.validate_eq_ok_iff (cfg : Config Addr Settings Sections) :
    cfg.validate validateListener validateSections = .ok () ↔
      cfg.listeners ≠ [] ∧ (cfg.listeners.map fun l => l.name).Nodup ∧
      (cfg.listeners.map fun l => l.listen).Nodup ∧
      (∀ l ∈ cfg.listeners, validateListener l = .ok ()) ∧
      (∀ cluster, cfg.cluster = some cluster → cluster.Valid cfg.listeners) ∧
      validateSections cfg = .ok () := by
  unfold Config.validate
  rw [ite_error_eq_ok_iff, List.isEmpty_iff]
  refine and_congr_right fun _ => ?_
  simp only [seq_eq_ok_iff, validateListeners_eq_ok_iff]
  cases cfg.cluster with
  | none => simp [and_assoc, seq_eq_ok_iff]
  | some cluster => simp [and_assoc, seq_eq_ok_iff, validateCluster_eq_ok_iff]

end

end LoadBalancer.Core
