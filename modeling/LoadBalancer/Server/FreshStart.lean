import LoadBalancer.Server.DnsRuntime
import LoadBalancer.Server.Reload

/-!
# Reloads and fresh starts

A process starts with a configuration and goes through reloads, one at a time.  At any time the
settings of its accept loops and contexts are those of a process that starts with the stored
configuration (`WiredApp.Consistent`), whatever requests, probes, operators and DNS have done to
the live state.

The early returns of a reload are refusals (`RefusesOnly`): no accepted configuration reaches a
panic.
-/

namespace LoadBalancer.Server

open LoadBalancer.Core LoadBalancer.Health List

/-! ## What is running -/

/-- The contexts have the settings of a configuration: those of a fresh start.  What their tables
hold is as these settings say. -/
def ReloadState.Runs (ext : Externals) (st : ReloadState) (cfg : AppConfig) : Prop :=
  ∀ l ∈ cfg.listeners, ∃ ctx fresh, st.listeners.get l.name = some ctx ∧
    buildContext ext l l.settings.backendTls st.clusterNode cfg.cluster cfg.sections.logging none 0
      = .ok fresh ∧ ctx.view = fresh.view ∧ ctx.core.Furnished ext.scaledCooldown

/-- The accept loops are those of a configuration. -/
def WiredApp.Accepts (app : WiredApp) (cfg : AppConfig) : Prop :=
  ∀ rt, rt ∈ app.runtimes ↔ ∃ l ∈ cfg.listeners, rt = .build l (tlsAcceptor l)

section

variable {ext : Externals} {files : TlsFiles} {cfg : AppConfig}

lemma eq_of_buildTlsAcceptor (l : ListenerEntry) (acceptor : Option TlsAcceptor)
    (h : buildTlsAcceptor files l = .ok acceptor) : acceptor = tlsAcceptor l := by
  unfold buildTlsAcceptor at h
  unfold tlsAcceptor
  cases ht : l.settings.tls with
  | none =>
    rw [ht] at h
    exact (Except.ok.inj h).symm
  | some tls =>
    simp only [ht, Except.seq_eq_ok_iff] at h
    exact (Except.ok.inj h.2.2).symm

lemma eq_of_buildBackendConnector (l : ListenerEntry) (connector : Option BackendTlsConfig)
    (h : buildBackendConnector files l = .ok connector) : connector = l.settings.backendTls := by
  unfold buildBackendConnector at h
  cases ht : l.settings.backendTls with
  | none =>
    rw [ht] at h
    exact (Except.ok.inj h).symm
  | some tls =>
    simp only [ht, Except.seq_eq_ok_iff] at h
    exact (Except.ok.inj h.2).symm

lemma of_buildListener {clusterNode : Bool} {l : ListenerEntry} {acceptor : Option TlsAcceptor}
    {connector : Option BackendTlsConfig} {b : BuiltListener}
    (h : buildListener ext cfg clusterNode l acceptor connector = .ok b) :
    b.runtime = .build l acceptor ∧
      buildContext ext l connector clusterNode cfg.cluster cfg.sections.logging none 0
        = .ok b.context := by
  obtain ⟨context, hc, h⟩ := Except.bind_eq_ok_iff.mp h
  obtain ⟨tasks, -, h⟩ := Except.bind_eq_ok_iff.mp h
  cases h
  exact ⟨rfl, hc⟩

lemma of_buildApp {clusterSecret : Bool} {app : WiredApp}
    (hna : (cfg.listeners.map fun l => l.name).Nodup)
    (h : buildApp ext files cfg clusterSecret = .ok app) :
    app.reload.config = cfg ∧ app.reload.clusterNode = (cfg.cluster.isSome && clusterSecret) ∧
      app.Accepts cfg ∧
      ∀ l ∈ cfg.listeners, ∃ ctx, app.reload.listeners.get l.name = some ctx ∧
        buildContext ext l l.settings.backendTls (cfg.cluster.isSome && clusterSecret) cfg.cluster
          cfg.sections.logging none 0 = .ok ctx := by
  obtain ⟨acceptors, hac, h⟩ := Except.bind_eq_ok_iff.mp h
  obtain ⟨connectors, hco, h⟩ := Except.bind_eq_ok_iff.mp h
  obtain ⟨-, h⟩ := Except.seq_eq_ok_iff.mp h
  obtain ⟨built, hbu, h⟩ := Except.bind_eq_ok_iff.mp h
  cases h
  have hz : (cfg.listeners.zip acceptors).zip connectors
      = cfg.listeners.map fun l => ((l, tlsAcceptor l), l.settings.backendTls) := by
    have ha : acceptors.map id = cfg.listeners.map tlsAcceptor :=
      Except.map_of_mapM_eq_ok eq_of_buildTlsAcceptor hac
    have hc : connectors.map id = cfg.listeners.map fun l => l.settings.backendTls :=
      Except.map_of_mapM_eq_ok eq_of_buildBackendConnector hco
    rw [map_id] at ha hc
    rw [ha, hc]
    nth_rewrite 1 [← map_id cfg.listeners]
    rw [zip_map', zip_map']
    rfl
  rw [hz, mapM_map] at hbu
  obtain ⟨hle, hri⟩ := Except.mem_of_mapM_eq_ok hbu
  have hn : built.map (fun b => b.runtime.name) = cfg.listeners.map fun l => l.name :=
    Except.map_of_mapM_eq_ok (fun l b hb => congrArg ListenerRuntime.name (of_buildListener hb).1)
      hbu
  refine ⟨rfl, rfl, fun rt => ?_, fun l hl => ?_⟩
  · constructor
    · intro hrt
      obtain ⟨b, hb, rfl⟩ := mem_map.mp hrt
      obtain ⟨l, hl, hb⟩ := hri b hb
      exact ⟨l, hl, (of_buildListener hb).1⟩
    · rintro ⟨l, hl, rfl⟩
      obtain ⟨b, hb, hlb⟩ := hle l hl
      exact mem_map.mpr ⟨b, hb, (of_buildListener hlb).1⟩
  · obtain ⟨b, hb, hlb⟩ := hle l hl
    obtain ⟨hr, hcon⟩ := of_buildListener hlb
    refine ⟨b.context, ?_, hcon⟩
    refine (AList.get_foldl_insert _ ∅ ?_).mpr (Or.inl (mem_map.mpr ⟨b, hb, ?_⟩))
    · rw [map_map]
      exact hn ▸ hna
    · rw [hr]
      rfl

end

/-! ## What has to be rebuilt -/

@[simp] lemma refuseReload_eq_ok_iff {c : Bool} {message : String} :
    refuseReload c message = .ok () ↔ c = false := by
  cases c <;> simp [refuseReload]

def RefusesOnly {α : Type} (x : Except ReloadOutcome α) : Prop :=
  ∀ outcome, x = .error outcome → ∃ message, outcome = .refused message

namespace RefusesOnly

variable {α β : Type}

lemma ok (a : α) : RefusesOnly (.ok a) := fun _ h => by cases h

lemma refuseReload (c : Bool) (message : String) : RefusesOnly (refuseReload c message) := by
  intro outcome h
  unfold Server.refuseReload at h
  split_ifs at h
  obtain rfl := Except.error.inj h
  exact ⟨message, rfl⟩

lemma bind {x : Except ReloadOutcome α} {f : α → Except ReloadOutcome β} (hx : RefusesOnly x)
    (hf : ∀ a, x = .ok a → RefusesOnly (f a)) : RefusesOnly (x >>= f) := by
  intro outcome h
  cases x with
  | error outcome' => exact hx outcome (congrArg Except.error (Except.error.inj h))
  | ok a => exact hf a rfl outcome h

lemma mapM {f : α → Except ReloadOutcome β} :
    ∀ {l : List α}, (∀ a ∈ l, RefusesOnly (f a)) → RefusesOnly (l.mapM f)
  | [], _ => ok []
  | a :: l, h => by
      rw [mapM_cons]
      refine (h a mem_cons_self).bind fun b _ => ?_
      exact (mapM fun a ha => h a (mem_cons_of_mem _ ha)).bind fun bs _ => ok _

end RefusesOnly

lemma build_eq_of_restartOnlyFields {old l : ListenerEntry} (hn : old.name = l.name)
    (hl : old.listen = l.listen) (hp : old.settings.protocol = l.settings.protocol)
    (h : restartOnlyFieldsChanged old.settings l.settings = false) :
    ListenerRuntime.build old (tlsAcceptor old) = .build l (tlsAcceptor l) := by
  simp only [restartOnlyFieldsChanged, Bool.or_eq_false_iff, bne_eq_false_iff_eq] at h
  obtain ⟨⟨⟨⟨⟨⟨⟨⟨⟨⟨⟨htl, -⟩, hh⟩, hm⟩, hpe⟩, hhe⟩, hw⟩, hc⟩, hpr⟩, ht⟩, hci⟩, hk⟩ := h
  have he : old.settings.http2Enabled = l.settings.http2Enabled := by
    rw [ListenerSettings.http2Enabled, ListenerSettings.http2Enabled, hp, htl, hh]
  have ha : tlsAcceptor old = tlsAcceptor l := by
    rw [tlsAcceptor, tlsAcceptor, htl, alpnProtocols, alpnProtocols, hp, he]
  simp only [ListenerRuntime.build, ListenerSettings.effectiveMaxConnections,
    ListenerSettings.effectiveMaxConnectionsPerIp, ListenerSettings.proxyProtocolTimeout,
    ListenerSettings.headerReadTimeout, ListenerSettings.writeTimeout, hn, hl, hp,
    hh, hm, hpe, hhe, hw, hc, hpr, ht, hci, hk,
    he, ha]

lemma of_changedListeners {current : List ListenerEntry} : ∀ {ls changed : List ListenerEntry},
    changedListeners current ls = .ok changed → changed.Sublist ls ∧
      ∀ l ∈ ls, ∃ old, current.find? (fun old => old.name = l.name) = some old ∧
        restartOnlyFieldsChanged old.settings l.settings = false ∧ (l ∉ changed → old = l)
  | [], changed, h => by
    cases h
    exact ⟨.refl _, by simp⟩
  | l :: ls, changed, h => by
    rw [changedListeners] at h
    cases hf : current.find? fun old => old.name = l.name with
    | none =>
      rw [hf] at h
      cases h
    | some old =>
      simp only [hf, Except.seq_eq_ok_iff, refuseReload_eq_ok_iff] at h
      obtain ⟨hr, h⟩ := h
      obtain ⟨rest, hre, h⟩ := Except.bind_eq_ok_iff.mp h
      cases h
      obtain ⟨hsu, hk⟩ := of_changedListeners hre
      have hst : ∀ {x : ListenerEntry}, x ∉ (if old != l then l :: rest else rest) →
          x ∉ rest := by
        intro x hx hm
        split_ifs at hx
        · exact hx (mem_cons_of_mem _ hm)
        · exact hx hm
      constructor
      · split_ifs
        · exact hsu.cons_cons l
        · exact hsu.cons l
      · refine forall_mem_cons.mpr ⟨⟨old, hf, hr, fun hl => ?_⟩, fun x hx => ?_⟩
        · split_ifs at hl with hne
          · exact absurd mem_cons_self hl
          · exact SoundBEq.eq_of_bne_eq_false (by simpa using hne)
        · obtain ⟨old', hf', hr', hs⟩ := hk x hx
          exact ⟨old', hf', hr', fun hx => hs (hst hx)⟩

lemma refusesOnly_changedListeners {current : List ListenerEntry} : ∀ {ls : List ListenerEntry},
    (∀ l ∈ ls, ∃ old ∈ current, old.name = l.name) → RefusesOnly (changedListeners current ls)
  | [], _ => .ok []
  | l :: ls, h => by
    obtain ⟨old, ho, hn⟩ := h l mem_cons_self
    have hs : (current.find? fun old => old.name = l.name).isSome = true :=
      List.find?_isSome.mpr ⟨old, ho, by simpa using hn⟩
    obtain ⟨found, hf⟩ := Option.isSome_iff_exists.mp hs
    rw [changedListeners, hf]
    refine (RefusesOnly.refuseReload _ _).bind fun _ _ => ?_
    refine (refusesOnly_changedListeners fun x hx => h x (mem_cons_of_mem _ hx)).bind ?_
    exact fun changed _ => .ok _

lemma get_identities {cfg : AppConfig} (hn : (cfg.listeners.map fun l => l.name).Nodup)
    {name : String} {identity : Protocol × SocketAddr} :
    (identities cfg).get name = some identity ↔
      ∃ l ∈ cfg.listeners, l.name = name ∧ (l.settings.protocol, l.listen) = identity := by
  have hk : ((cfg.listeners.map fun l => (l.name, l.settings.protocol, l.listen)).map
      fun e => e.1).Nodup := by
    rw [map_map]
    exact hn
  rw [identities, AList.get_foldl_insert _ _ hk]
  simp

/-- **The plan of a reload** from one configuration to another. -/
structure Planned (new current : AppConfig) (changed : List ListenerEntry) : Prop where
  cluster : new.cluster = current.cluster
  logging : new.sections.logging = current.sections.logging
  sublist : changed.Sublist new.listeners
  known : ∀ l ∈ new.listeners, ∃ old ∈ current.listeners, old.name = l.name ∧
    old.settings.protocol = l.settings.protocol ∧
    ListenerRuntime.build old (tlsAcceptor old) = .build l (tlsAcceptor l) ∧ (l ∉ changed → old = l)
  kept : ∀ old ∈ current.listeners, ∃ l ∈ new.listeners, old.name = l.name

section

variable {new current : AppConfig}
  (hnew : (new.listeners.map fun l => l.name).Nodup)
  (hcu : (current.listeners.map fun l => l.name).Nodup)

include hnew hcu

lemma exists_same_identity (h : (identities current).sameEntries (identities new) = true) :
    (∀ l ∈ new.listeners, ∃ old ∈ current.listeners, old.name = l.name ∧
      old.settings.protocol = l.settings.protocol ∧ old.listen = l.listen) ∧
    ∀ old ∈ current.listeners, ∃ l ∈ new.listeners, old.name = l.name := by
  have hg := AList.get_eq_of_sameEntries h
  constructor
  · intro l hl
    have hid := (get_identities hnew).mpr ⟨l, hl, rfl, rfl⟩
    rw [← hg] at hid
    obtain ⟨old, ho, hn, heq⟩ := (get_identities hcu).mp hid
    obtain ⟨hp, hli⟩ := Prod.mk.inj heq
    exact ⟨old, ho, hn, hp, hli⟩
  · intro old ho
    have hid := (get_identities hcu).mpr ⟨old, ho, rfl, rfl⟩
    rw [hg] at hid
    obtain ⟨l, hl, hn, -⟩ := (get_identities hnew).mp hid
    exact ⟨l, hl, hn.symm⟩

lemma refusesOnly_planReload : RefusesOnly (planReload new current) := by
  refine RefusesOnly.bind ?_ fun _ _ => (RefusesOnly.refuseReload _ _).bind fun _ hs => ?_
  · unfold compareSections
    refine (RefusesOnly.refuseReload _ _).bind fun _ _ => ?_
    refine (RefusesOnly.refuseReload _ _).bind fun _ _ => ?_
    refine (RefusesOnly.refuseReload _ _).bind fun _ _ => ?_
    exact (RefusesOnly.refuseReload _ _).bind fun _ _ => .refuseReload _ _
  · refine refusesOnly_changedListeners fun l hl => ?_
    have hid := refuseReload_eq_ok_iff.mp hs
    obtain ⟨old, ho, hn, -⟩ := (exists_same_identity hnew hcu (by simpa using hid)).1 l hl
    exact ⟨old, ho, hn⟩

lemma planned_of_planReload {changed : List ListenerEntry}
    (h : planReload new current = .ok changed) : Planned new current changed := by
  unfold planReload compareSections at h
  simp only [Except.seq_eq_ok_iff, refuseReload_eq_ok_iff, Bool.not_eq_false'] at h
  obtain ⟨⟨-, -, hcl, hlo, -⟩, hs, hc⟩ := h
  obtain ⟨hk, hke⟩ := exists_same_identity hnew hcu hs
  obtain ⟨hsu, hli⟩ := of_changedListeners hc
  refine ⟨SoundBEq.eq_of_bne_eq_false hcl, SoundBEq.eq_of_bne_eq_false hlo, hsu,
    fun l hl => ?_, hke⟩
  obtain ⟨old, ho, hn, hp, hlis⟩ := hk l hl
  obtain ⟨found, hf, hr, hu⟩ := hli l hl
  -- the listener that is found by its name is the one with its identity
  have heq : found = old := by
    refine inj_on_of_nodup_map hcu (mem_of_find?_eq_some hf) ho ?_
    have hn' : found.name = l.name := by simpa using List.find?_some hf
    exact hn'.trans hn.symm
  subst heq
  exact ⟨found, ho, hn, hp, build_eq_of_restartOnlyFields hn hlis hp hr, hu⟩

end

/-! ## What is swapped in -/

structure Prepared.For (ext : Externals) (new : AppConfig) (clusterNode : Bool)
    (l : ListenerEntry) (p : Prepared) : Prop where
  name : p.name = l.name
  protocol : p.context.settings.protocol = l.settings.protocol
  view : ∃ fresh, buildContext ext l l.settings.backendTls clusterNode new.cluster
    new.sections.logging none 0 = .ok fresh ∧ p.context.view = fresh.view ∧
      p.context.core.Furnished ext.scaledCooldown

/-- **A reload that is ready** to be swapped in. -/
structure Ready (ext : Externals) (new current : AppConfig) (clusterNode : Bool)
    (changed : List ListenerEntry) (prepared : List Prepared) : Prop where
  plan : Planned new current changed
  names : prepared.map (fun p => p.name) = changed.map fun l => l.name
  complete : ∀ l ∈ changed, ∃ p ∈ prepared, p.For ext new clusterNode l
  sound : ∀ p ∈ prepared, ∃ l ∈ changed, p.For ext new clusterNode l

section

variable {ext : Externals} {files : TlsFiles} {new current : AppConfig} {nanos : ℕ}
  {st : ReloadState} {changed : List ListenerEntry}

lemma exists_prepareListener {l : ListenerEntry}
    (h : l.settings.validate ext.crates = .ok ()) :
    ∃ p, prepareListener ext new current nanos st l l.settings.backendTls = .ok p ∧
      p.For ext new st.clusterNode l := by
  obtain ⟨settings, hp, hc⟩ := exists_buildContext h st.clusterNode new.cluster new.sections.logging
  set carryDnsBackends := l.settings.dnsDiscovery.isSome && current.listeners.any fun old =>
    old.name = l.name && old.settings.dnsDiscovery = l.settings.dnsDiscovery
  set previous := (st.listeners.get l.name).map fun ctx =>
    PreviousListenerState.ofContext ctx carryDnsBackends
  obtain ⟨tasks, ht⟩ := exists_spawnListenerTasks h hp previous nanos
  refine ⟨⟨l.name, ⟨settings, l.settings.dnsDiscovery,
    buildListenerCore ext.scaledCooldown l previous nanos⟩, tasks⟩, ?_, rfl, hp,
    _, hc none 0, ?_⟩
  · refine Except.bind_eq_ok_iff.mpr ⟨_, Except.mapError_eq_ok_iff.mpr (hc _ _), ?_⟩
    exact Except.bind_eq_ok_iff.mpr ⟨tasks, Except.mapError_eq_ok_iff.mpr ht, rfl⟩
  · exact ⟨congrArg (ListenerView.mk settings l.settings.dnsDiscovery)
      (view_buildListenerCore previous nanos ext.scaledCooldown l),
      furnished_buildListenerCore previous nanos ext.scaledCooldown l⟩

lemma name_of_prepareListener {l : ListenerEntry} {connector : Option BackendTlsConfig}
    {p : Prepared} (h : prepareListener ext new current nanos st l connector = .ok p) :
    p.name = l.name := by
  obtain ⟨context, -, h⟩ := Except.bind_eq_ok_iff.mp h
  obtain ⟨tasks, -, h⟩ := Except.bind_eq_ok_iff.mp h
  cases h
  rfl

lemma refusesOnly_resolveConnector (l : ListenerEntry) :
    RefusesOnly (resolveConnector files l) := by
  intro outcome h
  unfold resolveConnector at h
  cases hc : buildBackendConnector files l with
  | ok connector =>
    rw [hc] at h
    cases h
  | error err =>
    rw [hc] at h
    obtain rfl := Except.error.inj h
    exact ⟨_, rfl⟩

lemma prepareReload_eq {connectors : List (Option BackendTlsConfig)}
    (h : changed.mapM (resolveConnector files) = .ok connectors) :
    (changed.zip connectors).mapM
        (fun x => prepareListener ext new current nanos st x.1 x.2)
      = changed.mapM fun l =>
          prepareListener ext new current nanos st l l.settings.backendTls := by
  have hc : connectors.map id = changed.map fun l => l.settings.backendTls :=
    Except.map_of_mapM_eq_ok (fun l connector h =>
      eq_of_buildBackendConnector l connector (Except.mapError_eq_ok_iff.mp h)) h
  rw [map_id] at hc
  have hz : changed.zip connectors = changed.map fun l => (l, l.settings.backendTls) := by
    rw [hc]
    nth_rewrite 1 [← map_id changed]
    exact zip_map' ..
  rw [hz, mapM_map]
  rfl

variable (hva : ∀ l ∈ changed, l.settings.validate ext.crates = .ok ())

include hva

lemma refusesOnly_prepareReload :
    RefusesOnly (prepareReload ext files new current nanos st changed) := by
  refine (RefusesOnly.mapM fun l _ => refusesOnly_resolveConnector l).bind fun connectors hc => ?_
  rw [prepareReload_eq hc]
  refine RefusesOnly.mapM fun l hl => ?_
  obtain ⟨p, hp, -⟩ := exists_prepareListener (hva l hl)
  rw [hp]
  exact .ok p

lemma ready_of_prepareReload {prepared : List Prepared} (hpl : Planned new current changed)
    (h : prepareReload ext files new current nanos st changed = .ok prepared) :
    Ready ext new current st.clusterNode changed prepared := by
  obtain ⟨connectors, hc, h⟩ := Except.bind_eq_ok_iff.mp h
  rw [prepareReload_eq hc] at h
  obtain ⟨hle, hr⟩ := Except.mem_of_mapM_eq_ok h
  have hf : ∀ l ∈ changed, ∀ p,
      prepareListener ext new current nanos st l l.settings.backendTls = .ok p →
        p.For ext new st.clusterNode l := by
    intro l hl p hp
    obtain ⟨p', hp', hf⟩ := exists_prepareListener (hva l hl)
    cases hp'.symm.trans hp
    exact hf
  refine ⟨hpl, Except.map_of_mapM_eq_ok (fun l p => name_of_prepareListener) h, fun l hl => ?_,
    fun p hp => ?_⟩
  · obtain ⟨p, hp, hlp⟩ := hle l hl
    exact ⟨p, hp, hf l hl p hlp⟩
  · obtain ⟨l, hl, hlp⟩ := hr p hp
    exact ⟨l, hl, hf l hl p hlp⟩

end

lemma swapContexts_eq : ∀ (prepared : List Prepared) (st : ReloadState),
    (prepared.map fun p => p.name).Nodup →
    (∀ p ∈ prepared, (st.listeners.get p.name).map (fun ctx => ctx.settings.protocol)
      = some p.context.settings.protocol) →
    ∃ tasks, swapContexts prepared st = (.ok (prepared.map fun p => p.name),
      { st with
        listeners := (prepared.map fun p => (p.name, p.context)).foldl
          (fun t e => t.insert e.1 e.2) st.listeners
        tasks := tasks })
  | [], st, _, _ => ⟨st.tasks, rfl⟩
  | p :: rest, st, hn, h => by
    obtain ⟨hp, hn⟩ := nodup_cons.mp hn
    obtain ⟨hf, hr⟩ := forall_mem_cons.mp h
    obtain ⟨tasks, ht⟩ := swapContexts_eq rest { st with
        listeners := st.listeners.insert p.name p.context
        tasks := st.tasks.insert p.name p.tasks } hn fun q hq => by
      have hne : q.name ≠ p.name := fun heq => hp (mem_map.mpr ⟨q, hq, heq⟩)
      rw [AList.get_insert_of_ne _ _ hne]
      exact hr q hq
    refine ⟨tasks, ?_⟩
    rw [swapContexts, if_pos hf, ht]
    rfl

/-- **One swap** makes what runs the old configuration run the new one. -/
lemma ReloadState.Runs.swap {ext : Externals} {new current : AppConfig}
    {changed : List ListenerEntry} {prepared : List Prepared} {st : ReloadState}
    (hst : st.Runs ext current) (hnew : (new.listeners.map fun l => l.name).Nodup)
    (h : Ready ext new current st.clusterNode changed prepared) :
    ∃ st', swapContexts prepared st = (.ok (changed.map fun l => l.name), st') ∧
      st'.clusterNode = st.clusterNode ∧ st'.config = st.config ∧ st'.Runs ext new := by
  obtain ⟨hpla, hn, hfo, hf'⟩ := h
  have hno : (prepared.map fun p => p.name).Nodup := hn ▸ hnew.sublist (hpla.sublist.map _)
  obtain ⟨tasks, hsw⟩ := swapContexts_eq prepared st hno fun p hp => by
    obtain ⟨l, hl, hp⟩ := hf' p hp
    obtain ⟨old, ho, hna, hpr, -⟩ := hpla.known l (hpla.sublist.subset hl)
    obtain ⟨ctx, fresh, hc, hf, hv, -⟩ := hst old ho
    have hs : ctx.settings = fresh.settings := congrArg ListenerView.settings hv
    rw [hp.name, ← hna, hc, Option.map_some, hp.protocol, ← hpr, hs,
      protocol_of_buildContext _ _ hf]
  rw [hn] at hsw
  refine ⟨_, hsw, rfl, rfl, fun l hl => ?_⟩
  have hk : ((prepared.map fun p => (p.name, p.context)).map fun e => e.1).Nodup := by
    rw [map_map]
    exact hno
  by_cases hm : l ∈ changed
  · obtain ⟨p, hp, hpl⟩ := hfo l hm
    obtain ⟨fresh, hf, hv⟩ := hpl.view
    refine ⟨p.context, fresh, (AList.get_foldl_insert _ _ hk).mpr (Or.inl ?_), hf, hv⟩
    exact mem_map.mpr ⟨p, hp, congrArg (·, p.context) hpl.name⟩
  · -- a listener that has not changed keeps its context
    obtain ⟨old, ho, -, -, -, hsa⟩ := hpla.known l hl
    obtain rfl := hsa hm
    obtain ⟨ctx, fresh, hc, hf, hs⟩ := hst old ho
    refine ⟨ctx, fresh, (AList.get_foldl_insert _ _ hk).mpr (Or.inr ⟨?_, hc⟩), ?_, hs⟩
    · intro hin
      rw [map_map] at hin
      have hin' : old.name ∈ changed.map fun l => l.name := hn ▸ hin
      obtain ⟨l', hl', hna⟩ := mem_map.mp hin'
      have heq := inj_on_of_nodup_map hnew (hpla.sublist.subset hl') hl hna
      exact hm (heq ▸ hl')
    · rw [hpla.cluster, hpla.logging]
      exact hf

/-! ## Whole reloads -/

lemma WiredApp.Accepts.of_planned {app : WiredApp} {new current : AppConfig}
    {changed : List ListenerEntry} (h : app.Accepts current)
    (hcu : (current.listeners.map fun l => l.name).Nodup)
    (hp : Planned new current changed) : app.Accepts new := by
  intro rt
  rw [h rt]
  constructor
  · rintro ⟨old, ho, rfl⟩
    obtain ⟨l, hl, hn⟩ := hp.kept old ho
    obtain ⟨old', ho', hn', -, hb, -⟩ := hp.known l hl
    obtain rfl := inj_on_of_nodup_map hcu ho' ho (hn'.trans hn.symm)
    exact ⟨l, hl, hb⟩
  · rintro ⟨l, hl, rfl⟩
    obtain ⟨old, ho, -, -, hb, -⟩ := hp.known l hl
    exact ⟨old, ho, hb.symm⟩

section

variable {ext : Externals} {validateSections : AppConfig → Except ConfigError Unit}

lemma names_of_validate {cfg : AppConfig}
    (h : cfg.validate (ListenerConfig.validate ext.crates) validateSections = .ok ()) :
    (cfg.listeners.map fun l => l.name).Nodup ∧
      ∀ l ∈ cfg.listeners, l.settings.validate ext.crates = .ok () := by
  obtain ⟨-, hn, -, hli, -⟩ := (Config.validate_eq_ok_iff _ _ cfg).mp h
  exact ⟨hn, fun l hl => ListenerConfig.validate_eq_ok_iff.mp (hli l hl)⟩

variable {new current : AppConfig}
  (hnew : new.validate (ListenerConfig.validate ext.crates) validateSections = .ok ())
  (hcu : current.validate (ListenerConfig.validate ext.crates) validateSections = .ok ())

include hnew hcu

lemma applyReload_cases {st : ReloadState} (hst : st.Runs ext current) (files : TlsFiles)
    (nanos : ℕ) :
    (∃ message, applyReload ext files new current nanos st = (.refused message, st)) ∨
    ∃ changed st', Planned new current changed ∧
      applyReload ext files new current nanos st
        = (.applied (changed.map fun l => l.name), st') ∧
      st'.clusterNode = st.clusterNode ∧ (st'.config = new ∨ st' = st) ∧ st'.Runs ext new := by
  obtain ⟨hn, hva⟩ := names_of_validate hnew
  have hn' := (names_of_validate hcu).1
  unfold applyReload
  cases hpl : planReload new current with
  | error outcome =>
    obtain ⟨message, rfl⟩ := refusesOnly_planReload hn hn' outcome hpl
    exact Or.inl ⟨message, rfl⟩
  | ok changed =>
    have hp := planned_of_planReload hn hn' hpl
    cases changed with
    | nil =>
      obtain ⟨st', hs, -, -, hr⟩ := hst.swap hn ⟨hp, (rfl : [].map _ = _), by simp, by simp⟩
      obtain rfl := (Prod.mk.inj hs).2
      exact Or.inr ⟨[], st, hp, rfl, rfl, Or.inr rfl, hr⟩
    | cons l changed =>
      have ha : ∀ x ∈ l :: changed, x.settings.validate ext.crates = .ok () :=
        fun x hx => hva x (hp.sublist.subset hx)
      dsimp only
      cases hpr : prepareReload ext files new current nanos st (l :: changed) with
      | error outcome =>
        obtain ⟨message, rfl⟩ := refusesOnly_prepareReload ha outcome hpr
        exact Or.inl ⟨message, rfl⟩
      | ok prepared =>
        obtain ⟨st', hs, hno, -, hr⟩ := hst.swap hn (ready_of_prepareReload ha hp hpr)
        refine Or.inr ⟨l :: changed, { st' with config := new }, hp, ?_, hno, Or.inl rfl, hr⟩
        dsimp only
        rw [hs]

end

/-! ## A process and its reloads -/

inductive AppEvent
  | reload (files : TlsFiles) (new : AppConfig) (nanos : ℕ)
  | dnsRound (name : String) (round : DnsRound)
  | live (name : String) (ctx : ListenerContext)

/-- The tables have the same entries, and what they hold has the same settings. -/
structure ListenerCore.SameTables (c c' : ListenerCore) : Prop where
  breakers : c.circuitBreakers.Alike Breaker.settings c'.circuitBreakers
  gates : c.backendGates.Alike BackendGate.capacity c'.backendGates
  limits : c.adaptiveLimits.Alike AdaptiveLimit.cfg c'.adaptiveLimits

/-- A reload of an accepted configuration, which is compared with the stored one; a round of the
poller; or any other change of a context's live state, which leaves its settings and those of what
its tables hold. -/
inductive AppStep (ext : Externals) (validateSections : AppConfig → Except ConfigError Unit) :
    WiredApp → AppEvent → WiredApp → Prop
  | reload {app : WiredApp} {files : TlsFiles} {new : AppConfig} {nanos : ℕ}
      (h : new.validate (ListenerConfig.validate ext.crates) validateSections = .ok ()) :
      AppStep ext validateSections app (.reload files new nanos) { app with
        reload := (applyReload ext files new app.reload.config nanos app.reload).2 }
  | dnsRound {app : WiredApp} {name : String} {ctx : ListenerContext} {dns : DnsDiscoveryConfig}
      {round : DnsRound} (h : app.reload.listeners.get name = some ctx)
      (hdns : ctx.dnsDiscovery = some dns) :
      AppStep ext validateSections app (.dnsRound name round) { app with
        reload.listeners := app.reload.listeners.insert name { ctx with
          core := ctx.core.poll ext.scaledCooldown dns round } }
  | live {app : WiredApp} {name : String} {ctx ctx' : ListenerContext}
      (h : app.reload.listeners.get name = some ctx) (hview : ctx'.view = ctx.view)
      (htables : ctx.core.SameTables ctx'.core) :
      AppStep ext validateSections app (.live name ctx') { app with
        reload.listeners := app.reload.listeners.insert name ctx' }

lemma ListenerCore.view_poll (c : ListenerCore) (scaled : HealthCheckConfig → ℕ → ℕ)
    (dns : DnsDiscoveryConfig) (round : DnsRound) :
    (c.poll scaled dns round).view true = c.view true := by
  cases round with
  | lookupFailed => rfl
  | answer addrs =>
    have hf : ∀ (p : BackendPool) (backends : List Backend),
        (p.applyResolved backends).maxEjectedFraction = p.maxEjectedFraction := by
      intro p backends
      unfold BackendPool.applyResolved
      split_ifs
      · rfl
      · rfl
    have ho : ∀ (live : List BackendId) (outlier : Option OutlierDetector),
        (outlier.map fun d => d.reconcile live).map (fun d => d.config)
          = outlier.map fun d => d.config := by
      intro live outlier
      rw [Option.map_map]
      rfl
    simp only [poll, reconcile, ListenerCore.view, PoolCore.view, hf, ho, if_true]

lemma ListenerCore.Furnished.of_sameTables {scaled : HealthCheckConfig → ℕ → ℕ}
    {c c' : ListenerCore} (h : c.Furnished scaled) (hv : c'.view true = c.view true)
    (ht : c.SameTables c') : c'.Furnished scaled := by
  refine ⟨ht.breakers.sound h.breakersSound, ht.gates.sound h.gatesSound,
    ht.limits.sound h.limitsSound, ?_⟩
  obtain ⟨hb, hg, hl⟩ := h.furnishes
  rw [hv]
  refine ⟨fun id settings hid => hb id settings ?_, fun id capacity hid =>
    hg id capacity ?_, fun id cfg hid => hl id cfg ?_⟩
  · exact (ht.breakers.find_eq id).trans hid
  · exact (ht.gates.find_eq id).trans hid
  · exact (ht.limits.find_eq id).trans hid

/-- What a round makes is made of the listener's settings, for backends that DNS has found. -/
lemma ListenerCore.Furnished.poll {scaled : HealthCheckConfig → ℕ → ℕ} {c : ListenerCore}
    (h : c.Furnished scaled) (dns : DnsDiscoveryConfig) (round : DnsRound) :
    (c.poll scaled dns round).Furnished scaled := by
  cases round with
  | lookupFailed => exact h
  | answer addrs =>
    refine ⟨h.breakersSound.reconcile _ _, h.gatesSound.reconcileIf ..,
      h.limitsSound.reconcileIf .., ?_⟩
    obtain ⟨hbr, hg, hl⟩ := h.furnishes
    rw [ListenerCore.view_poll]
    refine ⟨fun id settings hs => ?_, fun id capacity hc => ?_,
      fun id cfg hcf => ?_⟩
    · obtain ⟨breaker, hf, rfl⟩ := Option.map_eq_some_iff.mp hs
      replace hf := (h.breakersSound.find_reconcile _ _ id).symm.trans hf
      split_ifs at hf with hli
      cases ho : c.circuitBreakers.find id with
      | some old =>
        rw [ho] at hf
        cases hf
        exact hbr id _ (Option.mem_map_of_mem Breaker.settings ho)
      | none =>
        rw [ho] at hf
        cases hf
        obtain ⟨b, hb, rfl⟩ := mem_map.mp hli
        obtain ⟨addr, -, rfl⟩ := mem_map.mp hb
        exact .inr ⟨rfl, fun _ _ _ => ⟨addr, rfl⟩⟩
    · obtain ⟨gate, hf, rfl⟩ := Option.map_eq_some_iff.mp hc
      rcases h.gatesSound.of_find_reconcileIf hf with ho | ⟨u, hu, rfl⟩
      · exact hg id _ (Option.mem_map_of_mem BackendGate.capacity ho)
      · exact ⟨u, hu, rfl⟩
    · obtain ⟨limit, hf, rfl⟩ := Option.map_eq_some_iff.mp hcf
      rcases h.limitsSound.of_find_reconcileIf hf with ho | ⟨cfg, ha, rfl⟩
      · exact hl id _ (Option.mem_map_of_mem AdaptiveLimit.cfg ho)
      · exact ha

/-- **A process in order**: it runs its stored configuration, which is an accepted one. -/
structure WiredApp.Consistent (ext : Externals)
    (validateSections : AppConfig → Except ConfigError Unit) (clusterSecret : Bool)
    (app : WiredApp) : Prop where
  valid : app.reload.config.validate (ListenerConfig.validate ext.crates) validateSections = .ok ()
  clusterNode : app.reload.clusterNode = (app.reload.config.cluster.isSome && clusterSecret)
  accepts : app.Accepts app.reload.config
  runs : app.reload.Runs ext app.reload.config

section

variable {ext : Externals} {validateSections : AppConfig → Except ConfigError Unit}
  {clusterSecret : Bool}

lemma ReloadState.Runs.replace {st : ReloadState} {cfg : AppConfig} (h : st.Runs ext cfg)
    {name : String} {ctx ctx' : ListenerContext} (hg : st.listeners.get name = some ctx)
    (hv : ctx'.view = ctx.view) (hf : ctx.core.Furnished ext.scaledCooldown →
      ctx'.core.Furnished ext.scaledCooldown) :
    ({ st with listeners := st.listeners.insert name ctx' }).Runs ext cfg := by
  intro l hl
  obtain ⟨ctx₁, fresh, hc₁, hfr, hv₁, hf₁⟩ := h l hl
  by_cases hn : l.name = name
  · cases hc₁.symm.trans (hn ▸ hg)
    refine ⟨ctx', fresh, ?_, hfr, hv.trans hv₁, hf hf₁⟩
    rw [hn, AList.get_insert, if_pos rfl]
  · exact ⟨ctx₁, fresh, (AList.get_insert_of_ne _ _ hn).trans hc₁, hfr, hv₁, hf₁⟩

lemma WiredApp.Consistent.step {app app' : WiredApp} {e : AppEvent}
    (hs : AppStep ext validateSections app e app')
    (h : app.Consistent ext validateSections clusterSecret) :
    app'.Consistent ext validateSections clusterSecret := by
  cases hs with
  | live hg hv ht =>
    have hco := congrArg (fun v : ListenerView => { v.core with configured := none }) hv
    exact ⟨h.valid, h.clusterNode, h.accepts, h.runs.replace hg hv fun hf =>
      hf.of_sameTables hco ht⟩
  | @dnsRound name ctx dns round hg hd =>
    refine ⟨h.valid, h.clusterNode, h.accepts, h.runs.replace hg ?_ fun hf =>
      hf.poll dns round⟩
    have hv := ctx.core.view_poll ext.scaledCooldown dns round
    simp only [ListenerContext.view, hd, Option.isSome_some, hv]
  | @reload files new nanos hnew =>
    rcases applyReload_cases hnew h.valid h.runs files nanos with
      ⟨message, ha⟩ | ⟨changed, st', hp, ha, hn, hc, hr⟩
    · rw [ha]
      exact h
    · rw [ha]
      rcases hc with hc | rfl
      · refine ⟨?_, ?_, ?_, ?_⟩
        · rwa [hc]
        · rw [hc, hn, h.clusterNode, hp.cluster]
        · rw [hc]
          exact h.accepts.of_planned (names_of_validate h.valid).1 hp
        · rwa [hc]
      · exact h

lemma WiredApp.Consistent.of_buildApp {files : TlsFiles} {cfg : AppConfig} {app : WiredApp}
    (hva : cfg.validate (ListenerConfig.validate ext.crates) validateSections = .ok ())
    (h : buildApp ext files cfg clusterSecret = .ok app) :
    app.Consistent ext validateSections clusterSecret := by
  obtain ⟨hc, hn, ha, hr⟩ := Server.of_buildApp (names_of_validate hva).1 h
  refine ⟨?_, ?_, ?_, fun l hl => ?_⟩
  · rwa [hc]
  · rw [hn, hc]
  · rwa [hc]
  · rw [hc] at hl ⊢
    obtain ⟨ctx, hct, hb⟩ := hr l hl
    exact ⟨ctx, ctx, hct, by rwa [hn], rfl, furnished_of_buildContext hb⟩

end

/-! ### A change of one setting -/

def webListener (rate : ℚ) : ListenerEntry where
  name := "web"
  listen := "0.0.0.0:8080"
  settings := .withDefaults .http [⟨"web1", "127.0.0.1:9001", 1, none, 0, none⟩]
    (.withDefaults (some "/health") 2000 3 5000) ⟨.sourceIp, .finite rate, 100, 100000⟩

def webConfig (rate : ℚ) : AppConfig where
  listeners := [webListener rate]
  cluster := none
  sections := ⟨⟨10000, none⟩, none, ⟨.json, false, .finite (1 / 100)⟩, none⟩

def plainExternals : Externals where
  crates := ⟨fun _ => true, fun _ => true, fun _ => true, some⟩
  scaledCooldown _ _ := 0
  windowLimit _ _ := 0

def readableFiles : TlsFiles where
  bootstrap _ _ := .ok ()
  acceptor _ := .ok ()
  connector _ := .ok ()
  peer _ := .ok ()

lemma exists_webApp : ∃ app, buildApp plainExternals readableFiles (webConfig 50) false = .ok app :=
  ⟨_, rfl⟩

end LoadBalancer.Server
