import LoadBalancer.Lib.Interleaving
import LoadBalancer.Server.FreshStart

/-!
# Racing reloads

A call of `apply_reload` takes four steps: its caller reads the stored configuration, the new
contexts are prepared, they are swapped in under the lock of the tasks, and the new configuration
is stored under a lock of its own.  Between them other calls take theirs.

Nothing makes the last two one step, and nothing checks that what was read is still what is stored:
two calls that swap in one order and store in the other leave a configuration that is not running.
The calls of `spawn_sighup_reloader` come one after another and cannot do this (`serial_of_solo`).
-/

namespace LoadBalancer.Server

open LoadBalancer.Core Interleaving Function

/-! ## The steps of a reload -/

/-- Where a call of `apply_reload` is. -/
inductive ReloadPoint
  | requested (files : TlsFiles) (new : AppConfig) (nanos : ℕ)
  | comparing (files : TlsFiles) (new current : AppConfig) (nanos : ℕ)
  | swapping (new current : AppConfig) (prepared : List Prepared)
  | storing (new : AppConfig)

def reloadNext (ext : Externals) (st : ReloadState) : ReloadPoint → ReloadState × Option ReloadPoint
  | .requested files new nanos => (st, some (.comparing files new st.config nanos))
  | .comparing files new current nanos =>
    match planReload new current with
    | .error _ => (st, none)
    | .ok [] => (st, none)
    | .ok changed =>
      match prepareReload ext files new current nanos st changed with
      | .error _ => (st, none)
      | .ok prepared => (st, some (.swapping new current prepared))
  | .swapping new _ prepared =>
    match swapContexts prepared st with
    | (.error _, st) => (st, none)
    | (.ok _, st) => (st, some (.storing new))
  | .storing new => ({ st with config := new }, none)

/-- **A reload that nothing disturbs is atomic**: its steps do what `applyReload` does. -/
theorem alone_applyReload (ext : Externals) (files : TlsFiles) (new : AppConfig) (nanos : ℕ)
    (st : ReloadState) :
    Alone (stepOf (reloadNext ext)) st (.requested files new nanos)
      (applyReload ext files new st.config nanos st).2 := by
  refine .more rfl ?_
  unfold applyReload
  cases hp : planReload new st.config with
  | error outcome => exact .last (by simp [stepOf, reloadNext, hp])
  | ok changed =>
    cases changed with
    | nil => exact .last (by simp [stepOf, reloadNext, hp])
    | cons l changed =>
      dsimp only
      cases hpr : prepareReload ext files new st.config nanos st (l :: changed) with
      | error outcome => exact .last (by simp [stepOf, reloadNext, hp, hpr])
      | ok prepared =>
        have hc : stepOf (reloadNext ext) st (.comparing files new st.config nanos) st
            (some (.swapping new st.config prepared)) := by
          simp only [stepOf, reloadNext, hp, hpr]
        refine .more hc ?_
        dsimp only
        rcases hs : swapContexts prepared st with ⟨outcome | names, st'⟩
        · exact .last (by simp [stepOf, reloadNext, hs])
        · have hst : stepOf (reloadNext ext) st (.swapping new st.config prepared) st'
              (some (.storing new)) := by
            simp only [stepOf, reloadNext, hs]
          exact .more hst (.last rfl)

/-! ## Which runs are considered -/

section

variable (ext : Externals) (validateSections : AppConfig → Except ConfigError Unit)

/-- A configuration that has been loaded. -/
def Accepted (cfg : AppConfig) : Prop :=
  cfg.validate (ListenerConfig.validate ext.crates) validateSections = .ok ()

def ReloadPoint.Starts : ReloadPoint → Prop
  | .requested _ new _ => Accepted ext validateSections new
  | _ => False

/-- A swap finds the configuration its call was given, and no other call that is yet to store its
own. -/
def Serial (c : Interleaving.Config ReloadState ReloadPoint) : Event ReloadPoint → Prop
  | .spawn _ _ => True
  | .step i => ∀ new current prepared, c.threads i = some (.swapping new current prepared) →
      c.shared.config = current ∧ ∀ j other, c.threads j ≠ some (.storing other)

def RaceStep (ok : Interleaving.Config ReloadState ReloadPoint → Event ReloadPoint → Prop) :
    Interleaving.Config ReloadState ReloadPoint → Event ReloadPoint →
      Interleaving.Config ReloadState ReloadPoint → Prop :=
  Scheduled ok (ReloadPoint.Starts ext validateSections) (stepOf (reloadNext ext))

/-! ## The invariant -/

def ReloadPoint.Sound (clusterNode : Bool) : ReloadPoint → Prop
  | .requested _ new _ => Accepted ext validateSections new
  | .comparing _ new current _ =>
    Accepted ext validateSections new ∧ Accepted ext validateSections current
  | .swapping new current prepared =>
    Accepted ext validateSections new ∧
      ∃ changed, Ready ext new current clusterNode changed prepared
  | .storing new => Accepted ext validateSections new

/-- **What runs**: the configuration that is about to be stored, or else the stored one. -/
structure Settled (c : Interleaving.Config ReloadState ReloadPoint) : Prop where
  one : ∀ i j new new', c.threads i = some (.storing new) → c.threads j = some (.storing new') →
    i = j
  swapped : ∀ i new, c.threads i = some (.storing new) → c.shared.Runs ext new
  stored : (∀ i new, c.threads i ≠ some (.storing new)) → c.shared.Runs ext c.shared.config

structure RaceInvariant (c : Interleaving.Config ReloadState ReloadPoint) : Prop where
  accepted : Accepted ext validateSections c.shared.config
  sound : ∀ i, ∀ p ∈ c.threads i, p.Sound ext validateSections c.shared.clusterNode
  settled : Settled ext c

end

/-! ## One step -/

section

variable {ext : Externals} {validateSections : AppConfig → Except ConfigError Unit}
  {c : Interleaving.Config ReloadState ReloadPoint}

variable {prepared : List Prepared} {new : AppConfig} {o : Option ReloadPoint}
  {st' st : ReloadState} {current : AppConfig} (h : RaceInvariant ext validateSections c)

lemma Settled.update (h : Settled ext c) {i : ℕ}
    (hb : ∀ new, c.threads i ≠ some (.storing new)) (ha : ∀ new, o ≠ some (.storing new)) :
    Settled ext { c with threads := Function.update c.threads i o } := by
  have hs : ∀ {j : ℕ} {new : AppConfig},
      Function.update c.threads i o j = some (.storing new) ↔
        c.threads j = some (.storing new) := by
    intro j new
    by_cases hj : j = i
    · subst hj
      rw [update_self]
      exact iff_of_false (ha new) (hb new)
    · rw [update_of_ne hj]
  exact ⟨fun j k new new' hj hk => h.one j k new new' (hs.mp hj) (hs.mp hk),
    fun j new hj => h.swapped j new (hs.mp hj),
    fun hn => h.stored fun j new hj => hn j new (hs.mpr hj)⟩

lemma of_reloadNext_comparing {files : TlsFiles} {nanos : ℕ}
    (h : reloadNext ext st (.comparing files new current nanos) = (st', o)) :
    st' = st ∧ ∀ q ∈ o, ∃ changed prepared, planReload new current = .ok changed ∧
      prepareReload ext files new current nanos st changed = .ok prepared ∧
      q = .swapping new current prepared := by
  cases hpl : planReload new current with
  | error outcome =>
    simp only [reloadNext, hpl] at h
    cases h
    exact ⟨rfl, by simp⟩
  | ok changed =>
    cases changed with
    | nil =>
      simp only [reloadNext, hpl] at h
      cases h
      exact ⟨rfl, by simp⟩
    | cons l changed =>
      cases hp : prepareReload ext files new current nanos st (l :: changed) with
      | error outcome =>
        simp only [reloadNext, hpl, hp] at h
        cases h
        exact ⟨rfl, by simp⟩
      | ok prepared =>
        simp only [reloadNext, hpl, hp] at h
        cases h
        refine ⟨rfl, fun q hq => ?_⟩
        cases hq
        exact ⟨l :: changed, prepared, rfl, hp, rfl⟩

lemma sound_swapping {files : TlsFiles} {nanos : ℕ} {changed : List ListenerEntry}
    (hne : Accepted ext validateSections new) (hc : Accepted ext validateSections current)
    (hpl : planReload new current = .ok changed)
    (hpr : prepareReload ext files new current nanos st changed = .ok prepared) :
    (ReloadPoint.swapping new current prepared).Sound ext validateSections st.clusterNode := by
  obtain ⟨hn, hv⟩ := names_of_validate hne
  have hp := planned_of_planReload hn (names_of_validate hc).1 hpl
  exact ⟨hne, changed, ready_of_prepareReload
    (fun l hl => hv l (hp.sublist.subset hl)) hp hpr⟩

lemma of_reloadNext_swapping (h : reloadNext ext st (.swapping new current prepared) = (st', o)) :
    st' = (swapContexts prepared st).2 ∧ ∀ q ∈ o, q = .storing new := by
  rcases hs : swapContexts prepared st with ⟨outcome | names, st₁⟩
  · simp only [reloadNext, hs] at h
    cases h
    exact ⟨rfl, by simp⟩
  · simp only [reloadNext, hs] at h
    cases h
    exact ⟨rfl, by simp⟩

/-- **A swap** that finds the configuration its call was given makes the new one run. -/
lemma runs_of_reloadNext_swapping (hst : st.Runs ext current)
    (hs : (ReloadPoint.swapping new current prepared).Sound ext validateSections st.clusterNode)
    (h : reloadNext ext st (.swapping new current prepared) = (st', o)) :
    st'.clusterNode = st.clusterNode ∧ st'.config = st.config ∧ st'.Runs ext new ∧
      o = some (.storing new) := by
  obtain ⟨hne, changed, hr⟩ := hs
  obtain ⟨st₁, hsw, hn, hc, hru⟩ := hst.swap (names_of_validate hne).1 hr
  simp only [reloadNext, hsw] at h
  cases h
  exact ⟨hn, hc, hru, rfl⟩

include h

lemma RaceInvariant.spawn {i : ℕ} {p : ReloadPoint} (hf : c.threads i = none)
    (hp : p.Starts ext validateSections) :
    RaceInvariant ext validateSections
      { c with threads := Function.update c.threads i (some p) } := by
  cases p with
  | requested files new nanos =>
    refine ⟨h.accepted, forall_update (fun q hq => ?_) fun j _ => h.sound j,
      h.settled.update (by simp [hf]) (by simp)⟩
    cases hq
    exact hp
  | comparing | swapping | storing => exact hp.elim

lemma RaceInvariant.step {i : ℕ} {p : ReloadPoint} (hser : Serial c (.step i))
    (hp : c.threads i = some p) (hst : reloadNext ext c.shared p = (st', o)) :
    RaceInvariant ext validateSections ⟨st', Function.update c.threads i o⟩ := by
  have hs := h.sound i p hp
  cases p with
  | requested files new nanos =>
    cases hst
    refine ⟨h.accepted, forall_update (fun q hq => ?_) fun j _ => h.sound j,
      h.settled.update (by simp [hp]) (by simp)⟩
    cases hq
    exact ⟨hs, h.accepted⟩
  | comparing files new current nanos =>
    obtain ⟨rfl, hnex⟩ := of_reloadNext_comparing hst
    refine ⟨h.accepted, forall_update (fun q hq => ?_) fun j _ => h.sound j,
      h.settled.update (by simp [hp]) fun new' hq => ?_⟩
    · obtain ⟨changed, prepared, hpl, hpr, rfl⟩ := hnex q hq
      exact sound_swapping hs.1 hs.2 hpl hpr
    · obtain ⟨_, _, -, -, hsw⟩ := hnex _ hq
      cases hsw
  | swapping new current prepared =>
    obtain ⟨rfl, ho⟩ := hser new current prepared hp
    obtain ⟨hno, hc, hr, rfl⟩ := runs_of_reloadNext_swapping (h.settled.stored ho) hs hst
    -- the only call that is about to store is the one that has moved
    have hse : ∀ {j : ℕ} {new' : AppConfig},
        Function.update c.threads i (some (.storing new)) j = some (.storing new') →
          j = i ∧ new' = new := by
      intro j new' hj
      obtain ⟨hji, hnew⟩ | ⟨-, hot⟩ := mem_update_iff.mp hj
      · exact ⟨hji, (ReloadPoint.storing.inj (Option.some.inj hnew)).symm⟩
      · exact absurd hot (ho j new')
    refine ⟨?_, forall_update (fun q hq => ?_) fun j _ q hq => ?_, ?_, ?_, ?_⟩
    · rw [hc]
      exact h.accepted
    · cases hq
      exact hs.1
    · rw [hno]
      exact h.sound j q hq
    · exact fun j k new₁ new₂ hj hk => (hse hj).1.trans (hse hk).1.symm
    · intro j new' hj
      obtain ⟨-, rfl⟩ := hse hj
      exact hr
    · exact fun hn => absurd (update_self ..) (hn i new)
  | storing new =>
    cases hst
    have hn : ∀ j new', Function.update c.threads i none j ≠ some (.storing new') := by
      intro j new' hj
      obtain ⟨-, hj⟩ | ⟨hne, hj⟩ := mem_update_iff.mp hj
      · cases hj
      · exact hne (h.settled.one j i new' new hj hp)
    refine ⟨hs, forall_update (by simp) fun j _ => h.sound j, ?_, ?_, ?_⟩
    · exact fun j k new₁ new₂ hj => absurd hj (hn j new₁)
    · exact fun j new' hj => absurd hj (hn j new')
    · exact fun _ => h.settled.swapped i new hp

end

/-! ## Whole runs -/

section

variable {ext : Externals} {validateSections : AppConfig → Except ConfigError Unit}
  {clusterSecret : Bool} {files₀ : TlsFiles} {cfg₀ : AppConfig} {app₀ app : WiredApp}
  {events : List AppEvent} {schedule : List (Event ReloadPoint)}
  {c : Interleaving.Config ReloadState ReloadPoint}

/-- **Racing reloads settle.**  Calls race in some state of a process.  If every swap finds the
configuration its call was given, and no other call between its swap and its store, then once all
calls have finished the stored configuration is the one that is running. -/
theorem stored_config_runs (hvalid₀ : Accepted ext validateSections cfg₀)
    (hstart : buildApp ext files₀ cfg₀ clusterSecret = .ok app₀)
    (hrun : Run (AppStep ext validateSections) app₀ events app)
    (hrace : Run (RaceStep ext validateSections Serial) (idle app.reload) schedule c)
    (hquiet : Quiescent c) : c.shared.Runs ext c.shared.config := by
  have hco : app.Consistent ext validateSections clusterSecret :=
    hrun.invariant (fun _ _ _ hs h => h.step hs) (.of_buildApp hvalid₀ hstart)
  have hid : RaceInvariant ext validateSections (idle app.reload) :=
    ⟨hco.valid, by simp [idle], by simp [idle], by simp [idle], fun _ => hco.runs⟩
  have hc : RaceInvariant ext validateSections c :=
    config_invariant hid (fun c i p _ hf hp h => h.spawn hf hp)
      (fun c i p st' o hse hp hs h => h.step hse hp hs) hrace
  exact hc.settled.stored fun i new hi => by
    rw [hquiet i] at hi
    cases hi

def ReloadPoint.Given (cfg : AppConfig) : ReloadPoint → Prop
  | .comparing _ _ current _ => cfg = current
  | .swapping _ current _ => cfg = current
  | _ => True

lemma given_reloadNext {p : ReloadPoint} {st st' : ReloadState} {o : Option ReloadPoint}
    (hp : p.Given st.config) (h : reloadNext ext st p = (st', o)) :
    ∀ q ∈ o, q.Given st'.config := by
  intro q hq
  cases p with
  | requested =>
    cases h
    cases hq
    rfl
  | comparing files new current nanos =>
    obtain ⟨rfl, hn⟩ := of_reloadNext_comparing h
    obtain ⟨_, _, -, -, rfl⟩ := hn q hq
    exact hp
  | swapping new current prepared =>
    obtain ⟨-, hn⟩ := of_reloadNext_swapping h
    obtain rfl := hn q hq
    trivial
  | storing new =>
    cases h
    cases hq

/-- **Calls that come one after another** find what they were given, and no other call. -/
lemma serial_of_solo {st : ReloadState}
    (h : Run (RaceStep ext validateSections fun _ e => e.thread = 0) (idle st) schedule c) :
    Run (RaceStep ext validateSections Serial) (idle st) schedule c := by
  have hg : ∀ c e c',
      (Solo c ∧ RaceStep ext validateSections (fun _ e => e.thread = 0) c e c') →
      (∀ p ∈ c.threads 0, p.Given c.shared.config) →
      ∀ p ∈ c'.threads 0, p.Given c'.shared.config := by
    rintro c e c' ⟨-, ht, hs⟩ hc q
    cases e with
    | spawn i p =>
      obtain ⟨-, hp, rfl⟩ := hs
      obtain rfl : i = 0 := ht
      dsimp only
      rw [update_self, Option.mem_some_iff]
      rintro rfl
      cases p with
      | requested => trivial
      | comparing | swapping | storing => exact hp.elim
    | step i =>
      obtain ⟨p, st', o, hp, hn, rfl⟩ := hs
      obtain rfl : i = 0 := ht
      dsimp only
      rw [update_self]
      exact given_reloadNext (hc p hp) hn q
  refine ((run_solo (fun _ _ h => h) h).with_invariant hg (by simp [idle])).mono ?_
  rintro c e c' ⟨hc, hso, ht, hs⟩
  refine ⟨?_, hs⟩
  cases e with
  | spawn i p => trivial
  | step i =>
    obtain rfl : i = 0 := ht
    intro new current prepared hi
    refine ⟨hc _ hi, fun j other hj => ?_⟩
    cases hso.thread_eq hi hj

end

/-! ### Two new rates -/

def newRate (rate : ℚ) : ReloadPoint := .requested readableFiles (webConfig rate) 0

def startsAccepted : ReloadPoint → Bool
  | .requested _ new _ =>
    match new.validate (ListenerConfig.validate plainExternals.crates) fun _ => .ok () with
    | .ok _ => true
    | .error _ => false
  | _ => false

lemma starts_of_startsAccepted (p : ReloadPoint) (h : startsAccepted p = true) :
    p.Starts plainExternals fun _ => .ok () := by
  cases p with
  | requested files new nanos =>
    rw [startsAccepted] at h
    cases hv : new.validate (ListenerConfig.validate plainExternals.crates) fun _ => .ok () with
    | ok => exact hv
    | error err =>
      rw [hv] at h
      cases h
  | comparing | swapping | storing => cases h

def ContextSettings.rateLimiter : ContextSettings → GcraConfig
  | .http settings => settings.rateLimiter
  | .tcp settings => settings.rateLimiter

lemma rateLimiter_of_buildContext {ext : Externals} {l : ListenerEntry}
    {connector : Option BackendTlsConfig} {clusterNode : Bool}
    {cluster : Option (ClusterConfig SocketAddr)} {logging : LoggingConfig}
    {previous : Option PreviousListenerState} {nanos : ℕ} {ctx : ListenerContext}
    (h : buildContext ext l connector clusterNode cluster logging previous nanos = .ok ctx) :
    ctx.settings.rateLimiter = rateLimiterConfig l.settings := by
  obtain ⟨settings, hs, h⟩ := Except.bind_eq_ok_iff.mp h
  cases h
  unfold contextSettings at hs
  cases hp : l.settings.protocol with
  | tcp =>
    rw [hp] at hs
    cases hs
    rfl
  | http =>
    rw [hp] at hs
    obtain ⟨http, hh, hs⟩ := Except.bind_eq_ok_iff.mp hs
    cases hs
    obtain ⟨client, -, hh⟩ := Except.bind_eq_ok_iff.mp hh
    cases hh
    rfl

/-- The rate at which a listener lets requests of one client pass. -/
def ReloadState.liveRate (st : ReloadState) (name : String) : Option ℚ :=
  (st.listeners.get name).bind fun ctx => ctx.settings.rateLimiter.ratePerSec.toRat

lemma ReloadState.Runs.liveRate {ext : Externals} {st : ReloadState} {cfg : AppConfig}
    (h : st.Runs ext cfg) {l : ListenerEntry} (hl : l ∈ cfg.listeners) :
    st.liveRate l.name = l.settings.rateLimit.ratePerSec.toRat := by
  obtain ⟨ctx, fresh, hc, hf, hv, -⟩ := h l hl
  have hs : ctx.settings = fresh.settings := congrArg ListenerView.settings hv
  rw [ReloadState.liveRate, hc, Option.bind_some, hs, rateLimiter_of_buildContext hf]
  rfl

/-- One reload on its own. -/
theorem stored_config_runs_alone :
    ∃ app schedule c, buildApp plainExternals readableFiles (webConfig 50) false = .ok app ∧
      Run (RaceStep plainExternals (fun _ => .ok ()) Serial) (idle app.reload) schedule c ∧
      Quiescent c ∧ c.shared.liveRate "web" = some 60 ∧
      c.shared.Runs plainExternals c.shared.config := by
  obtain ⟨app, ha⟩ := exists_webApp
  have he : (((buildApp plainExternals readableFiles (webConfig 50) false).toOption.bind
      fun app => exec startsAccepted (fun _ e => e.thread = 0) (reloadNext plainExternals)
        (idle app.reload) [.spawn 0 (newRate 60), .step 0, .step 0, .step 0, .step 0]).any
      fun c => (∀ i < 1, (c.threads i).isNone) ∧ c.shared.liveRate "web" = some 60) = true := by
    decide +kernel
  rw [ha] at he
  obtain ⟨c, hru, hd, hr⟩ := exists_run_of_exec starts_of_startsAccepted
    (fun _ _ h => of_decide_eq_true h) he
  have hq : Quiescent c := quiescent_of_run hru (by simp [Event.thread]) hd
  have hv₀ : Accepted plainExternals (fun _ => .ok ()) (webConfig 50) := rfl
  have hs := serial_of_solo hru
  exact ⟨app, _, c, ha, hs, hq, hr, stored_config_runs hv₀ ha .start hs hq⟩

/-- Both calls are given the first configuration.  They swap in one order and store in the other:
the rate of one is stored, and that of the other is running. -/
theorem stored_config_not_running :
    ∃ app schedule c, buildApp plainExternals readableFiles (webConfig 50) false = .ok app ∧
      Run (RaceStep plainExternals (fun _ => .ok ()) fun _ _ => True) (idle app.reload) schedule c ∧
      Quiescent c ∧ c.shared.liveRate "web" = some 70 ∧
      ¬ c.shared.Runs plainExternals c.shared.config := by
  obtain ⟨app, ha⟩ := exists_webApp
  have he : (((buildApp plainExternals readableFiles (webConfig 50) false).toOption.bind
      fun app => exec startsAccepted (fun _ _ => true) (reloadNext plainExternals)
        (idle app.reload) [.spawn 0 (newRate 60), .step 0, .step 0, .spawn 1 (newRate 70), .step 1,
          .step 1, .step 0, .step 1, .step 1, .step 0]).any
      fun c => (∀ i < 2, (c.threads i).isNone) ∧
        c.shared.liveRate "web" = some 70 ∧
        c.shared.config.listeners.map (fun l =>
          (l.name, l.settings.rateLimit.ratePerSec.toRat)) = [("web", some 60)]) = true := by
    decide +kernel
  rw [ha] at he
  obtain ⟨c, hrun, hd, hli, hst⟩ :=
    exists_run_of_exec starts_of_startsAccepted (fun _ _ _ => True.intro) he
  have hq : Quiescent c := quiescent_of_run hrun (by simp [Event.thread]) hd
  refine ⟨app, _, c, ha, hrun, hq, hli, fun hru => ?_⟩
  obtain ⟨l, hl, hw⟩ : ∃ l ∈ c.shared.config.listeners,
      (l.name, l.settings.rateLimit.ratePerSec.toRat) = ("web", some 60) :=
    List.mem_map.mp (hst ▸ List.mem_singleton_self _)
  obtain ⟨hn, hr⟩ := Prod.mk.inj hw
  have hs := hru.liveRate hl
  rw [hn, hli, hr] at hs
  norm_num at hs

end LoadBalancer.Server
