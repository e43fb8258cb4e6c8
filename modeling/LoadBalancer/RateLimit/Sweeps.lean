import LoadBalancer.RateLimit.Gcra

/-!
# What sweeps forget, and what a refusal advises

A sweep drops a key's time only when the clock has reached it.  With a clock that does not go back,
every later request of the key would have counted from its own reading anyway.  A time the clock
has reached is called `Idle` here; two limiters whose times differ only where both are idle decide
alike and stay so (`SameBudget`).

The advice of a refusal is about the same time: `tat + period - tau` is the instant from which a
request is let through.  That instant is not after `tat`, so a sweep before it cannot have dropped
the time.
-/

namespace LoadBalancer.RateLimit

open List

/-- A time that the clock has reached, or none. -/
def Idle (clock : ℕ) (tat : Option ℕ) : Prop := ∀ t ∈ tat, t ≤ clock

lemma Idle.mono {clock clock' : ℕ} {tat : Option ℕ} (h : Idle clock tat) (hle : clock ≤ clock') :
    Idle clock' tat :=
  fun t ht => (h t ht).trans hle

lemma Idle.max_getD {now : ℕ} {tat : Option ℕ} (h : Idle now tat) :
    max (tat.getD now) now = now := by
  cases tat with
  | none => exact max_self now
  | some t => exact max_eq_right (h t rfl)

/-! ## Forgotten times -/

/-- Two times a limiter cannot tell apart from `clock` on. -/
def SameTime (clock : ℕ) (tat tat' : Option ℕ) : Prop :=
  tat = tat' ∨ Idle clock tat ∧ Idle clock tat'

lemma SameTime.mono {clock clock' : ℕ} {tat tat' : Option ℕ} (h : SameTime clock tat tat')
    (hle : clock ≤ clock') : SameTime clock' tat tat' :=
  h.imp_right fun h => ⟨h.1.mono hle, h.2.mono hle⟩

lemma SameTime.admitAt {now : ℕ} {tat tat' : Option ℕ} (h : SameTime now tat tat')
    (period tau : ℕ) :
    let r := Gcra.admitAt (tat.getD now) now period tau
    let r' := Gcra.admitAt (tat'.getD now) now period tau
    r.1 = r'.1 ∧ SameTime now (some r.2) (some r'.2) := by
  rcases h with rfl | ⟨hi, hi'⟩
  · exact ⟨rfl, Or.inl rfl⟩
  dsimp only
  rw [Gcra.admitAt_eq_ite, Gcra.admitAt_eq_ite, hi.max_getD, hi'.max_getD]
  split_ifs with ha
  · exact ⟨rfl, Or.inl rfl⟩
  · -- a refused request leaves an idle time where it is
    have hs : ∀ {o : Option ℕ}, Idle now o → Idle now (some (o.getD now)) := by
      rintro o ho _ ⟨⟩
      exact max_eq_right_iff.mp ho.max_getD
    exact ⟨rfl, Or.inr ⟨hs hi, hs hi'⟩⟩

/-- Two limiters that decide alike from `clock` on. -/
structure SameBudget (clock : ℕ) (g g' : Gcra) : Prop where
  period_eq : g'.period = g.period
  tau_eq : g'.tau = g.tau
  time : ∀ key, SameTime clock (g.state.get key) (g'.state.get key)

namespace SameBudget

variable {clock now : ℕ} {g g' : Gcra}

variable (h : SameBudget clock g g')

include h

lemma mono (hle : clock ≤ now) : SameBudget now g g' :=
  ⟨h.period_eq, h.tau_eq, fun key => (h.time key).mono hle⟩

lemma check (hle : clock ≤ now) (hc : g.BelowCap) (hc' : g'.BelowCap) (key : String) :
    (g.check key now).1 = (g'.check key now).1 ∧
      SameBudget now (g.check key now).2 (g'.check key now).2 := by
  obtain ⟨hd, hp, hta, hs⟩ := Gcra.check_eq hc key now
  obtain ⟨hd', hp', ht', hs'⟩ := Gcra.check_eq hc' key now
  obtain ⟨hsa, ht⟩ := ((h.time key).mono hle).admitAt g.period g.tau
  rw [h.period_eq, h.tau_eq] at hd' hs'
  refine ⟨by rw [hd, hd', hsa], ?_, ?_, fun k => ?_⟩
  · rw [hp', hp, h.period_eq]
  · rw [ht', hta, h.tau_eq]
  · rw [hs, hs', AList.get_insert, AList.get_insert]
    by_cases hk : k = key
    · subst hk
      rw [if_pos rfl, if_pos rfl]
      exact ht
    · rw [if_neg hk, if_neg hk]
      exact (h.time k).mono hle

/-- **A sweep of one of them** forgets idle times only. -/
lemma sweep (hle : clock ≤ now) (idleAfter : ℕ) : SameBudget now (g.sweep now idleAfter) g' := by
  refine ⟨h.period_eq, h.tau_eq, fun key => ?_⟩
  have ht := (h.time key).mono hle
  rcases g.get_sweep now idleAfter key with hs | ⟨hn, hi⟩
  · rw [hs]
    exact ht
  · rw [hn]
    rcases ht with heq | ⟨-, hi'⟩
    · exact Or.inr ⟨nofun, heq ▸ hi⟩
    · exact Or.inr ⟨nofun, hi'⟩

end SameBudget

/-! ## Runs -/

namespace GcraEvent

def key : GcraEvent → Option String
  | check key _ _ => some key
  | sweep .. => none

instance : DecidablePred IsSweep
  | check .. => isFalse id
  | sweep .. => isTrue trivial

end GcraEvent

def distinctKeys (events : List GcraEvent) : Finset String :=
  (events.filterMap GcraEvent.key).toFinset

def withoutSweeps (events : List GcraEvent) : List GcraEvent :=
  events.filter fun e => ¬ e.IsSweep

section

variable {events : List GcraEvent} {g g' : Gcra} {e : GcraEvent}

lemma distinctKeys_snoc (events : List GcraEvent) (e : GcraEvent) :
    distinctKeys (events ++ [e]) = distinctKeys events ∪ e.key.toFinset := by
  rw [distinctKeys, filterMap_append, toFinset_append]
  cases e <;> rfl

def Counted (g : Gcra) : Prop := g.tracked = g.state.size

lemma Counted.check (h : Counted g) (key : String) (now : ℕ) : Counted (g.check key now).2 := by
  rw [Counted, Gcra.check_eq_insert]
  dsimp only
  split_ifs with hm
  · rw [AList.size_insert_of_mem _ hm]
    exact h
  · rw [AList.size_insert_of_notMem _ hm]
    exact congrArg (· + 1) h

lemma GcraEvent.Step.counted (h : e.Step g g') (hc : Counted g) : Counted g' := by
  cases e with
  | check key now decision =>
    obtain ⟨-, rfl⟩ := step_check_iff.mp h
    exact hc.check key now
  | sweep now idleAfter =>
    obtain rfl : g.sweep now idleAfter = g' := h
    rfl

/-- A limiter that has stored nothing but times of the run's own keys. -/
structure Fits (maxTrackedKeys : ℕ) (events : List GcraEvent) (g : Gcra) : Prop where
  counted : Counted g
  cap_eq : g.maxTrackedKeys = max maxTrackedKeys 1
  stored : ∀ key ∈ g.state, key ∈ distinctKeys events

variable {maxTrackedKeys : ℕ}

lemma Fits.belowCap (h : Fits maxTrackedKeys events g)
    (hk : (distinctKeys events).card < maxTrackedKeys) : g.BelowCap := by
  have hsu : g.state.keys.toFinset ⊆ distinctKeys events := fun key hke =>
    h.stored key (AList.mem_keys.mpr (mem_toFinset.mp hke))
  have hs : g.state.size ≤ (distinctKeys events).card := by
    rw [AList.size_eq_length_keys, ← toFinset_card_of_nodup g.state.keys_nodup]
    exact Finset.card_le_card hsu
  have hc : g.tracked = g.state.size := h.counted
  rw [Gcra.BelowCap, hc, h.cap_eq]
  exact lt_max_of_lt_left (hs.trans_lt hk)

lemma Fits.step (h : Fits maxTrackedKeys events g) (hc : g.BelowCap) (hs : e.Step g g') :
    Fits maxTrackedKeys (events ++ [e]) g' := by
  refine ⟨hs.counted h.counted, hs.settings_eq.2.2.trans h.cap_eq, fun k hk => ?_⟩
  rw [distinctKeys_snoc, Finset.mem_union]
  cases e with
  | check key now decision =>
    obtain ⟨-, rfl⟩ := GcraEvent.step_check_iff.mp hs
    rw [(Gcra.check_eq hc key now).2.2.2, AList.mem_insert] at hk
    rcases hk with rfl | hk
    · exact Or.inr (by simp [GcraEvent.key])
    · exact Or.inl (h.stored k hk)
  | sweep now idleAfter =>
    obtain rfl : g.sweep now idleAfter = g' := hs
    obtain ⟨tat, ht⟩ := AList.exists_get_of_mem hk
    have ho := (AList.get_retain_eq_some_iff _ g.state k tat).mp ht
    exact Or.inl (h.stored k (AList.mem_of_get_eq_some ho.1))

/-- A limiter that has served the events next to one that was given the requests among them only. -/
structure InStep (maxTrackedKeys : ℕ) (events : List GcraEvent) (g g' : Gcra) : Prop where
  fits : Fits maxTrackedKeys events g
  fits' : Fits maxTrackedKeys events g'
  same : ∀ clock, (∀ e ∈ events, e.now ≤ clock) → SameBudget clock g g'

lemma InStep.step {g₀ g₀' : Gcra} (h : InStep maxTrackedKeys events g₀ g₀')
    (hc : ∀ e' ∈ events, e'.now ≤ e.now) (hke : (distinctKeys events).card < maxTrackedKeys)
    (hs : e.Step g₀ g) :
    ∃ g', Run GcraEvent.Step g₀' (withoutSweeps [e]) g' ∧
      InStep maxTrackedKeys (events ++ [e]) g g' := by
  have hb := h.same e.now hc
  have hca := h.fits.belowCap hke
  have hca' := h.fits'.belowCap hke
  have hl : ∀ clock, (∀ e' ∈ events ++ [e], e'.now ≤ clock) → e.now ≤ clock :=
    fun clock ha => ha e (by simp)
  cases e with
  | check key now decision =>
    obtain ⟨rfl, rfl⟩ := GcraEvent.step_check_iff.mp hs
    obtain ⟨hd, hb⟩ := hb.check le_rfl hca hca' key
    have hs' : GcraEvent.Step g₀' (.check key now (g₀.check key now).1) (g₀'.check key now).2 :=
      .check hd.symm
    exact ⟨_, Run.start.next hs', h.fits.step hca hs, h.fits'.step hca' hs',
      fun clock ha => hb.mono (hl clock ha)⟩
  | sweep now idleAfter =>
    obtain rfl : g₀.sweep now idleAfter = g := hs
    have hf' : Fits maxTrackedKeys (events ++ [.sweep now idleAfter]) g₀' := by
      refine ⟨h.fits'.counted, h.fits'.cap_eq, fun k hk => ?_⟩
      rw [distinctKeys_snoc]
      exact Finset.mem_union_left _ (h.fits'.stored k hk)
    exact ⟨g₀', .start, h.fits.step hca rfl, hf',
      fun clock ha => (hb.sweep le_rfl idleAfter).mono (hl clock ha)⟩

lemma card_distinctKeys_le (events : List GcraEvent) (e : GcraEvent) :
    (distinctKeys events).card ≤ (distinctKeys (events ++ [e])).card := by
  rw [distinctKeys_snoc]
  exact Finset.card_le_card Finset.subset_union_left

end

/-- **Sweeping is invisible.**  In a run whose clock does not go back and which uses fewer keys
than the cap, the requests alone are a run with the same results: no decision and no advice depends
on the sweeps. -/
theorem sweeps_invisible (period burst maxTrackedKeys : ℕ) {events : List GcraEvent} {g : Gcra}
    (hrun : Run GcraEvent.Step (.new period burst maxTrackedKeys) events g)
    (hclock : events.Pairwise fun e e' => e.now ≤ e'.now)
    (hkeys : (distinctKeys events).card < maxTrackedKeys) :
    ∃ g', Run GcraEvent.Step (.new period burst maxTrackedKeys) (withoutSweeps events) g' := by
  refine (hrun.leaving_out (R := InStep maxTrackedKeys)
    (P := fun events => events.Pairwise (fun e e' => e.now ≤ e'.now) ∧
      (distinctKeys events).card < maxTrackedKeys) ?_ ?_ ?_ ⟨hclock, hkeys⟩).imp fun _ h => h.1
  · rintro l e ⟨hclock, hkeys⟩
    exact ⟨(pairwise_append.mp hclock).1, (card_distinctKeys_le l e).trans_lt hkeys⟩
  · have hf : Fits maxTrackedKeys [] (.new period burst maxTrackedKeys) := ⟨rfl, rfl, nofun⟩
    exact ⟨hf, hf, fun _ _ => ⟨rfl, rfl, fun _ => Or.inl rfl⟩⟩
  · rintro l g₀ g₀' e g ⟨hclock, hkeys⟩ hin hs
    have hl : ∀ e' ∈ l, e'.now ≤ e.now := fun e' he' =>
      (pairwise_append.mp hclock).2.2 e' he' e (mem_singleton_self e)
    exact hin.step hl ((card_distinctKeys_le l e).trans_lt hkeys) hs

/-- A sweep that drops the key's time the moment the clock reaches it. -/
theorem sweeps_invisible_dropped :
    let events : List GcraEvent := [.check "k" 0 .allow, .check "k" 50 (.deny 50),
      .sweep 100 0, .check "k" 100 .allow, .check "k" 150 (.deny 50)]
    (∃ g, Run GcraEvent.Step (.new 100 1 10) events g) ∧
      ∃ g', Run GcraEvent.Step (.new 100 1 10)
        [.check "k" 0 .allow, .check "k" 50 (.deny 50), .check "k" 100 .allow,
          .check "k" 150 (.deny 50)] g' := by
  intro events
  have hs : ∀ (g : Gcra) (now : ℕ) (decision : Decision), (g.check "k" now).1 = decision →
      GcraEvent.Step g (.check "k" now decision) (g.check "k" now).2 := fun _ _ _ => .check
  have hsw : ∀ g : Gcra, GcraEvent.Step g (.sweep 100 0) (g.sweep 100 0) := fun _ => rfl
  obtain ⟨g, hr⟩ : ∃ g, Run GcraEvent.Step (.new 100 1 10) events g :=
    ⟨_, ((((Run.start.next (hs _ 0 .allow (by decide))).next
      (hs _ 50 (.deny 50) (by decide))).next (hsw _)).next
      (hs _ 100 .allow (by decide))).next (hs _ 150 (.deny 50) (by decide))⟩
  exact ⟨⟨g, hr⟩, sweeps_invisible 100 1 10 hr (by decide) (by decide)⟩

/-! ## Retry advice -/

/-- What a refusal says: the key's time is so far ahead that the clock must move by exactly the
advice before `tau` covers the distance. -/
lemma Gcra.admitAt_eq_deny {entry now period tau d : ℕ}
    (h : (admitAt entry now period tau).1 = .deny d) :
    0 < d ∧ now + d + tau = max entry now + period := by
  rw [admitAt_eq_ite] at h
  split_ifs at h with ha
  obtain rfl := Decision.deny.inj h
  omega

/-- The time a refusal was about: still stored, or dropped by a sweep after the clock got
there. -/
def Pending (key : String) (tat : ℕ) (events : List GcraEvent) (g : Gcra) : Prop :=
  g.state.get key = some tat ∨ g.state.get key = none ∧ ∃ e ∈ events, tat ≤ e.now

section

variable {key : String} {tat : ℕ} {events : List GcraEvent} {g g' : Gcra} {e : GcraEvent}

/-- **The decision at `now`**, when `tat` is at least as far ahead as the advice reaches. -/
lemma Pending.check_fst (h : Pending key tat events g) (hca : g.BelowCap)
    (hb : g.period ≤ g.tau) {now due : ℕ} (hd : due + g.tau = tat + g.period)
    (hc : ∀ e ∈ events, e.now ≤ now) :
    (g.check key now).1 = if now < due then .deny (due - now) else .allow := by
  rw [(Gcra.check_eq hca key now).1, Gcra.admitAt_eq_ite]
  rcases h with hg | ⟨hg, e, he, hle⟩
  · rw [hg, Option.getD_some]
    split_ifs with ha hn hn
    · omega
    · rfl
    · exact congrArg Decision.deny (by omega)
    · omega
  · have := hc e he
    rw [hg, Option.getD_none, max_self, if_pos (by omega), if_neg (by omega)]

lemma Pending.step (h : Pending key tat events g) (hca : g.BelowCap)
    (hb : g.period ≤ g.tau) (hs : e.Step g g')
    (hc : ∀ e' ∈ events, e'.now ≤ e.now) (hn : ∀ now, e ≠ .check key now .allow) :
    Pending key tat (events ++ [e]) g' := by
  have hke : ∀ {g' : Gcra}, g'.state.get key = g.state.get key →
      Pending key tat (events ++ [e]) g' := by
    intro g' hsa
    rw [Pending, hsa]
    refine h.imp_right fun ⟨hg, e', he', hle⟩ => ⟨hg, e', mem_append_left _ he', hle⟩
  cases e with
  | check k now decision =>
    obtain ⟨rfl, rfl⟩ := GcraEvent.step_check_iff.mp hs
    obtain ⟨hd, -, -, hst⟩ := Gcra.check_eq hca k now
    by_cases hk : key = k
    · subst hk
      have hde : (g.check key now).1 ≠ .allow := fun ha => hn now (by rw [ha])
      rw [hd] at hde
      rcases Gcra.admitAt_eq ((g.state.get key).getD now) now g.period g.tau with
        ⟨ha, -⟩ | ⟨-, hf, hsa⟩
      · exact absurd ha hde
      · -- without a time the request would have been let through
        rcases h with hg | ⟨hg, -⟩
        · refine hke ?_
          rw [hst, AList.get_insert, if_pos rfl, hsa, hg, Option.getD_some]
        · rw [hg, Option.getD_none, max_self] at hf
          omega
    · exact hke (by rw [hst, AList.get_insert_of_ne _ _ hk])
  | sweep now idleAfter =>
    obtain rfl : g.sweep now idleAfter = g' := hs
    rcases g.get_sweep now idleAfter key with hsa | ⟨hn, hid⟩
    · exact hke hsa
    · refine Or.inr ⟨hn, ?_⟩
      rcases h with hg | ⟨-, e', he', hle⟩
      · exact ⟨.sweep now idleAfter, by simp, hid tat hg⟩
      · exact ⟨e', mem_append_left _ he', hle⟩

lemma pending_of_run {g₀ : Gcra} (h₀ : g₀.state.get key = some tat)
    (hb : g₀.period ≤ g₀.tau)
    (hr : Run (Guarded Gcra.BelowCap GcraEvent.Step) g₀ events g)
    (hc : events.Pairwise fun e e' => e.now ≤ e'.now)
    (hn : ∀ now, .check key now .allow ∉ events) :
    Pending key tat events g ∧ g.period = g₀.period ∧ g.tau = g₀.tau := by
  induction hr with
  | start => exact ⟨Or.inl h₀, rfl, rfl⟩
  | @next events g₁ g e hr hs ih =>
    rw [pairwise_append] at hc
    obtain ⟨hp, hpe, ht⟩ := ih hc.1 fun now hm =>
      hn now (mem_append_left _ hm)
    obtain ⟨hp', ht', -⟩ := hs.2.1.settings_eq
    refine ⟨hp.step hs.1 (by omega) hs.2.1 ?_ ?_, hp'.trans hpe, ht'.trans ht⟩
    · exact fun e' he' => hc.2.2 e' he' e (mem_singleton_self e)
    · rintro now rfl
      exact hn now (by simp)

end

/-- **Retry advice is exact.**  In a run below the key cap whose clock does not go back, let a
request of a key be refused at `t` with the advice `d`, and none be let through since.  Then `d` is
positive, a request of the key before `t + d` is refused, with the advice that remains, and one
from `t + d` on is let through. -/
theorem retry_after_exact (period burst maxTrackedKeys : ℕ) (hperiod : period ≤ durationMax)
    {before after : List GcraEvent} {key : String} {t d : ℕ} {g : Gcra}
    (hrun : Run (Guarded Gcra.BelowCap GcraEvent.Step) (.new period burst maxTrackedKeys)
      (before ++ .check key t (.deny d) :: after) g)
    (hclock : (before ++ .check key t (.deny d) :: after).Pairwise fun e e' => e.now ≤ e'.now)
    (hnone : ∀ now, .check key now .allow ∉ after) :
    0 < d ∧ ∀ now, t ≤ now → (∀ e ∈ after, e.now ≤ now) →
      (now < t + d → (g.check key now).1 = .deny (t + d - now)) ∧
      (t + d ≤ now → (g.check key now).1 = .allow) := by
  obtain ⟨g₁, g₂, hr₁, ⟨hc₁, hs, hc₂⟩, hr₂⟩ := hrun.split
  have hc : g.BelowCap := hr₂.invariant (fun _ _ _ hs _ => hs.2.2) hc₂
  obtain ⟨hp₁, ht₁, -⟩ := settings_of_run (hr₁.mono fun _ _ _ hs => hs.2.1)
  obtain ⟨hp₂, ht₂, -⟩ := hs.settings_eq
  have hb : g₁.period ≤ g₁.tau := by
    rw [hp₁, ht₁]
    exact le_min (Nat.le_mul_of_pos_right _ (by omega)) hperiod
  obtain ⟨hde, -, -, hst⟩ := Gcra.check_eq hc₁ key t
  obtain ⟨hd, hl⟩ := GcraEvent.step_check_iff.mp hs
  rw [hde] at hd
  obtain ⟨hpo, ha⟩ := Gcra.admitAt_eq_deny hd
  -- the refused request found a time ahead of the clock, and left it
  obtain ⟨tat, hg⟩ : ∃ tat, g₁.state.get key = some tat := by
    cases hg : g₁.state.get key with
    | none =>
      rw [hg, Option.getD_none, max_self] at ha
      omega
    | some tat => exact ⟨tat, rfl⟩
  rw [hg, Option.getD_some] at ha hd hst
  have hg₂ : g₂.state.get key = some tat := by
    rw [← hl, hst, AList.get_insert, if_pos rfl]
    rcases Gcra.admitAt_eq tat t g₁.period g₁.tau with ⟨hal, -⟩ | ⟨-, -, hsa⟩
    · rw [hal] at hd
      cases hd
    · rw [hsa]
  have hso : after.Pairwise fun e e' => e.now ≤ e'.now :=
    (pairwise_cons.mp (pairwise_append.mp hclock).2.1).2
  obtain ⟨hp, hp₃, ht₃⟩ := pending_of_run hg₂ (by omega) hr₂ hso hnone
  have hdu : t + d + g.tau = tat + g.period := by omega
  refine ⟨hpo, fun now _ haf => ?_⟩
  rw [hp.check_fst hc (by omega) hdu haf]
  exact ⟨fun hlt => if_pos hlt, fun hle => if_neg (not_lt.mpr hle)⟩

/-- A refusal, a sweep and a second refusal before the instant the advice names. -/
theorem retry_after_exact_swept :
    ∃ g, Run (Guarded Gcra.BelowCap GcraEvent.Step) (.new 100 1 10)
        ([.check "k" 0 .allow] ++ .check "k" 50 (.deny 50) ::
          [.sweep 60 0, .check "k" 70 (.deny 30)]) g ∧
      (g.check "k" 99).1 = .deny 1 ∧ (g.check "k" 100).1 = .allow := by
  have hs : ∀ g : Gcra, g.BelowCap → (g.sweep 60 0).BelowCap →
      Guarded Gcra.BelowCap GcraEvent.Step g (.sweep 60 0) (g.sweep 60 0) :=
    fun g hc hc' => ⟨hc, rfl, hc'⟩
  obtain ⟨g, hr⟩ : ∃ g, Run (Guarded Gcra.BelowCap GcraEvent.Step) (.new 100 1 10)
      ([.check "k" 0 .allow] ++ .check "k" 50 (.deny 50) ::
        [.sweep 60 0, .check "k" 70 (.deny 30)]) g :=
    ⟨_, (((Run.start.next (Gcra.BelowCap.check (by decide) "k" 0 (by decide))).next
      (Gcra.BelowCap.check (by decide) "k" 50 (by decide))).next
      (hs _ (by decide) (by decide))).next
      (Gcra.BelowCap.check (by decide) "k" 70 (by decide))⟩
  obtain ⟨-, ha⟩ := retry_after_exact 100 1 10 (by decide) hr (by decide) (by simp)
  exact ⟨g, hr, (ha 99 (by decide) (by decide)).1 (by decide),
    (ha 100 (by decide) (by decide)).2 (by decide)⟩

end LoadBalancer.RateLimit
