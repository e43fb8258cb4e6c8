import LoadBalancer.Health.BreakerConcurrent

/-!
# Recovery of a circuit breaker under concurrent calls

A half-open breaker closes when `consecutive_successes` reaches the required number.  The counter
is cleared by each trip, in a step of its own after the exchange of the state.  A success that was
loaded as half-open before the trip and is added after it counts for the next episode, and so do
the successes of an episode that began before the counter was cleared.  The result is about the
schedules without these two.
-/

namespace LoadBalancer.Health

open Interleaving

namespace BreakerThread

def IsResetting : BreakerThread → Prop
  | tripClock => True
  | tripOpenedAt _ => True
  | tripFailures _ => True
  | tripSuccesses _ => True
  | _ => False

def IsCounting : BreakerThread → Prop
  | successAdd _ => True
  | successExchange _ => True
  | _ => False

/-- The schedules in which successes count for their own episode. -/
def KeepsEpisodes (c : Config SharedBreaker BreakerThread) : Event BreakerThread → Prop
  | .spawn _ _ => True
  | .step i =>
    (∀ expected, c.threads i = some (tripExchange expected) → c.shared.breaker.state = expected →
      ∀ j, ∀ t ∈ c.threads j, ¬ t.IsCounting) ∧
    (c.threads i = some successLoad → c.shared.breaker.state = .halfOpen →
      ∀ j, ∀ t ∈ c.threads j, ¬ t.IsResetting)

/-- The count of successes is of the current episode. -/
def Settled (s : SharedBreaker) : Prop :=
  (s.breaker.state = .opened → s.breaker.consecutiveSuccesses = 0) ∧
    (s.breaker.state = .halfOpen → s.breaker.consecutiveSuccesses ≤ s.added)

def CountsOn (cfg : BreakerSettings) (s : SharedBreaker) : BreakerThread → Prop
  | successAdd loadedIn => s.breaker.state ≠ .opened ∧
    (s.breaker.state = .halfOpen → loadedIn = s.episode)
  | successExchange _ => s.breaker.state ≠ .opened ∧
    (s.breaker.state = .halfOpen → max cfg.halfOpenSuccessesRequired 1 ≤ s.added)
  | _ => True

structure Counted (cfg : BreakerSettings) (c : Config SharedBreaker BreakerThread) : Prop where
  settled : (∀ i, ∀ t ∈ c.threads i, ¬ t.IsResetting) → Settled c.shared
  countsOn : ∀ i, ∀ t ∈ c.threads i, t.CountsOn cfg c.shared
  apart : Apart c.threads IsResetting IsCounting

variable {cfg : BreakerSettings} {c : Config SharedBreaker BreakerThread} {s s' : SharedBreaker}
  {i : ℕ} {t : BreakerThread} {t' : Option BreakerThread}

lemma IsResetting.not_isCounting (h : t.IsResetting) : ¬ t.IsCounting := by
  cases t <;> first | exact id | exact fun _ => h

lemma countsOn_of_not_isCounting (h : ¬ t.IsCounting) : t.CountsOn cfg s := by
  cases t with
  | successAdd | successExchange => exact absurd trivial h
  | _ => trivial

lemma countsOn_of_closed (h : s.breaker.state = .closed) : t.CountsOn cfg s := by
  cases t with
  | successAdd | successExchange => simp [CountsOn, h]
  | _ => trivial

lemma CountsOn.congr (h : t.CountsOn cfg s) (hs : s'.breaker.state = s.breaker.state)
    (he : s'.episode = s.episode) (ha : s.added ≤ s'.added) : t.CountsOn cfg s' := by
  cases t <;> grind [CountsOn]

variable (h : Counted cfg c)

include h

lemma Counted.move
    (hs : (∀ q ∈ t', ¬ q.IsResetting) → (∀ j ≠ i, ∀ q ∈ c.threads j, ¬ q.IsResetting) →
      Settled s')
    (how : ∀ q ∈ t', q.CountsOn cfg s') (ho : ∀ j ≠ i, ∀ q ∈ c.threads j, q.CountsOn cfg s')
    (hre : ∀ q ∈ t', q.IsResetting → ∀ j ≠ i, ∀ r ∈ c.threads j, ¬ r.IsCounting)
    (hc : ∀ q ∈ t', q.IsCounting → ∀ j ≠ i, ∀ r ∈ c.threads j, ¬ r.IsResetting) :
    Counted cfg ⟨s', Function.update c.threads i t'⟩ where
  settled hn := hs (fun q hq => hn i q (mem_update_iff.mpr (Or.inl ⟨rfl, hq⟩)))
    (fun j hne q hq => hn j q (mem_update_iff.mpr (Or.inr ⟨hne, hq⟩)))
  countsOn := forall_update how ho
  apart := h.apart.update (fun _ hr => hr.not_isCounting) hre hc

lemma Counted.aside (hs : (∀ j ≠ i, ∀ q ∈ c.threads j, ¬ q.IsResetting) → Settled s')
    (ho : ∀ j ≠ i, ∀ q ∈ c.threads j, q.CountsOn cfg s')
    (how : ∀ q ∈ t', ¬ q.IsResetting ∧ ¬ q.IsCounting) :
    Counted cfg ⟨s', Function.update c.threads i t'⟩ :=
  h.move (fun _ => hs) (fun q hq => countsOn_of_not_isCounting (how q hq).2) ho
    (fun q hq hr => absurd hr (how q hq).1) fun q hq hc => absurd hc (how q hq).2

/-- A step that keeps the state and the episode, and either leaves the count alone or clears it. -/
structure Steady (s : SharedBreaker) (t : BreakerThread) (s' : SharedBreaker)
    (t' : Option BreakerThread) : Prop where
  state_eq : s'.breaker.state = s.breaker.state
  episode_eq : s'.episode = s.episode
  added_eq : s'.added = s.added
  count : s'.breaker.consecutiveSuccesses = 0 ∨
    s'.breaker.consecutiveSuccesses = s.breaker.consecutiveSuccesses ∧
      (t.IsResetting → ∃ q ∈ t', q.IsResetting)
  resetting : ∀ q ∈ t', q.IsResetting → t.IsResetting
  not_counting : ∀ q ∈ t', ¬ q.IsCounting

lemma Counted.steady (hi : c.threads i = some t) (hs : Steady c.shared t s' t') :
    Counted cfg ⟨s', Function.update c.threads i t'⟩ := by
  refine h.move (fun how ho => ?_)
    (fun q hq => countsOn_of_not_isCounting (hs.not_counting q hq)) ?_ ?_
    fun q hq hc => absurd hc (hs.not_counting q hq)
  · rcases hs.count with hz | ⟨hsa, hk⟩
    · exact ⟨fun _ => hz, fun _ => hz ▸ Nat.zero_le _⟩
    · have hn : ¬ t.IsResetting := fun hr => by
        obtain ⟨q, hq, hr'⟩ := hk hr
        exact how q hq hr'
      have hse : Settled c.shared := h.settled (forall_of_others hi hn ho)
      rw [Settled, hs.state_eq, hs.added_eq, hsa]
      exact hse
  · intro j _ q hq
    exact (h.countsOn j q hq).congr hs.state_eq hs.episode_eq hs.added_eq.ge
  · intro q hq hr j _ r hr'
    exact h.apart i t hi (hs.resetting q hq hr) j r hr'

def IsSteady : BreakerThread → Prop
  | queryExchange _ | successLoad | successAdd _ | successExchange _ | tripExchange _ => False
  | _ => True

omit h

lemma Steady.aside (hs : s'.breaker.state = s.breaker.state) (he : s'.episode = s.episode)
    (ha : s'.added = s.added)
    (hc : s'.breaker.consecutiveSuccesses = s.breaker.consecutiveSuccesses)
    (hn : ¬ t.IsResetting) (ho : ∀ q ∈ t', ¬ q.IsResetting ∧ ¬ q.IsCounting) :
    Steady s t s' t' :=
  ⟨hs, he, ha, Or.inr ⟨hc, fun hr => absurd hr hn⟩,
    fun q hq hr => absurd hr (ho q hq).1, fun q hq => (ho q hq).2⟩

lemma steady_next (cfg : BreakerSettings) (s : SharedBreaker) (h : t.IsSteady) :
    Steady s t (next cfg s t).1 (next cfg s t).2 := by
  cases t with
  -- Where the call goes on depends on what it read.
  | queryLoad | queryOpenedAt | queryStreak | failureAdd | tripClosedSince =>
    rw [next]
    split_ifs <;> exact .aside rfl rfl rfl rfl id (by simp [IsResetting, IsCounting])
  | failureLoad =>
    rw [next]
    cases s.breaker.state <;>
      exact .aside rfl rfl rfl rfl id (by simp [IsResetting, IsCounting])
  | queryClock | successClear | successClock | tripStreakReset =>
    exact .aside rfl rfl rfl rfl id (by simp [next, IsResetting, IsCounting])
  -- The last step of a call, or no call at all.
  | tick | queryResult | successStamp | tripStreakAdd =>
    exact .aside rfl rfl rfl rfl id (by simp [next])
  -- The steps between a trip and the clearing of the count, which hand the duty on.
  | tripClock | tripOpenedAt | tripFailures =>
    exact ⟨rfl, rfl, rfl, Or.inr ⟨rfl, fun _ => ⟨_, rfl, trivial⟩⟩, fun _ _ _ => trivial,
      by simp [next, IsCounting]⟩
  -- The steps that clear the count.
  | tripSuccesses =>
    exact ⟨rfl, rfl, rfl, Or.inl rfl, fun _ _ _ => trivial, by simp [next, IsCounting]⟩
  | successReset =>
    rw [next]
    split_ifs <;> exact ⟨rfl, rfl, rfl, Or.inl rfl, by simp [IsResetting], by simp [IsCounting]⟩
  | _ => exact absurd h id

include h

lemma Counted.not_counting (hs : c.shared.breaker.state = .opened) (j : ℕ) :
    ∀ q ∈ c.threads j, ¬ q.IsCounting := by
  intro q hq hc
  have hq' := h.countsOn j q hq
  cases q with
  | successAdd | successExchange => exact hq'.1 hs
  | _ => exact hc

omit h

lemma added_le_addSuccess (s : SharedBreaker) (loadedIn : ℕ) :
    s.added ≤ (s.addSuccess loadedIn).added := by
  rw [SharedBreaker.addSuccess]
  dsimp only
  split_ifs
  · exact Nat.le_succ _
  · exact le_rfl

include h

lemma Counted.add {loadedIn : ℕ} (hi : c.threads i = some (successAdd loadedIn)) :
    Counted cfg ⟨(next cfg c.shared (successAdd loadedIn)).1,
      Function.update c.threads i (next cfg c.shared (successAdd loadedIn)).2⟩ := by
  have hn : ∀ j, ∀ q ∈ c.threads j, ¬ q.IsResetting :=
    fun j q hq hr => h.apart j q hq hr i _ hi trivial
  obtain ⟨ho, hl⟩ := h.countsOn i _ hi
  have hse := h.settled hn
  have hm := Nat.mod_le (c.shared.breaker.consecutiveSuccesses + 1) (2 ^ 32)
  have ha : c.shared.breaker.state = .halfOpen →
      (next cfg c.shared (successAdd loadedIn)).1.added = c.shared.added + 1 :=
    fun hs => if_pos ⟨hs, hl hs⟩
  refine h.move (fun _ _ => ⟨fun hs => absurd hs ho, fun hs => ?_⟩) ?_ ?_ ?_
    fun _ _ _ j _ r hr => hn j r hr
  · rw [ha hs]
    exact hm.trans (Nat.succ_le_succ (hse.2 hs))
  · intro q hq
    rw [next, Option.mem_def, Option.ite_none_right_eq_some] at hq
    obtain ⟨he, hq⟩ := hq
    cases hq
    refine ⟨ho, fun hs => ?_⟩
    rw [ha hs]
    have := hse.2 hs
    omega
  · intro j _ q hq
    exact (h.countsOn j q hq).congr rfl rfl (added_le_addSuccess _ _)
  · intro q hq hr
    rw [next, Option.mem_def, Option.ite_none_right_eq_some] at hq
    exact absurd hr (Option.some.inj hq.2 ▸ id)

lemma Counted.step (hok : KeepsEpisodes c (.step i)) (hi : c.threads i = some t) :
    Counted cfg ⟨(next cfg c.shared t).1, Function.update c.threads i (next cfg c.shared t).2⟩ := by
  by_cases hste : t.IsSteady
  · exact h.steady hi (steady_next cfg _ hste)
  cases t with
  | queryExchange now =>
    rw [next]
    split_ifs with hst
    · -- no success counts across the beginning of an episode
      have hn := h.not_counting hst
      refine h.aside (fun ho => ?_)
        (fun j _ q hq => countsOn_of_not_isCounting (hn j q hq))
        (by simp [IsResetting, IsCounting])
      have hse := h.settled (forall_of_others (I := fun q => ¬ q.IsResetting) hi id ho)
      exact ⟨(fun hs => by cases hs), fun _ => (hse.1 hst).le⟩
    · exact h.steady hi (.aside rfl rfl rfl rfl id (by simp [IsResetting, IsCounting]))
  | successLoad =>
    rw [next]
    split_ifs with hst
    · exact h.steady hi (.aside rfl rfl rfl rfl id (fun q hq => by cases hq))
    · have hh : c.shared.breaker.state = .halfOpen := not_not.mp hst
      have hn := hok.2 hi hh
      refine h.move (fun _ _ => h.settled hn) ?_ (fun j _ q hq => h.countsOn j q hq) ?_
        fun _ _ _ j _ r hr => hn j r hr
      · intro q hq
        cases hq
        exact ⟨(fun hs => by rw [hh] at hs; cases hs), fun _ => rfl⟩
      · intro q hq hr
        exact absurd hr (Option.some.inj hq ▸ id)
  | successAdd loadedIn => exact h.add hi
  | successExchange loadedIn =>
    rw [next]
    split_ifs with hst
    · exact h.aside (fun _ => ⟨(fun hs => by cases hs), fun hs => by cases hs⟩)
        (fun j _ q _ => countsOn_of_closed rfl) (by simp [IsResetting, IsCounting])
    · exact h.steady hi (.aside rfl rfl rfl rfl id (by simp [IsResetting, IsCounting]))
  | tripExchange expected =>
    rw [next]
    split_ifs with hst
    · -- the exchange succeeds: the count is cleared before the next success is loaded
      have hn := hok.1 expected hi hst
      refine h.move (fun how _ => absurd trivial (how _ rfl)) ?_
        (fun j _ q hq => countsOn_of_not_isCounting (hn j q hq)) (fun _ _ _ j _ => hn j) ?_
      · intro q hq
        exact Option.some.inj hq ▸ trivial
      · intro q hq hc
        exact absurd hc (Option.some.inj hq ▸ id)
    · exact h.steady hi (.aside rfl rfl rfl rfl id (fun q hq => by cases hq))
  | _ => exact absurd trivial hste

lemma Counted.spawn (hf : c.threads i = none) (hs : t.starts = true) :
    Counted cfg { c with threads := Function.update c.threads i (some t) } := by
  have how : ¬ t.IsResetting ∧ ¬ t.IsCounting := by
    cases t with
    | tick | queryLoad | successClear | failureLoad => exact ⟨id, id⟩
    | _ => cases hs
  refine h.move (fun _ ho => h.settled fun j q hq => ?_) ?_
    (fun j _ q hq => h.countsOn j q hq) (fun q hq hr => absurd hr (Option.some.inj hq ▸ how.1))
    (fun q hq hc => absurd hc (Option.some.inj hq ▸ how.2))
  · refine ho j ?_ q hq
    rintro rfl
    rw [hf] at hq
    cases hq
  · intro q hq
    exact countsOn_of_not_isCounting (Option.some.inj hq ▸ how.2)

omit h

lemma counted_of_run {events : List (Event BreakerThread)}
    (hr : Run (fun c e c' => KeepsEpisodes c e ∧ Step cfg c e c') (idle .new) events c) :
    Counted cfg c := by
  refine config_invariant (I := Counted cfg) ?_ ?_ ?_ hr
  · refine ⟨fun _ => ⟨fun _ => rfl, fun _ => le_rfl⟩, ?_, ?_⟩
    all_goals
      intro i t ht
      cases ht
  · exact fun c i t _ hf hs h => h.spawn hf hs
  · intro c i t s' t' hok hi hst h
    have hn := h.step hok hi
    rwa [show next cfg c.shared t = (s', t') from hst] at hn

/-- Only an exchange of a success leads from half-open to closed. -/
lemma exists_successExchange (hb : s.breaker.state = .halfOpen)
    (ha : (next cfg s t).1.breaker.state = .closed) :
    ∃ loadedIn, t = successExchange loadedIn := by
  cases t <;>
    grind [next, SharedBreaker.store, SharedBreaker.enterOpened, SharedBreaker.enterHalfOpen,
      SharedBreaker.addSuccess]

/-- **Recovery.**  In every run that keeps trips and successes apart, a breaker closes only after
the required number of calls, and at least one, has loaded the state as half-open in this episode
and added its success in it. -/
theorem closed_by_own_successes {events : List (Event BreakerThread)}
    (hrun : Run (fun c e c' => KeepsEpisodes c e ∧ Step cfg c e c') (idle .new) events c)
    {e : Event BreakerThread} {c' : Config SharedBreaker BreakerThread} (hstep : Step cfg c e c')
    (hbefore : c.shared.breaker.state = .halfOpen) (hafter : c'.shared.breaker.state = .closed) :
    max cfg.halfOpenSuccessesRequired 1 ≤ c.shared.added := by
  have hc := counted_of_run hrun
  cases e with
  | spawn i t =>
    obtain ⟨-, -, rfl⟩ := hstep
    rw [hbefore] at hafter
    cases hafter
  | step i =>
    obtain ⟨t, s', t', hi, hn, rfl⟩ := hstep
    have hs : (next cfg c.shared t).1.breaker.state = .closed := by
      rw [show next cfg c.shared t = (s', t') from hn]
      exact hafter
    obtain ⟨loadedIn, rfl⟩ := exists_successExchange hbefore hs
    exact (hc.countsOn i _ hi).2 hbefore

lemma keepsEpisodes_of_solo {e : Event BreakerThread} (hs : Solo c) (he : e.thread = 0) :
    KeepsEpisodes c e := by
  cases e with
  | spawn i t => trivial
  | step i =>
    obtain rfl : i = 0 := he
    refine ⟨fun expected h₀ _ j t ht => ?_, fun h₀ _ j t ht => ?_⟩
    · rw [hs.thread_eq h₀ ht]
      exact id
    · rw [hs.thread_eq h₀ ht]
      exact id

/-- One call after the other: a trip at 1, a state call at 11 and two successes. -/
theorem closed_by_own_successes_sequential :
    ∃ events c c', Run (fun c e c' => KeepsEpisodes c e ∧ Step (quickSettings 10 60 2) c e c')
        (idle .new) events c ∧ Step (quickSettings 10 60 2) c (.step 0) c' ∧
      c.shared.breaker.state = .halfOpen ∧ c'.shared.breaker.state = .closed ∧
      2 ≤ c.shared.added := by
  have he : ((exec starts soloInRange (next (quickSettings 10 60 2)) (idle .new)
      [call 0 (tick 1) 1, call 0 failureLoad 9, call 0 (tick 11) 1, call 0 queryLoad 6,
        call 0 successClear 3, call 0 successClear 3].flatten).any fun c =>
      c.shared.breaker.state = .halfOpen ∧
        (execEvent starts soloInRange (next (quickSettings 10 60 2)) c (.step 0)).any fun c' =>
          c'.shared.breaker.state = .closed) = true := by decide +kernel
  obtain ⟨c, c', hso, hs, hb, ha⟩ := exists_step_of_exec (fun _ h => h) (fun _ _ h => h) he
  have hr : Run (fun c e c' => KeepsEpisodes c e ∧ Step (quickSettings 10 60 2) c e c')
      (idle .new) _ c :=
    (run_solo (fun _ _ => thread_of_soloInRange) hso).mono
      fun _ _ _ h => ⟨keepsEpisodes_of_solo h.1 (thread_of_soloInRange h.2.1), h.2.2⟩
  exact ⟨_, c, c', hr, hs, hb, ha, closed_by_own_successes hr hs hb ha⟩

/-- The breaker trips at 1 and goes half open at 11.  A success finds it half open and pauses
before it is added; a failure trips the breaker again, and at 21 the second episode begins.  The
paused success is added there, and one success of the episode closes a breaker that needs two. -/
theorem success_counted_in_later_episode :
    ∃ events c c', Run (Step (quickSettings 10 60 2)) (idle .new) events c ∧
      Step (quickSettings 10 60 2) c (.step 0) c' ∧
      c.shared.breaker.state = .halfOpen ∧ c'.shared.breaker.state = .closed ∧
      c.shared.episode = 2 ∧ c.shared.added = 1 ∧
      ¬ max (quickSettings 10 60 2).halfOpenSuccessesRequired 1 ≤ c.shared.added := by
  have hex : ((exec starts (fun _ _ => true) (next (quickSettings 10 60 2)) (idle .new)
      [call 0 (tick 1) 1, call 0 failureLoad 9, call 0 (tick 11) 1, call 0 queryLoad 6,
        call 1 successClear 2, call 0 failureLoad 8, call 0 (tick 21) 1, call 0 queryLoad 6,
        stepsOf 1 1, call 0 successClear 3].flatten).any fun c =>
      (c.shared.breaker.state = .halfOpen ∧ c.shared.episode = 2 ∧ c.shared.added = 1) ∧
        (execEvent starts (fun _ _ => true) (next (quickSettings 10 60 2)) c (.step 0)).any
          fun c' => c'.shared.breaker.state = .closed) = true := by decide +kernel
  obtain ⟨c, c', hr, hs, ⟨hb, he, ha⟩, haf⟩ :=
    exists_step_of_exec (fun _ h => h) (fun _ _ _ => True.intro) hex
  refine ⟨_, c, c', run_of_scheduled hr, hs, hb, haf, he, ha, ?_⟩
  rw [ha]
  decide

end BreakerThread

end LoadBalancer.Health
