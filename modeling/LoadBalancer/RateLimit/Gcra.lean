import LoadBalancer.Lib.Run
import LoadBalancer.Lib.Table

/-!
# The GCRA rate limiter

`Gcra` (`crates/lb-ratelimit/src/gcra.rs`) keeps one instant for each key, its theoretical arrival
time: the time at which the requests let through so far, spaced `period` apart, would have
arrived.  A request at `now` moves that time to `max tat now + period` and is let through if it is
then at most `tau` ahead of `now`.

Durations are nanoseconds, instants nanoseconds since the first one the clock can represent, so
that `checked_sub` fails exactly when the difference would be negative.  Calls on different threads
read the clock before they take the entry's lock, so readings need not come in order.

Every request let through adds at least `period` to the key's time, and none leaves it more than
`tau` ahead of its own reading.  A sweep forgets a key's time only when it is behind the sweep's
reading, so later requests would not have used it.
-/

namespace LoadBalancer.RateLimit

/-- `Duration::MAX` in nanoseconds. -/
def durationMax : ℕ := (2 ^ 64 - 1) * 10 ^ 9 + 999999999

def overflowKey : String := "\x00overflow"

inductive Decision
  | allow
  | deny (retryAfter : ℕ)
  deriving DecidableEq, Repr

structure Gcra where
  period : ℕ
  tau : ℕ
  maxTrackedKeys : ℕ
  tracked : ℕ
  state : Table String ℕ

namespace Gcra

/-- `period` is `1 / rate_per_sec` as a duration. -/
def new (period burst maxTrackedKeys : ℕ) : Gcra where
  period := period
  tau := min (period * max burst 1) durationMax
  maxTrackedKeys := max maxTrackedKeys 1
  tracked := 0
  state := ∅

/-- The arithmetic of `Gcra::admit`: the decision and the new value of the entry. -/
def admitAt (entry now period tau : ℕ) : Decision × ℕ :=
  let tat := if now < entry then entry else now
  let newTat := tat + period
  let allowAt := if tau ≤ newTat then newTat - tau else now
  if allowAt ≤ now then (.allow, newTat) else (.deny (allowAt - now), entry)

def trackedKey (g : Gcra) (key : String) : String :=
  if g.maxTrackedKeys ≤ g.tracked ∧ key ∉ g.state then overflowKey else key

def check (g : Gcra) (key : String) (now : ℕ) : Decision × Gcra :=
  let key := g.trackedKey key
  match g.state.get key with
  | some existing =>
    let (decision, tat) := admitAt existing now g.period g.tau
    (decision, { g with state := g.state.insert key tat })
  | none =>
    let (decision, tat) := admitAt now now g.period g.tau
    (decision, { g with tracked := g.tracked + 1, state := g.state.insert key tat })

def sweep (g : Gcra) (now idleAfter : ℕ) : Gcra :=
  let state := g.state.retain fun _ tat => now < tat || now - tat < idleAfter
  { g with state := state, tracked := state.size }

end Gcra

inductive GcraEvent
  | check (key : String) (now : ℕ) (decision : Decision)
  | sweep (now idleAfter : ℕ)
  deriving DecidableEq

namespace GcraEvent

def now : GcraEvent → ℕ
  | check _ now _ => now
  | sweep now _ => now

def IsSweep : GcraEvent → Prop
  | check .. => False
  | sweep .. => True

def Step (g : Gcra) : GcraEvent → Gcra → Prop
  | check key now decision, g' => g.check key now = (decision, g')
  | sweep now idleAfter, g' => g.sweep now idleAfter = g'

lemma step_check_iff {g g' : Gcra} {key : String} {now : ℕ} {decision : Decision} :
    (check key now decision).Step g g' ↔
      (g.check key now).1 = decision ∧ (g.check key now).2 = g' :=
  Prod.ext_iff

lemma Step.check {g : Gcra} {key : String} {now : ℕ} {decision : Decision}
    (h : (g.check key now).1 = decision) :
    (GcraEvent.check key now decision).Step g (g.check key now).2 :=
  step_check_iff.mpr ⟨h, rfl⟩

/-- The request was for `key`, read the clock between `a` and `b`, and was let through. -/
def AllowedIn (key : String) (a b : ℕ) : GcraEvent → Bool
  | check k now decision => k = key && decision = .allow && a ≤ now && now ≤ b
  | sweep .. => false

end GcraEvent

def allowedIn (key : String) (a b : ℕ) (events : List GcraEvent) : ℕ :=
  events.countP (GcraEvent.AllowedIn key a b)

/-- The map has room, so that every key has its own entry. -/
def Gcra.BelowCap (g : Gcra) : Prop := g.tracked < g.maxTrackedKeys

lemma Gcra.BelowCap.check {g : Gcra} (hc : g.BelowCap) (key : String) (now : ℕ)
    (hc' : (g.check key now).2.BelowCap) : Guarded Gcra.BelowCap GcraEvent.Step g
      (.check key now (g.check key now).1) (g.check key now).2 :=
  ⟨hc, .check rfl, hc'⟩

instance (g : Gcra) : Decidable g.BelowCap := inferInstanceAs (Decidable (_ < _))

/-! ## One request -/

namespace Gcra

/-- **The decision.**  Whether or not the subtraction of `tau` underflows, a request is let
through exactly when the new time is at most `tau` ahead of the clock, and is otherwise told how
long the clock takes to get there. -/
lemma admitAt_eq_ite (entry now period tau : ℕ) :
    admitAt entry now period tau =
      if max entry now + period ≤ now + tau then (.allow, max entry now + period)
      else (.deny (max entry now + period - tau - now), entry) := by
  have ht : (if now < entry then entry else now) = max entry now := by
    split_ifs with h
    · exact (max_eq_left h.le).symm
    · exact (max_eq_right (not_lt.mp h)).symm
  have ha : (if tau ≤ max entry now + period then max entry now + period - tau else now) ≤ now
      ↔ max entry now + period ≤ now + tau := by
    split_ifs with h
    · exact Nat.sub_le_iff_le_add
    · exact ⟨fun _ => by omega, fun _ => le_rfl⟩
  unfold admitAt
  dsimp only
  rw [ht]
  by_cases h : max entry now + period ≤ now + tau
  · rw [if_pos (ha.mpr h), if_pos h]
  · rw [if_neg (mt ha.mp h), if_neg h, if_pos (by omega)]

lemma admitAt_eq (entry now period tau : ℕ) :
    ((admitAt entry now period tau).1 = .allow ∧ max entry now + period ≤ now + tau ∧
        (admitAt entry now period tau).2 = max entry now + period) ∨
      ((admitAt entry now period tau).1 ≠ .allow ∧ now + tau < max entry now + period ∧
        (admitAt entry now period tau).2 = entry) := by
  rw [admitAt_eq_ite]
  split_ifs with h
  · exact Or.inl ⟨rfl, h, rfl⟩
  · exact Or.inr ⟨nofun, not_le.mp h, rfl⟩

/-- **What a request does**: it inserts the time of the key it is counted under, whose missing
time counts as the current one, and counts the entry if it is new. -/
lemma check_eq_insert (g : Gcra) (key : String) (now : ℕ) :
    let k := g.trackedKey key
    let r := admitAt ((g.state.get k).getD now) now g.period g.tau
    g.check key now = (r.1, { g with
      tracked := if k ∈ g.state then g.tracked else g.tracked + 1
      state := g.state.insert k r.2 }) := by
  unfold check
  dsimp only
  cases hg : g.state.get (g.trackedKey key) with
  | none =>
    rw [if_neg (AList.get_eq_none_iff.mp hg)]
    rfl
  | some tat =>
    rw [if_pos (AList.mem_of_get_eq_some hg)]
    rfl

lemma check_eq {g : Gcra} (hc : g.BelowCap) (key : String) (now : ℕ) :
    let r := admitAt ((g.state.get key).getD now) now g.period g.tau
    (g.check key now).1 = r.1 ∧ (g.check key now).2.period = g.period ∧
      (g.check key now).2.tau = g.tau ∧ (g.check key now).2.state = g.state.insert key r.2 := by
  rw [check_eq_insert, trackedKey, if_neg fun h => absurd h.1 (not_le.mpr hc)]
  exact ⟨rfl, rfl, rfl, rfl⟩

lemma get_sweep (g : Gcra) (now idleAfter : ℕ) (key : String) :
    (g.sweep now idleAfter).state.get key = g.state.get key ∨
      (g.sweep now idleAfter).state.get key = none ∧ ∀ tat ∈ g.state.get key, tat ≤ now := by
  unfold sweep
  dsimp only
  rw [AList.get_retain]
  cases g.state.get key with
  | none => exact Or.inl rfl
  | some tat =>
    rw [Option.filter_some]
    split_ifs with hk
    · exact Or.inl rfl
    · refine Or.inr ⟨rfl, ?_⟩
      rintro _ ⟨⟩
      simp only [Bool.or_eq_true, decide_eq_true_eq, not_or] at hk
      exact not_lt.mp hk.1

end Gcra

/-! ## Any interval -/

section

variable {key : String} {a b : ℕ} {events : List GcraEvent} {g g' : Gcra} {e : GcraEvent}

/-- What the `n` requests let through so far have put on record, where `n` counts those with
readings between `a` and `b`: the key's time is `n` periods past `a`, unless a sweep has
dropped it after the clock got there. -/
structure Recorded (key : String) (a b : ℕ) (events : List GcraEvent) (g : Gcra) : Prop where
  level : allowedIn key a b events = 0 ∨
    (∃ tat, g.state.get key = some tat ∧ a + allowedIn key a b events * g.period ≤ tat) ∨
    (g.state.get key = none ∧
      ∃ e ∈ events, e.IsSweep ∧ a + allowedIn key a b events * g.period ≤ e.now)
  bound : a + allowedIn key a b events * g.period ≤ b + g.tau

lemma allowedIn_snoc (key : String) (a b : ℕ) (events : List GcraEvent) (e : GcraEvent) :
    allowedIn key a b (events ++ [e]) =
      allowedIn key a b events + if e.AllowedIn key a b then 1 else 0 := by
  rw [allowedIn, List.countP_append, List.countP_singleton]
  rfl

variable (h : Recorded key a b events g)

include h

/-- The requests on record are before the time a request at `now` finds, if it reads the clock
after the sweeps so far. -/
lemma Recorded.le_getD {now : ℕ} (hs : ∀ e ∈ events, e.IsSweep → e.now ≤ now) :
    allowedIn key a b events = 0 ∨
      a + allowedIn key a b events * g.period ≤ (g.state.get key).getD now := by
  rcases h.level with h0 | ⟨tat, hg, hle⟩ | ⟨hg, e, he, hsw, hle⟩
  · exact Or.inl h0
  · rw [hg]
    exact Or.inr hle
  · rw [hg]
    exact Or.inr (hle.trans (hs e he hsw))

lemma Recorded.of_get (hp : g'.period = g.period) (ht : g'.tau = g.tau)
    (hn : e.AllowedIn key a b = false) {tat : ℕ} (hg : g'.state.get key = some tat)
    (hle : allowedIn key a b events = 0 ∨ a + allowedIn key a b events * g.period ≤ tat) :
    Recorded key a b (events ++ [e]) g' := by
  have hc : allowedIn key a b (events ++ [e]) = allowedIn key a b events := by
    rw [allowedIn_snoc, hn]
    rfl
  refine ⟨?_, ?_⟩
  · rw [hc, hp]
    exact hle.imp_right fun hle => Or.inl ⟨tat, hg, hle⟩
  · rw [hc, hp, ht]
    exact h.bound

lemma Recorded.check (hca : g.BelowCap) {now : ℕ}
    (hsw : ∀ e ∈ events, e.IsSweep → e.now ≤ now) :
    Recorded key a b (events ++ [.check key now (g.check key now).1]) (g.check key now).2 := by
  obtain ⟨hd, hp, ht, hst⟩ := Gcra.check_eq hca key now
  have hg : (g.check key now).2.state.get key
      = some (Gcra.admitAt ((g.state.get key).getD now) now g.period g.tau).2 := by
    rw [hst, AList.get_insert, if_pos rfl]
  have hle := h.le_getD hsw
  rcases Gcra.admitAt_eq ((g.state.get key).getD now) now g.period g.tau with
    ⟨ha, hb, hn⟩ | ⟨hde, -, hsa⟩
  · rw [hn] at hg
    by_cases hin : a ≤ now ∧ now ≤ b
    · have hc : allowedIn key a b (events ++ [.check key now (g.check key now).1])
          = allowedIn key a b events + 1 := by
        rw [allowedIn_snoc, hd, ha]
        simp [GcraEvent.AllowedIn, hin]
      have hs : a + (allowedIn key a b events + 1) * g.period
          ≤ max ((g.state.get key).getD now) now + g.period := by
        rw [add_one_mul, ← add_assoc]
        refine Nat.add_le_add_right ?_ _
        rcases hle with h0 | hle
        · rw [h0, zero_mul, add_zero]
          exact hin.1.trans (le_max_right _ _)
        · exact hle.trans (le_max_left _ _)
      refine ⟨?_, ?_⟩
      · rw [hc, hp]
        exact Or.inr (Or.inl ⟨_, hg, hs⟩)
      · rw [hc, hp, ht]
        exact hs.trans (hb.trans (Nat.add_le_add_right hin.2 _))
    · refine h.of_get hp ht ?_ hg (hle.imp_right fun hle => ?_)
      · rw [not_and_or] at hin
        rcases hin with hin | hin
        · simp [GcraEvent.AllowedIn, hin]
        · simp [GcraEvent.AllowedIn, hin]
      · exact hle.trans ((le_max_left _ now).trans (Nat.le_add_right _ _))
  · rw [hsa] at hg
    refine h.of_get hp ht ?_ hg hle
    rw [hd]
    simp [GcraEvent.AllowedIn, hde]

lemma Recorded.of_get_eq_or (hp : g'.period = g.period) (ht : g'.tau = g.tau)
    (hn : e.AllowedIn key a b = false)
    (hg : g'.state.get key = g.state.get key ∨ e.IsSweep ∧ g'.state.get key = none ∧
      ∀ tat ∈ g.state.get key, tat ≤ e.now) :
    Recorded key a b (events ++ [e]) g' := by
  have hc : allowedIn key a b (events ++ [e]) = allowedIn key a b events := by
    rw [allowedIn_snoc, hn]
    rfl
  refine ⟨?_, ?_⟩
  · rw [hc, hp]
    rcases h.level with h0 | ⟨tat, ho, hle⟩ | ⟨ho, e', he', hs, hle⟩
    · exact Or.inl h0
    · rcases hg with hg | ⟨hs, hg, hr⟩
      · exact Or.inr (Or.inl ⟨tat, hg.trans ho, hle⟩)
      · exact Or.inr (Or.inr ⟨hg, e, by simp, hs, hle.trans (hr tat ho)⟩)
    · refine Or.inr (Or.inr ⟨?_, e', List.mem_append_left _ he', hs, hle⟩)
      rcases hg with hg | ⟨-, hg, -⟩
      · exact hg.trans ho
      · exact hg
  · rw [hc, hp, ht]
    exact h.bound

lemma Recorded.step (hc : g.BelowCap) (hs : e.Step g g')
    (hsw : ∀ e' ∈ events, e'.IsSweep → e'.now ≤ e.now) :
    Recorded key a b (events ++ [e]) g' := by
  cases e with
  | check k now decision =>
    obtain ⟨rfl, rfl⟩ := GcraEvent.step_check_iff.mp hs
    by_cases hk : k = key
    · subst hk
      exact h.check hc hsw
    · obtain ⟨-, hp, ht, hst⟩ := Gcra.check_eq hc k now
      refine h.of_get_eq_or hp ht (by simp [GcraEvent.AllowedIn, hk]) (Or.inl ?_)
      rw [hst, AList.get_insert_of_ne _ _ (Ne.symm hk)]
  | sweep now idleAfter =>
    obtain rfl : g.sweep now idleAfter = g' := hs
    exact h.of_get_eq_or rfl rfl rfl
      ((g.get_sweep now idleAfter key).imp_right fun hd => ⟨trivial, hd⟩)

omit h

lemma recorded_of_run (key : String) {period burst maxTrackedKeys : ℕ} (hab : a ≤ b)
    (hr : Run (Guarded Gcra.BelowCap GcraEvent.Step) (.new period burst maxTrackedKeys)
      events g)
    (hs : events.Pairwise fun e e' => e.IsSweep → e.now ≤ e'.now) :
    Recorded key a b events g := by
  induction hr with
  | start =>
    refine ⟨Or.inl rfl, ?_⟩
    rw [allowedIn, List.countP_nil, zero_mul, add_zero]
    exact hab.trans (Nat.le_add_right _ _)
  | next _ hst ih =>
    rw [List.pairwise_append] at hs
    exact (ih hs.1).step hst.1 hst.2.1 fun e' he' =>
      hs.2.2 e' he' _ (List.mem_singleton_self _)

end

lemma GcraEvent.Step.settings_eq {g g' : Gcra} {e : GcraEvent} (h : e.Step g g') :
    g'.period = g.period ∧ g'.tau = g.tau ∧ g'.maxTrackedKeys = g.maxTrackedKeys := by
  cases e with
  | check k now decision =>
    obtain ⟨-, rfl⟩ := step_check_iff.mp h
    rw [Gcra.check_eq_insert]
    exact ⟨rfl, rfl, rfl⟩
  | sweep now idleAfter =>
    obtain rfl : g.sweep now idleAfter = g' := h
    exact ⟨rfl, rfl, rfl⟩

lemma settings_of_run {period burst maxTrackedKeys : ℕ} {events : List GcraEvent} {g : Gcra}
    (hr : Run GcraEvent.Step (.new period burst maxTrackedKeys) events g) :
    g.period = period ∧ g.tau = min (period * max burst 1) durationMax ∧
      g.maxTrackedKeys = max maxTrackedKeys 1 := by
  refine hr.invariant (I := fun g : Gcra => g.period = period ∧
    g.tau = min (period * max burst 1) durationMax ∧ g.maxTrackedKeys = max maxTrackedKeys 1)
    ?_ ⟨rfl, rfl, rfl⟩
  rintro g e g' hs ⟨hp, ht, hc⟩
  obtain ⟨hp', ht', hc'⟩ := hs.settings_eq
  exact ⟨hp'.trans hp, ht'.trans ht, hc'.trans hc⟩

lemma burst_bound {n period burst tau T : ℕ} (hta : tau ≤ min (period * max burst 1) durationMax)
    (hm : n * period ≤ T + tau) (hp : 0 < period) : n ≤ max burst 1 + T / period := by
  have ht : tau ≤ max burst 1 * period := by
    rw [mul_comm]
    exact hta.trans (min_le_left _ _)
  calc n ≤ (T + max burst 1 * period) / period :=
        (Nat.le_div_iff_mul_le hp).mpr (hm.trans (Nat.add_le_add_left ht T))
    _ = max burst 1 + T / period := by rw [Nat.add_mul_div_right _ _ hp, add_comm]

/-- **GCRA bounds every interval.**  A limiter that never reaches its key cap lets at most `(T +
tau) / period` requests of one key through in any interval of clock length `T`, in every run
without sweeps, whatever the order of the clock readings, and in every run with sweeps whose
readings do not go back. -/
theorem gcra_bounds_interval (period burst maxTrackedKeys : ℕ) {events : List GcraEvent}
    {g : Gcra}
    (hrun : Run (Guarded Gcra.BelowCap GcraEvent.Step) (.new period burst maxTrackedKeys)
      events g)
    (hclock : (∀ e ∈ events, ¬ e.IsSweep) ∨ events.Pairwise fun e e' => e.now ≤ e'.now)
    (key : String) (a T : ℕ) :
    allowedIn key a (a + T) events * period ≤ T + g.tau ∧
      (0 < period → allowedIn key a (a + T) events ≤ max burst 1 + T / period) := by
  have hsw : events.Pairwise fun e e' => e.IsSweep → e.now ≤ e'.now := by
    rcases hclock with hn | hso
    · exact List.pairwise_of_forall_mem_list fun e he _ _ hswe => absurd hswe (hn e he)
    · exact hso.imp (by intro _ _ h _; exact h)
  obtain ⟨hp, ht, -⟩ := settings_of_run (hrun.mono fun _ _ _ hs => hs.2.1)
  have hb := (recorded_of_run key (Nat.le_add_right a T) hrun hsw).bound
  rw [hp] at hb
  have hm : allowedIn key a (a + T) events * period ≤ T + g.tau := by omega
  exact ⟨hm, burst_bound ht.le hm⟩

/-- Four requests close to the clock's origin, with readings that go back: the first two take the
fallback, the third just fits, the fourth does not. -/
theorem gcra_bounds_interval_backwards :
    let events : List GcraEvent := [.check "k" 50 .allow, .check "k" 40 .allow,
      .check "k" 50 .allow, .check "k" 45 (.deny 105)]
    ∃ g, Run (Guarded Gcra.BelowCap GcraEvent.Step) (.new 100 3 10) events g ∧
      allowedIn "k" 40 (40 + 10) events = 3 ∧ 3 * 100 ≤ 10 + g.tau ∧ 3 ≤ max 3 1 + 10 / 100 := by
  intro events
  obtain ⟨g, hr⟩ : ∃ g, Run (Guarded Gcra.BelowCap GcraEvent.Step) (.new 100 3 10) events g :=
    ⟨_, (((Run.start.next (Gcra.BelowCap.check (by decide) "k" 50 (by decide))).next
      (Gcra.BelowCap.check (by decide) "k" 40 (by decide))).next
      (Gcra.BelowCap.check (by decide) "k" 50 (by decide))).next
      (Gcra.BelowCap.check (by decide) "k" 45 (by decide))⟩
  have hn : ∀ e ∈ events, ¬ e.IsSweep := by simp [events, GcraEvent.IsSweep]
  have hc : allowedIn "k" 40 (40 + 10) events = 3 := by decide
  have hb := gcra_bounds_interval 100 3 10 hr (Or.inl hn) "k" 40 10
  rw [hc] at hb
  exact ⟨g, hr, hc, hb.1, hb.2 (by decide)⟩

end LoadBalancer.RateLimit
