import LoadBalancer.RateLimit.Sweeps

/-!
# The limiter at its key cap

Once `tracked` reaches the cap, a request whose key has no entry is counted under the overflow key,
and all such requests share that key's time.  A stored time is a small machine of its own, moved by
the requests charged to it and by nothing else: `entryStep` is one request on one time.  A run of
the limiter, seen from one entry, is a run of that machine (`run_served`).
-/

namespace LoadBalancer.RateLimit

open List AList

/-- `key.starts_with('\0')`. -/
def StartsWithNul (key : String) : Prop := key.toList.head? = some '\x00'

instance (key : String) : Decidable (StartsWithNul key) := inferInstanceAs (Decidable (_ = _))

lemma ne_overflowKey {key : String} (h : ¬ StartsWithNul key) : key ≠ overflowKey := by
  rintro rfl
  exact h (by decide)

/-! ## One stored time -/

/-- A request with its clock reading and its result, charged to one stored time. -/
def entryStep (period tau : ℕ) (tat : Option ℕ) (charge : ℕ × Decision) (tat' : Option ℕ) : Prop :=
  let r := Gcra.admitAt (tat.getD charge.1) charge.1 period tau
  charge.2 = r.1 ∧ tat' = some r.2

def allowedCharges (a b : ℕ) (charges : List (ℕ × Decision)) : ℕ :=
  charges.countP fun c => c.2 = .allow ∧ a ≤ c.1 ∧ c.1 ≤ b

section

variable {period tau : ℕ} {tat tat' : Option ℕ} {charges : List (ℕ × Decision)}

lemma entry_deterministic {charges' : List (ℕ × Decision)} {tat'' : Option ℕ}
    (hr : Run (entryStep period tau) tat charges tat')
    (hr' : Run (entryStep period tau) tat charges' tat'')
    (hc : charges.map Prod.fst = charges'.map Prod.fst) :
    charges = charges' ∧ tat' = tat'' := by
  induction hr generalizing charges' tat'' with
  | start =>
    obtain rfl : charges' = [] := map_eq_nil_iff.mp hc.symm
    generalize hn : ([] : List (ℕ × Decision)) = charges at hr'
    cases hr' with
    | start => exact ⟨hn, rfl⟩
    | next => simp at hn
  | @next charges t t' c _ hs ih =>
    obtain ⟨rest, c', rfl⟩ : ∃ rest c', charges' = rest ++ [c'] := by
      rcases eq_nil_or_concat charges' with rfl | ⟨rest, c', rfl⟩
      · simp at hc
      · exact ⟨rest, c', concat_eq_append⟩
    obtain ⟨t₁, hr₁, hs'⟩ := Run.snoc_iff.mp hr'
    rw [map_append, map_append] at hc
    obtain ⟨hc, hl⟩ := append_inj' hc rfl
    obtain ⟨rfl, rfl⟩ := ih hr₁ hc
    have hno : c.1 = c'.1 := singleton_injective hl
    obtain ⟨hd, rfl⟩ := hs
    obtain ⟨hd', rfl⟩ := hs'
    rw [← hno] at hd' ⊢
    exact ⟨by rw [Prod.ext hno (hd.trans hd'.symm)], rfl⟩

/-- Each charge let through moves the time on by `period`, and none leaves it more than `tau`
ahead of its own reading. -/
lemma entry_bound {a b : ℕ} (hab : a ≤ b) (hr : Run (entryStep period tau) tat charges tat') :
    (allowedCharges a b charges = 0 ∨
      ∃ t, tat' = some t ∧ a + allowedCharges a b charges * period ≤ t) ∧
    a + allowedCharges a b charges * period ≤ b + tau := by
  induction hr with
  | start =>
    refine ⟨Or.inl rfl, ?_⟩
    rw [allowedCharges, countP_nil, zero_mul]
    omega
  | @next charges t₀ t₁ c _ hs ih =>
    obtain ⟨hl, hb⟩ := ih
    obtain ⟨hd, rfl⟩ := hs
    have hle : allowedCharges a b charges = 0 ∨
        a + allowedCharges a b charges * period ≤ t₀.getD c.1 := by
      refine hl.imp_right ?_
      rintro ⟨t, rfl, hle⟩
      exact hle
    have hsn : allowedCharges a b (charges ++ [c]) = allowedCharges a b charges +
        if c.2 = .allow ∧ a ≤ c.1 ∧ c.1 ≤ b then 1 else 0 := by
      rw [allowedCharges, countP_append, countP_singleton]
      simp only [decide_eq_true_eq]
      rfl
    rw [hsn]
    rcases Gcra.admitAt_eq (t₀.getD c.1) c.1 period tau with
      ⟨hal, ha, hn⟩ | ⟨hde, -, hsa⟩
    · rw [hn]
      split_ifs with hin
      · have hst : a + (allowedCharges a b charges + 1) * period
            ≤ max (t₀.getD c.1) c.1 + period := by
          rw [add_one_mul]
          rcases hle with h0 | hle
          · rw [h0, zero_mul]
            omega
          · omega
        exact ⟨Or.inr ⟨_, rfl, hst⟩, by omega⟩
      · rw [add_zero]
        exact ⟨hle.imp_right fun hle => ⟨_, rfl, by omega⟩, hb⟩
    · rw [hsa, if_neg fun hin => hde (hd.symm.trans hin.1)]
      exact ⟨hle.imp_right fun hle => ⟨_, rfl, hle⟩, hb⟩

end

/-! ## The limiter seen from one entry -/

namespace GcraEvent

def apply (g : Gcra) : GcraEvent → Gcra
  | check key now _ => (g.check key now).2
  | sweep now idleAfter => g.sweep now idleAfter

lemma Step.eq_apply {g g' : Gcra} {e : GcraEvent} (h : e.Step g g') : g' = e.apply g := by
  cases e with
  | check key now decision => exact (step_check_iff.mp h).2.symm
  | sweep now idleAfter => exact h.symm

/-- The reading and the result of a request whose key satisfies `P`. -/
def charge (P : String → Bool) : GcraEvent → Option (ℕ × Decision)
  | check key now decision => if P key then some (now, decision) else none
  | sweep .. => none

/-- The call charges the entry `k` exactly with a request that satisfies `P`, and otherwise leaves
its time alone. -/
def Serves (P : Gcra → String → Bool) (k : String) (g g' : Gcra) : GcraEvent → Prop
  | check key _ _ => P g key = true ↔ g.trackedKey key = k
  | sweep .. => g'.state.get k = g.state.get k

end GcraEvent

/-- The requests of a run, with their readings and results, that found the limiter and their key
in a state that satisfies `P`. -/
def served (P : Gcra → String → Bool) : Gcra → List GcraEvent → List (ℕ × Decision)
  | _, [] => []
  | g, e :: rest => (e.charge (P g)).toList ++ served P (e.apply g) rest

section

variable {step : Gcra → GcraEvent → Gcra → Prop} {P : Gcra → String → Bool}
  {events : List GcraEvent} {g g' : Gcra} {e : GcraEvent}

lemma served_append (P : Gcra → String → Bool) : ∀ (events : List GcraEvent) (g : Gcra)
    (events' : List GcraEvent), served P g (events ++ events')
      = served P g events ++ served P (events.foldl GcraEvent.apply g) events'
  | [], g, events' => rfl
  | e :: events, g, events' => by
      rw [cons_append, served, served_append P events, served, foldl_cons, append_assoc]

variable (hst : ∀ g e g', step g e g' → e.Step g g')

include hst

lemma foldl_apply_of_run (hr : Run step g events g') : events.foldl GcraEvent.apply g = g' := by
  induction hr with
  | start => rfl
  | next _ hs ih => rw [foldl_append, ih, (hst _ _ _ hs).eq_apply]; rfl

/-- **A run of the limiter is a run of each of its entries**, moved by the requests it serves. -/
lemma run_served {k : String} (hse : ∀ g e g', step g e g' → e.Serves P k g g')
    (hr : Run step g events g') :
    Run (entryStep g.period g.tau) (g.state.get k) (served P g events) (g'.state.get k) ∧
      g'.period = g.period ∧ g'.tau = g.tau := by
  induction hr with
  | start => exact ⟨.start, rfl, rfl⟩
  | @next events g₁ g' e hr hs ih =>
    obtain ⟨ih, hp, ht⟩ := ih
    obtain ⟨hp', ht', -⟩ := (hst _ _ _ hs).settings_eq
    refine ⟨?_, hp'.trans hp, ht'.trans ht⟩
    rw [served_append, foldl_apply_of_run hst hr, served, served, append_nil]
    have hc := hse _ _ _ hs
    cases e with
    | check key now decision =>
      have hch : g₁.check key now = (decision, g') := hst _ _ _ hs
      rw [Gcra.check_eq_insert, hp, ht, Prod.mk.injEq] at hch
      obtain ⟨hd, rfl⟩ := hch
      dsimp only
      rw [get_insert]
      rw [GcraEvent.Serves] at hc
      by_cases hk : g₁.trackedKey key = k
      · rw [GcraEvent.charge, if_pos (hc.mpr hk), if_pos hk.symm]
        exact ih.next ⟨by rw [← hd, hk], by rw [hk]⟩
      · rw [GcraEvent.charge, if_neg (mt hc.mp hk), if_neg (Ne.symm hk), Option.toList_none,
          append_nil]
        exact ih
    | sweep now idleAfter =>
      rw [GcraEvent.Serves] at hc
      rw [GcraEvent.charge, Option.toList_none, append_nil, hc]
      exact ih

end

/-! ## Stored keys -/

/-- The counter is right, and only the overflow entry is ever stored past the cap. -/
structure Capped (g : Gcra) : Prop where
  counted : Counted g
  size_le : g.state.size ≤ g.maxTrackedKeys + 1
  overflow : g.state.size = g.maxTrackedKeys + 1 → overflowKey ∈ g.state

section

variable {g g' : Gcra} {e : GcraEvent}

lemma Capped.check (h : Capped g) (key : String) (now : ℕ) : Capped (g.check key now).2 := by
  have hc := h.counted.check key now
  have ht : g.tracked = g.state.size := h.counted
  have hle := h.size_le
  rw [Gcra.check_eq_insert] at hc ⊢
  dsimp only at hc ⊢
  set v := (Gcra.admitAt ((g.state.get (g.trackedKey key)).getD now) now g.period g.tau).2
  by_cases hm : g.trackedKey key ∈ g.state
  · have hs := size_insert_of_mem v hm
    refine ⟨hc, hs.trans_le hle, fun hf => ?_⟩
    exact (mem_insert _).mpr (Or.inr (h.overflow (hs.symm.trans hf)))
  · have hs := size_insert_of_notMem v hm
    by_cases ho : g.maxTrackedKeys ≤ g.tracked ∧ key ∉ g.state
    · -- a redirected request stores the overflow entry, which was not there
      have hk : g.trackedKey key = overflowKey := if_pos ho
      have hr : g.state.size ≠ g.maxTrackedKeys + 1 := fun hf =>
        hm (hk ▸ h.overflow hf)
      have hle' : g.state.size + 1 ≤ g.maxTrackedKeys + 1 := by omega
      refine ⟨hc, hs.trans_le hle', fun _ => ?_⟩
      exact (mem_insert _).mpr (Or.inl hk.symm)
    · have hk : g.trackedKey key = key := if_neg ho
      have hr : g.tracked < g.maxTrackedKeys := by
        by_contra hf
        exact ho ⟨not_lt.mp hf, hk ▸ hm⟩
      have hlt : g.state.size + 1 < g.maxTrackedKeys + 1 := by omega
      exact ⟨hc, hs.trans_le hlt.le, fun hf =>
        absurd (hs.symm.trans hf) hlt.ne⟩

lemma Capped.sweep (h : Capped g) (now idleAfter : ℕ) : Capped (g.sweep now idleAfter) := by
  have hle : (g.sweep now idleAfter).state.size ≤ g.state.size := length_filter_le _ _
  refine ⟨rfl, hle.trans h.size_le, fun hf => ?_⟩
  -- nothing was dropped, so the overflow entry is still there
  have hs : (g.sweep now idleAfter).state.size = g.state.size :=
    le_antisymm hle (h.size_le.trans_eq hf.symm)
  have hsa : (g.sweep now idleAfter).state = g.state := AList.ext (filter_sublist.eq_of_length hs)
  rw [hsa]
  exact h.overflow (hs.symm.trans hf)

lemma capped_of_run {period burst maxTrackedKeys : ℕ} {events : List GcraEvent}
    (hr : Run GcraEvent.Step (.new period burst maxTrackedKeys) events g) : Capped g := by
  refine hr.invariant (I := Capped) ?_ ⟨rfl, Nat.zero_le _, nofun⟩
  intro g e g' hs h
  cases e with
  | check key now decision =>
    obtain ⟨-, rfl⟩ := GcraEvent.step_check_iff.mp hs
    exact h.check key now
  | sweep now idleAfter =>
    obtain rfl : g.sweep now idleAfter = g' := hs
    exact h.sweep now idleAfter

end

/-! ## Isolation -/

/-- A call during which `key` is counted under its own name and does not lose its entry. -/
def OwnEntry (key : String) (g : Gcra) (e : GcraEvent) (g' : Gcra) : Prop :=
  e.Step g g' ∧ g.trackedKey key = key ∧ (key ∈ g.state → key ∈ g'.state)

def ownChecks (key : String) (events : List GcraEvent) : List (ℕ × Decision) :=
  events.filterMap (GcraEvent.charge fun k => k = key)

def atCapacity (g : Gcra) (key : String) : Bool := g.maxTrackedKeys ≤ g.tracked ∧ key ∉ g.state

section

variable {key : String} {events : List GcraEvent} {g g' : Gcra}

lemma served_eq_ownChecks (key : String) : ∀ (events : List GcraEvent) (g : Gcra),
    served (fun _ k => k = key) g events = ownChecks key events
  | [], _ => rfl
  | e :: events, g => by
      rw [served, served_eq_ownChecks key events, ownChecks, ownChecks, filterMap_cons]
      cases e.charge fun k => k = key <;> rfl

lemma run_ownChecks (hkey : ¬ StartsWithNul key) (hr : Run (OwnEntry key) g events g') :
    Run (entryStep g.period g.tau) (g.state.get key) (ownChecks key events)
      (g'.state.get key) := by
  rw [← served_eq_ownChecks key events g]
  refine (run_served (fun _ _ _ hs => hs.1) ?_ hr).1
  rintro g e g' ⟨hs, ho, hke⟩
  cases e with
  | check k now decision =>
    refine decide_eq_true_iff.trans ⟨fun hk => hk ▸ ho, fun hk => ?_⟩
    rw [Gcra.trackedKey] at hk
    split_ifs at hk
    · exact absurd hk.symm (ne_overflowKey hkey)
    · exact hk
  | sweep now idleAfter =>
    obtain rfl : g.sweep now idleAfter = g' := hs
    rcases g.get_sweep now idleAfter key with hsa | ⟨hn, -⟩
    · exact hsa
    · have hg := mt hke (get_eq_none_iff.mp hn)
      exact hn.trans (get_eq_none_iff.mpr hg).symm

/-- Between sweeps, the requests that arrive at capacity without an entry are those charged to
the overflow entry. -/
lemma run_atCapacity (he : ∀ e ∈ events, ¬ e.IsSweep ∧ ∀ key ∈ e.key, ¬ StartsWithNul key)
    (hr : Run GcraEvent.Step g events g') :
    Run (entryStep g.period g.tau) (g.state.get overflowKey) (served atCapacity g events)
      (g'.state.get overflowKey) := by
  refine (run_served (fun _ _ _ hs => hs.2) ?_ (hr.with_events he)).1
  rintro g e g' ⟨⟨hsw, hke⟩, hs⟩
  cases e with
  | check k now decision =>
    refine decide_eq_true_iff.trans ⟨fun hf => if_pos hf, fun hk => ?_⟩
    rw [Gcra.trackedKey] at hk
    split_ifs at hk with hf
    · exact hf
    · exact absurd hk (ne_overflowKey (hke k rfl))
  | sweep now idleAfter => exact absurd trivial hsw

end

/-- **Memory and isolation at the key cap.**  In every run of requests and sweeps:

* `tracked` counts the stored keys, and they are at most the cap and one more;
* while a key is counted under its own entry and keeps it, what its requests are told is decided by
  their clock readings and the entry they started from: any other run of a limiter with the same
  rate that serves the key with the same readings gives the same results;
* from one sweep to the next, the requests that arrive at capacity without an entry of their own
  share the budget of a single key. -/
theorem key_cap_isolation (period burst maxTrackedKeys : ℕ) {events : List GcraEvent} {g : Gcra}
    (hrun : Run GcraEvent.Step (.new period burst maxTrackedKeys) events g) :
    (g.state.size = g.tracked ∧ g.tracked ≤ max maxTrackedKeys 1 + 1) ∧
    (∀ key, ¬ StartsWithNul key → ∀ maxTrackedKeys' events' g',
      Run GcraEvent.Step (.new period burst maxTrackedKeys') events' g' →
      g.state.get key = g'.state.get key →
      ∀ later g₁ later' g₁', Run (OwnEntry key) g later g₁ → Run (OwnEntry key) g' later' g₁' →
      (ownChecks key later).map Prod.fst = (ownChecks key later').map Prod.fst →
      ownChecks key later = ownChecks key later') ∧
    (∀ later g₁, Run GcraEvent.Step g later g₁ →
      (∀ e ∈ later, ¬ e.IsSweep ∧ ∀ key ∈ e.key, ¬ StartsWithNul key) → ∀ a T,
      allowedCharges a (a + T) (served atCapacity g later) * period ≤ T + g.tau ∧
      (0 < period → allowedCharges a (a + T) (served atCapacity g later)
        ≤ max burst 1 + T / period)) := by
  obtain ⟨hp, hta, hca⟩ := settings_of_run hrun
  have hc := capped_of_run hrun
  have ht : g.tracked = g.state.size := hc.counted
  refine ⟨⟨ht.symm, ?_⟩, ?_, ?_⟩
  · rw [ht, ← hca]
    exact hc.size_le
  · intro key hk maxTrackedKeys' events' g' hr' hg later g₁ later' g₁' hl hl' hcl
    obtain ⟨hp', hta', -⟩ := settings_of_run hr'
    have he := run_ownChecks hk hl
    have he' := run_ownChecks hk hl'
    rw [hp, hta, hg] at he
    rw [hp', hta'] at he'
    exact (entry_deterministic he he' hcl).1
  · intro later g₁ hl hev a T
    have hb := (entry_bound (Nat.le_add_right a T) (run_atCapacity hev hl)).2
    rw [hp] at hb
    have hm : allowedCharges a (a + T) (served atCapacity g later) * period ≤ T + g.tau := by
      omega
    exact ⟨hm, burst_bound hta.le hm⟩

/-- A limiter that may store one key: two newcomers share one budget, and the key that was there
first is told what it would be told without them. -/
theorem key_cap_isolation_sprayed :
    let sprayed : List GcraEvent :=
      [.check "b" 0 .allow, .check "c" 0 (.deny 100), .check "a" 40 (.deny 60)]
    let alone : List GcraEvent := [.check "a" 40 (.deny 60)]
    let g := ((Gcra.new 100 1 1).check "a" 0).2
    ∃ g₁ g₁', Run GcraEvent.Step (.new 100 1 1) [.check "a" 0 .allow] g ∧
      Run (OwnEntry "a") g sprayed g₁ ∧ Run (OwnEntry "a") g alone g₁' ∧
      g₁.state.size = 2 ∧ ownChecks "a" sprayed = ownChecks "a" alone ∧
      allowedCharges 0 (0 + 50) (served atCapacity g (sprayed.take 2)) * 100 ≤ 50 + g.tau := by
  intro sprayed alone g
  have ho : ∀ (g : Gcra) (key : String) (now : ℕ) (decision : Decision),
      (g.check key now).1 = decision → g.trackedKey "a" = "a" →
      "a" ∈ (g.check key now).2.state →
      OwnEntry "a" g (.check key now decision) (g.check key now).2 :=
    fun g key now decision hd ht hm =>
      ⟨.check hd, ht, fun _ => hm⟩
  have hr : Run GcraEvent.Step (.new 100 1 1) [.check "a" 0 .allow] g :=
    Run.start.next (.check (by decide))
  have hs : Run (OwnEntry "a") g sprayed _ :=
    ((Run.start.next (ho _ "b" 0 .allow (by decide) (by decide) (by decide))).next
      (ho _ "c" 0 (.deny 100) (by decide) (by decide) (by decide))).next
      (ho _ "a" 40 (.deny 60) (by decide) (by decide) (by decide))
  have ha : Run (OwnEntry "a") g alone _ :=
    Run.start.next (ho _ "a" 40 (.deny 60) (by decide) (by decide) (by decide))
  have hb : GcraEvent.Step g (.check "b" 0 .allow) (g.check "b" 0).2 := .check (by decide)
  have hc : GcraEvent.Step (g.check "b" 0).2 (.check "c" 0 (.deny 100)) _ := .check (by decide)
  have hn : Run GcraEvent.Step g (sprayed.take 2) _ := (Run.start.next hb).next hc
  obtain ⟨-, his, hsh⟩ := key_cap_isolation 100 1 1 hr
  exact ⟨_, _, hr, hs, ha, by decide, his "a" (by decide) 1 _ _ hr rfl _ _ _ _ hs ha (by decide),
    (hsh _ _ hn (by decide) 0 50).1⟩

end LoadBalancer.RateLimit
