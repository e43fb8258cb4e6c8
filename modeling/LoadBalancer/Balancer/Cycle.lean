import LoadBalancer.Balancer.Strategies
import LoadBalancer.Lib.Interleaving
import LoadBalancer.Lib.Rotation

/-!
# Weighted round robin over a cycle

While the eligible backends and their weights stay as they are, the cursor is all that changes from
one pick to the next, so picks are a rotation: in any `cycle` of them, as many as the capped
weights sum up to, each backend is picked exactly as often as it weighs.

Concurrent callers read the pool, take a number from the cursor, and walk the weights, each in a
step of its own.  The numbers still go out one by one, so the same holds of the picks that took the
numbers of a cycle, in whatever order they return.
-/

namespace LoadBalancer.Balancer.WeightedRoundRobin

open LoadBalancer.Core Interleaving List

/-! ## The weights a pick walks over -/

def capped (excluded : List BackendId) (weights : List (BackendId × ℕ)) : List (BackendId × ℕ) :=
  (weights.filter fun x => !excluded.contains x.1).map fun x => (x.1, min x.2 maxWeight)

/-- The number of picks after which all begins again. -/
def cycle (excluded : List BackendId) (weights : List (BackendId × ℕ)) : ℕ :=
  ((capped excluded weights).map fun x => x.2).sum

/-- The answer of a pick that took the number `k` from the cursor. -/
def answer (excluded : List BackendId) (weights : List (BackendId × ℕ)) (k : ℕ) :
    Option BackendId :=
  pickByWeight (capped excluded weights) (k % cycle excluded weights)

lemma weightOf_capped {pool : BackendPool} (hp : pool.Consistent) {excluded : List BackendId}
    {id : BackendId} {weight : ℕ} (hm : (id, weight) ∈ pool.eligibleWithWeights)
    (hid : id ∉ excluded) :
    Rotation.weightOf id (capped excluded pool.eligibleWithWeights) = min weight maxWeight := by
  have hids : pool.eligibleWithWeights.map (fun x => x.1) = pool.eligibleBackends := by
    rw [BackendPool.eligibleWithWeights, BackendPool.eligibleBackends, hp.eligibleMap_eq,
      hp.eligibleMap_eq, map_map]
    rfl
  have hn : ((capped excluded pool.eligibleWithWeights).map fun x => x.1).Nodup := by
    rw [capped, map_map]
    exact (hids ▸ hp.nodup_eligibleBackends).sublist (filter_sublist.map _)
  refine Rotation.weightOf_eq hn (mem_map.mpr ⟨(id, weight), ?_, rfl⟩)
  exact mem_filter.mpr ⟨hm, by simpa using hid⟩

lemma count_answers {pool : BackendPool} (hp : pool.Consistent) {excluded : List BackendId}
    {id : BackendId} {weight : ℕ} (hm : (id, weight) ∈ pool.eligibleWithWeights)
    (hid : id ∉ excluded) (start : ℕ) :
    ((List.range' start (cycle excluded pool.eligibleWithWeights)).map
      (answer excluded pool.eligibleWithWeights)).count (some id) = min weight maxWeight :=
  (Rotation.count_draws (capped excluded pool.eligibleWithWeights) le_rfl start id).trans
    (weightOf_capped hp hm hid)

/-! ## One caller -/

/-- The answers of one pick after another, each with the pool as it is then. -/
def picks (excluded : List BackendId) : WeightedRoundRobin → List BackendPool →
    List (Option BackendId)
  | _, [] => []
  | self, pool :: pools =>
    let (id, self) := self.pickExcluding pool excluded
    id :: picks excluded self pools

lemma picks_eq {excluded : List BackendId} {weights : List (BackendId × ℕ)}
    (hpos : 0 < cycle excluded weights) :
    ∀ {pools : List BackendPool} {self : WeightedRoundRobin},
      (∀ pool ∈ pools, pool.eligibleWithWeights = weights) →
      self.cursor.toNat + pools.length ≤ 2 ^ 64 →
      picks excluded self pools
        = (List.range' self.cursor.toNat pools.length).map (answer excluded weights)
  | [], _, _, _ => rfl
  | pool :: pools, self, hf, hw => by
    obtain ⟨hpo, hp⟩ := forall_mem_cons.mp hf
    subst hpo
    rw [length_cons] at hw
    have hpi : self.pickExcluding pool excluded =
        (answer excluded pool.eligibleWithWeights self.cursor.toNat, ⟨self.cursor + 1⟩) :=
      if_neg hpos.ne'
    rw [picks, hpi, length_cons, List.range'_succ, map_cons, List.cons.injEq]
    refine ⟨rfl, ?_⟩
    -- the cursor may come round with the last pick, but not before
    cases pools with
    | nil => rfl
    | cons next pools =>
      rw [length_cons] at hw
      have hc : (self.cursor + 1).toNat = self.cursor.toNat + 1 := by
        rw [UInt64.toNat_add]
        exact Nat.mod_eq_of_lt (by simp; omega)
      rw [← hc]
      exact picks_eq hpos hp (by rw [hc, length_cons]; omega)

/-! ## Any number of callers -/

/-- A pick on its way, or a write to the pool. -/
inductive Caller
  | pick
  /-- The pool has been read. -/
  | weighed (weighted : List (BackendId × ℕ))
  /-- A number has been taken. -/
  | took (weighted : List (BackendId × ℕ)) (value : UInt64)
  | write (pool : BackendPool)

/-- The pool and the balancer, with a history that the code does not keep: how many numbers have
been taken, and what was returned for which of them. -/
structure Picking where
  pool : BackendPool
  balancer : WeightedRoundRobin
  taken : ℕ
  answers : List (ℕ × Option BackendId)

def Caller.next (excluded : List BackendId) (s : Picking) : Caller → Picking × Option Caller
  | .pick => (s, some (.weighed (capped excluded s.pool.eligibleWithWeights)))
  | .weighed weighted =>
    if (weighted.map fun x => x.2).sum = 0 then (s, none)
    else ({ s with balancer := ⟨s.balancer.cursor + 1⟩, taken := s.taken + 1 },
      some (.took weighted s.balancer.cursor))
  | .took weighted value =>
    let total := (weighted.map fun x => x.2).sum
    ({ s with
        answers := s.answers ++ [(value.toNat, pickByWeight weighted (value.toNat % total))] },
      none)
  | .write pool => ({ s with pool := pool }, none)

/-- Picks start at any time, and so do writes that keep the eligible backends and their weights. -/
def Caller.Starts (weights : List (BackendId × ℕ)) : Caller → Prop
  | .pick => True
  | .write pool => pool.eligibleWithWeights = weights
  | _ => False

/-- The number `k` has been taken and not yet used. -/
def Caller.holds (k : ℕ) : Caller → ℕ
  | .took _ value => if value.toNat = k then 1 else 0
  | _ => 0

/-- What a caller has read, or is going to write, agrees with the weights. -/
def Caller.Agrees (excluded : List BackendId) (weights : List (BackendId × ℕ)) : Caller → Prop
  | .pick => True
  | .weighed seen => seen = capped excluded weights
  | .took seen _ => seen = capped excluded weights
  | .write pool => pool.eligibleWithWeights = weights

/-- Where the numbers are: each that went out has been used once or is held by one caller. -/
structure Accounts (excluded : List BackendId) (weights : List (BackendId × ℕ)) (first k : ℕ)
    (s : Picking) (held : ℕ) : Prop where
  fixed : s.pool.eligibleWithWeights = weights
  cursor : s.balancer.cursor.toNat = (first + s.taken) % 2 ^ 64
  once : first + s.taken ≤ 2 ^ 64 →
    (s.answers.map fun a => a.1).count k + held = if first ≤ k ∧ k < first + s.taken then 1 else 0
  right : ∀ a ∈ s.answers, a.2 = answer excluded weights a.1

section

variable {excluded : List BackendId} {weights : List (BackendId × ℕ)} {first k : ℕ}

lemma Accounts.step {s s' : Picking} {p : Caller} {p' : Option Caller} {rest : ℕ}
    (h : Accounts excluded weights first k s (rest + p.holds k)) (hp : p.Agrees excluded weights)
    (hs : stepOf (Caller.next excluded) s p s' p') :
    Accounts excluded weights first k s' (rest + p'.elim 0 (Caller.holds k)) ∧
      ∀ q ∈ p', q.Agrees excluded weights := by
  cases p with
  | pick =>
    cases hs
    refine ⟨h, fun q hq => ?_⟩
    cases hq
    exact congrArg (capped excluded) h.fixed
  | weighed seen =>
    rw [stepOf, Caller.next] at hs
    split_ifs at hs with hz
    · cases hs
      exact ⟨h, fun q hq => by cases hq⟩
    · cases hs
      refine ⟨⟨h.fixed, ?_, fun hw => ?_, h.right⟩, fun q hq => ?_⟩
      · rw [UInt64.toNat_add, h.cursor, ← Nat.add_assoc]
        simp
      · -- the number that goes out is the next one
        have hc : s.balancer.cursor.toNat = first + s.taken := h.cursor.trans (Nat.mod_eq_of_lt hw)
        have ho : (s.answers.map fun a => a.1).count k + rest
            = if first ≤ k ∧ k < first + s.taken then 1 else 0 :=
          h.once (Nat.le_of_succ_le hw)
        rw [Option.elim_some, Caller.holds, ← add_assoc, ho, hc]
        dsimp only
        split_ifs <;> omega
      · cases hq
        exact hp
  | took seen value =>
    cases hs
    refine ⟨⟨h.fixed, h.cursor, fun hw => ?_, fun a ha => ?_⟩, fun q hq => by cases hq⟩
    · have ho := h.once hw
      rw [← ho, Caller.holds, map_append, count_append, map_singleton,
        count_singleton, Option.elim_none]
      simp only [beq_iff_eq]
      omega
    · rcases mem_append.mp ha with ha | ha
      · exact h.right a ha
      · obtain rfl := mem_singleton.mp ha
        obtain rfl : seen = capped excluded weights := hp
        rfl
  | write pool =>
    cases hs
    exact ⟨⟨hp, h.cursor, h.once, h.right⟩, fun q hq => by cases hq⟩

lemma accounts_of_run {pool : BackendPool} {self : WeightedRoundRobin}
    {events : List (Event Caller)} {c : Config Picking Caller}
    (hr : Run (Step (Caller.Starts pool.eligibleWithWeights) (stepOf (Caller.next excluded)))
      (idle ⟨pool, self, 0, []⟩) events c) (k : ℕ) :
    ∃ S : Finset ℕ, (∀ i ∉ S, c.threads i = none) ∧
      Accounts excluded pool.eligibleWithWeights self.cursor.toNat k c.shared
        (held (Caller.holds k) c.threads S) := by
  have hini : Accounts excluded pool.eligibleWithWeights self.cursor.toNat k
      ⟨pool, self, 0, []⟩ 0 :=
    { fixed := rfl
      cursor := (Nat.mod_eq_of_lt self.cursor.toNat_lt).symm
      once := fun _ => (if_neg fun hk => absurd hk.1 (not_le.mpr hk.2)).symm
      right := fun a ha => absurd ha not_mem_nil }
  have hst : ∀ p, Caller.Starts pool.eligibleWithWeights p →
      p.holds k = 0 ∧ p.Agrees excluded pool.eligibleWithWeights := by
    intro p hp
    cases p with
    | pick => exact ⟨rfl, trivial⟩
    | weighed | took => exact hp.elim
    | write _ => exact ⟨rfl, hp⟩
  exact (ledger_with hini hst (fun s p s' p' rest h hp hs => h.step hp hs) hr).1

end

/-! ## Exact over every cycle -/

/-- **Exact over every cycle.**  A cycle of picks by one caller, and the picks of any callers that
took the numbers of a cycle, once they have returned. -/
theorem exact_over_every_cycle {pool : BackendPool} (hp : pool.Consistent)
    (excluded : List BackendId) (hpos : 0 < cycle excluded pool.eligibleWithWeights)
    (self : WeightedRoundRobin) {id : BackendId} {weight : ℕ}
    (hmem : (id, weight) ∈ pool.eligibleWithWeights) (hid : id ∉ excluded) :
    (∀ pools : List BackendPool,
      (∀ pool' ∈ pools, pool'.eligibleWithWeights = pool.eligibleWithWeights) →
      pools.length = cycle excluded pool.eligibleWithWeights →
      self.cursor.toNat + pools.length ≤ 2 ^ 64 →
      (picks excluded self pools).count (some id) = min weight maxWeight) ∧
    ∀ (events : List (Event Caller)) (c : Config Picking Caller),
      Run (Step (Caller.Starts pool.eligibleWithWeights) (stepOf (Caller.next excluded)))
        (idle ⟨pool, self, 0, []⟩) events c →
      self.cursor.toNat + c.shared.taken ≤ 2 ^ 64 →
      ∀ start, self.cursor.toNat ≤ start →
      start + cycle excluded pool.eligibleWithWeights ≤ self.cursor.toNat + c.shared.taken →
      (∀ i weighted value, c.threads i = some (.took weighted value) →
        ¬ (start ≤ value.toNat ∧
          value.toNat < start + cycle excluded pool.eligibleWithWeights)) →
      ((c.shared.answers.filter fun a => start ≤ a.1 ∧
          a.1 < start + cycle excluded pool.eligibleWithWeights).map fun a => a.2).count (some id)
        = min weight maxWeight := by
  refine ⟨fun pools hf hl hw => ?_,
    fun events c hru hw start hs ht hr => ?_⟩
  · rw [picks_eq hpos hf hw, hl]
    exact count_answers hp hmem hid _
  · have ho : ∀ k, start ≤ k → k < start + cycle excluded pool.eligibleWithWeights →
        (c.shared.answers.map fun a => a.1).count k = 1 := by
      intro k hle hlt
      obtain ⟨S, -, h⟩ := accounts_of_run hru k
      have hn : held (Caller.holds k) c.threads S = 0 := by
        refine Finset.sum_eq_zero fun i _ => ?_
        cases hi : c.threads i with
        | none => rfl
        | some p =>
          cases p with
          | took weighted value =>
            refine if_neg ?_
            rintro rfl
            exact hr i weighted value hi ⟨hle, hlt⟩
          | _ => rfl
      have hon := h.once hw
      rwa [hn, add_zero, if_pos ⟨hs.trans hle, hlt.trans_le ht⟩] at hon
    obtain ⟨S, -, h⟩ := accounts_of_run hru start
    rw [(Rotation.window_perm h.right ho).count_eq]
    exact count_answers hp hmem hid start

def twoToOne : BackendPool :=
  .withMaxEjectedFraction [⟨"a", "10.0.0.1:80", 2, none, 0⟩, ⟨"b", "10.0.0.2:80", 1, none, 0⟩] none

def startsPick : Caller → Bool
  | .pick => true
  | _ => false

lemma starts_of_startsPick (weights : List (BackendId × ℕ)) (p : Caller)
    (h : startsPick p = true) : p.Starts weights := by
  cases p with
  | pick => trivial
  | _ => cases h

/-- Three picks of one caller, and three callers that take their numbers in turn and return in the
opposite order. -/
theorem exact_over_every_cycle_two_to_one :
    (picks [] ⟨7⟩ [twoToOne, twoToOne, twoToOne]).count (some "a") = 2 ∧
      ∃ events, ∃ c : Config Picking Caller,
        Run (Step (Caller.Starts twoToOne.eligibleWithWeights) (stepOf (Caller.next [])))
          (idle ⟨twoToOne, ⟨7⟩, 0, []⟩) events c ∧
        ((c.shared.answers.filter fun a => 7 ≤ a.1 ∧ a.1 < 10).map fun a => a.2).count (some "a")
          = 2 := by
  have hp : twoToOne.Consistent := (BackendPool.lists_withMaxEjectedFraction (by decide) _).1
  have hw : twoToOne.eligibleWithWeights = [("a", 2), ("b", 1)] := by decide +kernel
  have hc : cycle [] twoToOne.eligibleWithWeights = 3 := by
    rw [hw]
    rfl
  have hme : ("a", 2) ∈ twoToOne.eligibleWithWeights := by
    rw [hw]
    exact mem_cons_self
  obtain ⟨ho, hm⟩ := exact_over_every_cycle hp [] (hc ▸ three_pos) ⟨7⟩ hme not_mem_nil
  refine ⟨ho _ (by simp) hc.symm (by decide), ?_⟩
  have he : ((exec startsPick (fun _ _ => true) (Caller.next [])
      (idle ⟨twoToOne, ⟨7⟩, 0, []⟩)
      [.spawn 0 .pick, .spawn 1 .pick, .spawn 2 .pick, .step 0, .step 1, .step 2,
        .step 0, .step 1, .step 2, .step 2, .step 1, .step 0]).any
      fun c => c.shared.taken = 3 ∧ ∀ i < 3, (c.threads i).isNone) = true := by
    decide +kernel
  obtain ⟨c, hs, ht, hd⟩ := exists_run_of_exec (starts_of_startsPick _) (fun _ _ _ => True.intro) he
  have hr := run_of_scheduled hs
  have hq : Quiescent c := quiescent_of_run hs (by simp [Event.thread]) hd
  have hwi := hm _ c hr (ht ▸ by decide) 7 (by decide)
    (by rw [hc, ht]; decide) fun i weighted value hi => by
      rw [hq i] at hi
      cases hi
  rw [hc] at hwi
  exact ⟨_, c, hr, hwi⟩

end LoadBalancer.Balancer.WeightedRoundRobin
