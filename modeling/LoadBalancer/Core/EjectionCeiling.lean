import LoadBalancer.Core.Eligibility
import LoadBalancer.Lib.Interleaving

/-!
# The ejection ceiling under concurrency

`set_circuit_open` and `set_outlier_ejected` run on many threads at once.  A call that sets a flag
counts the ejected backends and stores the flag under `ejection_lock`.  Clearing a flag takes no
lock, and neither does setting a flag that the call has just loaded as set.

A store without the lock changes nothing if the flag is still set.  If another call clears it in
between, the store ejects the backend without a count, and the ceiling is broken.  In the schedules
that keep a clearing store out of that gap the ceiling holds.
-/

namespace LoadBalancer.Core

open Interleaving List

namespace BackendState

def isEjected (s : BackendState) : Bool := s.circuitOpen || s.outlierEjected

end BackendState

namespace EjectionFlag

lemma load_store_self (flag : EjectionFlag) (value : Bool) (s : BackendState) :
    flag.load (flag.store value s) = value := by
  cases flag <;> rfl

lemma load_store_of_ne {flag flag' : EjectionFlag} (h : flag' ≠ flag) (value : Bool)
    (s : BackendState) : flag'.load (flag.store value s) = flag'.load s := by
  cases flag <;> cases flag' <;> first | rfl | exact absurd rfl h

lemma isEjected_of_store_false {flag : EjectionFlag} {s : BackendState}
    (h : (flag.store false s).isEjected = true) : s.isEjected = true := by
  cases flag with
  | circuitOpen => exact Bool.or_eq_true_iff.mpr (Or.inr h)
  | outlierEjected =>
    rw [BackendState.isEjected, Bool.or_eq_true_iff] at h ⊢
    exact Or.inl (h.resolve_right Bool.false_ne_true)

end EjectionFlag

/-! ## Calls and their steps -/

/-- Where a call of `set_ejection_flag` is; `before` is whether the backend was confirmed when the
call began. -/
inductive EjectionCall
  /-- Before the backend is looked up. -/
  | enter (id : BackendId) (value : Bool) (flag : EjectionFlag) (nanos : ℕ)
  /-- Before the flag is loaded. -/
  | load (r : StateRef) (id : BackendId) (flag : EjectionFlag) (before : Bool) (nanos : ℕ)
  /-- Before the store without the lock. -/
  | store (r : StateRef) (value : Bool) (flag : EjectionFlag) (before : Bool) (nanos : ℕ)
  /-- Before the count and the store under the lock. -/
  | locked (r : StateRef) (id : BackendId) (flag : EjectionFlag) (before : Bool) (nanos : ℕ)
  /-- Before `stamp_if_became_eligible`. -/
  | stamp (r : StateRef) (before : Bool) (nanos : ℕ)
  deriving DecidableEq

namespace EjectionCall

def next (p : BackendPool) : EjectionCall → BackendPool × Option EjectionCall
  | enter id value flag nanos =>
    match p.inner.states.get id with
    | none => (p, none)
    | some r =>
      let before := (p.arena.read r).isConfirmed
      if !value || p.maxEjectedFraction.isNone then
        (p, some (store r value flag before nanos))
      else (p, some (load r id flag before nanos))
  | load r id flag before nanos =>
    if flag.load (p.arena.read r) then (p, some (store r true flag before nanos))
    else (p, some (locked r id flag before nanos))
  | store r value flag before nanos =>
    (p.modify r (flag.store value), some (stamp r before nanos))
  | locked r id flag before nanos =>
    (if p.exceedsEjectionCeiling id then p else p.modify r (flag.store true),
      some (stamp r before nanos))
  | stamp r before nanos => (p.stampIfBecameEligible r before nanos, none)

/-- The points at which calls start: those of `set_circuit_open` and `set_outlier_ejected`. -/
def starts : EjectionCall → Bool
  | enter _ _ _ _ => true
  | _ => false

def Step : Interleaving.Config BackendPool EjectionCall → Event EjectionCall →
    Interleaving.Config BackendPool EjectionCall → Prop :=
  Interleaving.Step (fun call => call.starts = true) (stepOf next)

end EjectionCall

/-! ## Counting -/

namespace BackendPool

def ejectedCount (p : BackendPool) : ℕ := p.members.countP BackendState.isEjected

variable {p p' : BackendPool}

lemma ejectedCount_eq (p : BackendPool) :
    p.ejectedCount = p.inner.ordered.countP fun r => (p.arena.read r).isEjected :=
  countP_map

variable (hp : p.Consistent)

include hp

lemma Consistent.nodup_ordered : p.inner.ordered.Nodup := by
  have hn := hp.nodup
  rw [hp.order_eq, members, map_map] at hn
  exact hn.of_map _

lemma Consistent.length_order : p.inner.order.length = p.inner.ordered.length := by
  rw [hp.order_eq, members, length_map, length_map]

lemma Consistent.perm_states :
    (p.inner.states.entries.map fun item => item.2).Perm p.inner.ordered := by
  have hre : ∀ item ∈ p.inner.states.entries,
      item.2 ∈ p.inner.ordered ∧ (p.arena.read item.2).id = item.1 :=
    fun item hite => (hp.states_iff _ _).mp (AList.mem_entries_iff_get.mp hite)
  refine (perm_ext_iff_of_nodup ?_ hp.nodup_ordered).mpr fun r => ?_
  · refine List.Nodup.map_on ?_ p.inner.states.nodupKeys.nodup
    intro x hx y hy hxy
    have hid : x.1 = y.1 := by rw [← (hre x hx).2, ← (hre y hy).2, hxy]
    exact Sigma.ext hid (heq_of_eq hxy)
  · rw [mem_map]
    constructor
    · rintro ⟨item, hite, rfl⟩
      exact (hre item hite).1
    · intro hr
      have hg := (hp.states_iff _ r).mpr ⟨hr, rfl⟩
      exact ⟨⟨(p.arena.read r).id, r⟩, AList.mem_entries_iff_get.mpr hg, rfl⟩

lemma Consistent.currentlyEjected_eq :
    (p.inner.states.entries.filter fun item =>
      (p.arena.read item.2).circuitOpen || (p.arena.read item.2).outlierEjected).length
      = p.ejectedCount := by
  rw [← countP_eq_length_filter, ejectedCount_eq, ← hp.perm_states.countP_eq, countP_map]
  rfl

lemma Consistent.room_of_not_exceeds {fraction : ℚ}
    (hf : p.maxEjectedFraction = some fraction) {id : BackendId} {r : StateRef}
    (hg : p.inner.states.get id = some r) (h : p.exceedsEjectionCeiling id = false) :
    (p.arena.read r).isEjected = true ∨
      ((p.ejectedCount + 1 : ℕ) : ℚ) ≤ fraction * p.inner.order.length := by
  have hr := ((hp.states_iff id r).mp hg).1
  have hpo : 0 < p.inner.order.length := by
    rw [hp.length_order]
    exact length_pos_of_mem hr
  unfold exceedsEjectionCeiling at h
  rw [hf, hg] at h
  dsimp only at h
  rw [hp.currentlyEjected_eq, if_neg hpo.ne'] at h
  by_cases he : ((p.arena.read r).circuitOpen || (p.arena.read r).outlierEjected) = true
  · exact Or.inl he
  · rw [if_neg he, decide_eq_false_iff_not, not_lt] at h
    exact Or.inr ((div_le_iff₀ (by exact_mod_cast hpo)).mp h)

lemma ejectedCount_le_succ (hinn : p'.inner = p.inner) (r : StateRef)
    (h : ∀ r' ≠ r, (p'.arena.read r').isEjected = true → (p.arena.read r').isEjected = true) :
    p'.ejectedCount ≤ p.ejectedCount + 1 := by
  rw [ejectedCount_eq, ejectedCount_eq, hinn, countP_eq_length_filter,
    countP_eq_length_filter, ← length_cons (a := r)]
  refine (List.Nodup.subperm (hp.nodup_ordered.filter _) fun r' hr' => ?_).length_le
  rw [mem_filter] at hr'
  by_cases hne : r' = r
  · exact hne ▸ mem_cons_self
  · exact mem_cons_of_mem _ (mem_filter.mpr ⟨hr'.1, h r' hne hr'.2⟩)

omit hp

lemma ejectedCount_le (hinn : p'.inner = p.inner)
    (h : ∀ r, (p'.arena.read r).isEjected = true → (p.arena.read r).isEjected = true) :
    p'.ejectedCount ≤ p.ejectedCount := by
  rw [ejectedCount_eq, ejectedCount_eq, hinn]
  exact countP_mono_left fun r _ => h r

lemma flags_stampIfBecameEligible (p : BackendPool) (r : StateRef) (before : Bool)
    (nanos : ℕ) (f : BackendState → Bool)
    (hf : ∀ s nanos generation, f { s with
      becameEligibleNanos := nanos, eligibilityGeneration := generation } = f s) (r' : StateRef) :
    f ((p.stampIfBecameEligible r before nanos).arena.read r') = f (p.arena.read r') := by
  unfold stampIfBecameEligible
  split_ifs
  · exact p.arena.modify_induction (fun s => hf s _ _) r r'
  · rfl

end BackendPool

/-! ## Every schedule that keeps clearing stores away -/

namespace EjectionCall

/-- No flag is cleared while another call, having loaded it as set, is about to store it. -/
def Undisturbed (c : Interleaving.Config BackendPool EjectionCall) : Event EjectionCall → Prop
  | .spawn _ _ => True
  | .step i => ∀ r flag before nanos,
      c.threads i = some (store r false flag before nanos) →
      ∀ j before' nanos', c.threads j ≠ some (store r true flag before' nanos')

/-- The pool is sound and within the ceiling. -/
structure Within (fraction : ℚ) (p : BackendPool) : Prop where
  consistent : p.Consistent
  fraction_eq : p.maxEjectedFraction = some fraction
  count_le : (p.ejectedCount : ℚ) ≤ fraction * p.inner.order.length

def Relies (p : BackendPool) : EjectionCall → Prop
  | load r id _ _ _ => p.inner.states.get id = some r
  | locked r id _ _ _ => p.inner.states.get id = some r
  | store r true flag _ _ => flag.load (p.arena.read r) = true
  | _ => True

variable {p p' : BackendPool} {fraction : ℚ}

variable {r : StateRef} {flag : EjectionFlag} {call : EjectionCall} (hp : Within fraction p)

include hp

lemma Within.of_flagWrite (h : BackendPool.FlagWrite p p')
    (hf : p'.maxEjectedFraction = p.maxEjectedFraction)
    (hc : p'.ejectedCount ≤ p.ejectedCount) : Within fraction p' where
  consistent := h.consistent hp.consistent
  fraction_eq := hf.trans hp.fraction_eq
  count_le := by
    rw [h.inner_eq]
    exact le_trans (by exact_mod_cast hc) hp.count_le

omit hp

lemma modify_of_load {value : Bool} (h : flag.load (p.arena.read r) = value) :
    p.modify r (flag.store value) = p := by
  have hr : (p.arena.modify r (flag.store value)) = p.arena := by
    unfold Arena.modify
    rw [show flag.store value (p.arena.read r) = p.arena.read r by subst h; cases flag <;> rfl,
      Function.update_eq_self]
  unfold BackendPool.modify
  rw [hr]

include hp

lemma Within.clear (r : StateRef) (flag : EjectionFlag) :
    Within fraction (p.modify r (flag.store false)) := by
  refine hp.of_flagWrite (BackendPool.FlagWrite.storeFlag p r flag false) rfl ?_
  refine BackendPool.ejectedCount_le rfl fun r' h => ?_
  by_cases hr : r' = r
  · subst hr
    rw [BackendPool.modify, Arena.read_modify_self] at h
    exact EjectionFlag.isEjected_of_store_false h
  · rwa [BackendPool.modify, Arena.read_modify_of_ne _ hr] at h

lemma Within.eject {id : BackendId} (flag : EjectionFlag) (hg : p.inner.states.get id = some r)
    (h : p.exceedsEjectionCeiling id = false) : Within fraction (p.modify r (flag.store true)) := by
  have hw := BackendPool.FlagWrite.storeFlag p r flag true
  have ho : ∀ r' ≠ r, ((p.modify r (flag.store true)).arena.read r').isEjected = true →
      (p.arena.read r').isEjected = true := by
    intro r' hr h
    rwa [BackendPool.modify, Arena.read_modify_of_ne _ hr] at h
  rcases hp.consistent.room_of_not_exceeds hp.fraction_eq hg h with he | hro
  · -- the backend is ejected by its other flag, or was meanwhile by this one
    refine hp.of_flagWrite hw rfl (BackendPool.ejectedCount_le rfl fun r' h => ?_)
    by_cases hr : r' = r
    · exact hr ▸ he
    · exact ho r' hr h
  · refine ⟨hw.consistent hp.consistent, hp.fraction_eq, ?_⟩
    have hc := BackendPool.ejectedCount_le_succ hp.consistent hw.inner_eq r ho
    rw [hw.inner_eq]
    exact le_trans (by exact_mod_cast hc) hro

lemma Within.stamp (r : StateRef) (before : Bool) (nanos : ℕ) :
    Within fraction (p.stampIfBecameEligible r before nanos) := by
  have hw := BackendPool.FlagWrite.stampIfBecameEligible p r before nanos
  refine hp.of_flagWrite hw ?_ (BackendPool.ejectedCount_le hw.inner_eq fun r' h => ?_)
  · unfold BackendPool.stampIfBecameEligible
    split_ifs <;> rfl
  · rwa [BackendPool.flags_stampIfBecameEligible p r before nanos BackendState.isEjected
      (fun _ _ _ => rfl)] at h

lemma within_next (hc : call.Relies p) :
    Within fraction (call.next p).1 ∧ ∀ q ∈ (call.next p).2, q.Relies (call.next p).1 := by
  cases call with
  | enter id value flag nanos =>
    rw [next]
    cases hg : p.inner.states.get id with
    | none => exact ⟨hp, fun q hq => by cases hq⟩
    | some r =>
      dsimp only
      split_ifs with hu
      · refine ⟨hp, fun q hq => ?_⟩
        cases hq
        -- a ceiling is configured, so only a clearing store goes without a load
        rw [hp.fraction_eq, Option.isNone_some, Bool.or_false, Bool.not_eq_true'] at hu
        subst hu
        trivial
      · refine ⟨hp, fun q hq => ?_⟩
        cases hq
        exact hg
  | load r id flag before nanos =>
    rw [next]
    split_ifs with hl
    · refine ⟨hp, fun q hq => ?_⟩
      cases hq
      exact hl
    · refine ⟨hp, fun q hq => ?_⟩
      cases hq
      exact hc
  | store r value flag before nanos =>
    refine ⟨?_, fun q hq => ?_⟩
    · cases value with
      | false => exact hp.clear r flag
      | true =>
        rw [next, modify_of_load hc]
        exact hp
    · cases hq
      trivial
  | locked r id flag before nanos =>
    refine ⟨?_, fun q hq => ?_⟩
    · rw [next]
      split_ifs with he
      · exact hp
      · exact hp.eject flag hc (by simpa using he)
    · cases hq
      trivial
  | stamp r before nanos => exact ⟨hp.stamp r before nanos, fun q hq => by cases hq⟩

omit hp

@[simp] lemma next_enter_fst (p : BackendPool) (id : BackendId) (value : Bool)
    (flag : EjectionFlag) (nanos : ℕ) :
    ((enter id value flag nanos).next p).1 = p := by
  rw [next]
  cases p.inner.states.get id with
  | none => rfl
  | some r =>
    dsimp only
    split_ifs <;> rfl

@[simp] lemma next_load_fst (p : BackendPool) (r : StateRef) (id : BackendId)
    (flag : EjectionFlag) (before : Bool) (nanos : ℕ) :
    ((load r id flag before nanos).next p).1 = p := by
  rw [next]
  split_ifs <;> rfl

lemma inner_next (p : BackendPool) (call : EjectionCall) : (call.next p).1.inner = p.inner := by
  cases call with
  | enter id value flag nanos => rw [next_enter_fst]
  | load r id flag before nanos => rw [next_load_fst]
  | store r value flag before nanos => rfl
  | locked r id flag before nanos =>
    rw [next]
    split_ifs <;> rfl
  | stamp r before nanos =>
    exact (BackendPool.FlagWrite.stampIfBecameEligible p r before nanos).inner_eq

lemma load_modify {r' : StateRef} {flag' : EjectionFlag} {value : Bool}
    (h : flag'.load (p.arena.read r') = true) (hs : r' = r → flag' = flag → value = true) :
    flag'.load ((p.modify r (flag.store value)).arena.read r') = true := by
  rw [BackendPool.modify]
  by_cases hr : r' = r
  · subst hr
    rw [Arena.read_modify_self]
    by_cases hf : flag' = flag
    · subst hf
      rw [EjectionFlag.load_store_self, hs rfl rfl]
    · rwa [EjectionFlag.load_store_of_ne hf]
  · rwa [Arena.read_modify_of_ne _ hr]

lemma load_next (hc : ∀ before nanos, call ≠ store r false flag before nanos)
    (h : flag.load (p.arena.read r) = true) : flag.load ((call.next p).1.arena.read r) = true := by
  cases call with
  | enter id value flag' nanos => rwa [next_enter_fst]
  | load r' id flag' before nanos => rwa [next_load_fst]
  | store r' value flag' before nanos =>
    refine load_modify h fun hr hf => ?_
    subst hr hf
    cases value with
    | false => exact absurd rfl (hc before nanos)
    | true => rfl
  | locked r' id flag' before nanos =>
    rw [next]
    split_ifs
    · exact h
    · exact load_modify h fun _ _ => rfl
  | stamp r' before nanos =>
    rw [next, BackendPool.flags_stampIfBecameEligible p r' before nanos flag.load]
    · exact h
    · intro s nanos generation
      cases flag <;> rfl

/-- **A step of another call**, unless it is a clearing store in the gap. -/
lemma relies_next {q : EjectionCall}
    (hc : ∀ r flag before nanos, call = store r false flag before nanos →
      ∀ before' nanos', q ≠ store r true flag before' nanos')
    (hq : q.Relies p) : q.Relies (call.next p).1 := by
  cases q with
  | load | locked => rwa [Relies, inner_next]
  | store r value flag before nanos =>
    cases value with
    | false => trivial
    | true =>
      refine load_next (fun before' nanos' heq => ?_) hq
      exact hc r flag before' nanos' heq before nanos rfl
  | enter | stamp => trivial

/-- **The ceiling.**  In every run in which no flag is cleared between the load and the store of a
call that sets it again, the ejected backends stay within the configured share of the pool. -/
theorem ejected_within_ceiling {p : BackendPool} (hp : p.Consistent) {fraction : ℚ}
    (hfraction : p.maxEjectedFraction = some fraction) (hnonneg : 0 ≤ fraction)
    (hnone : ∀ s ∈ p.members, s.isEjected = false) {events : List (Event EjectionCall)}
    {c : Interleaving.Config BackendPool EjectionCall}
    (hrun : Run (fun c e c' => Undisturbed c e ∧ Step c e c') (idle p) events c) :
    (c.shared.ejectedCount : ℚ) ≤ fraction * c.shared.inner.order.length := by
  have hz : p.ejectedCount = 0 := countP_eq_zero.mpr fun s hs => by simp [hnone s hs]
  have hini : Within fraction p := by
    refine ⟨hp, hfraction, ?_⟩
    rw [hz, Nat.cast_zero]
    exact mul_nonneg hnonneg (Nat.cast_nonneg _)
  have hsta : ∀ s call, Within fraction s → starts call = true → Relies s call := by
    intro s call _ hc
    cases call <;> trivial
  refine (scheduled_invariant hini hsta ?_ ?_ hrun).1.count_le
  · intro c i call s' call' _ _ hst hs hc
    obtain ⟨hw, hr⟩ := within_next hs hc
    rw [show call.next c.shared = (s', call') from hst] at hw hr
    exact ⟨hw, hr⟩
  · intro c i call s' call' hok hi hst _ _ j _ q hj hq
    have hcl : ∀ r flag before nanos, call = store r false flag before nanos →
        ∀ before' nanos', q ≠ store r true flag before' nanos' := by
      rintro r flag before nanos rfl before' nanos' rfl
      exact hok r flag before nanos hi j before' nanos' hj
    have h := relies_next hcl hq
    rwa [show call.next c.shared = (s', call') from hst] at h

def twoBackends : BackendPool :=
  .withMaxEjectedFraction [⟨"a", "10.0.0.1:80", 1, none, 0⟩, ⟨"b", "10.0.0.2:80", 1, none, 0⟩]
    (some (1 / 2))

/-- The step is not a store that clears a flag. -/
def setsOnly (c : Interleaving.Config BackendPool EjectionCall) : Event EjectionCall → Bool
  | .spawn _ _ => true
  | .step i => match c.threads i with
    | some (store _ false _ _ _) => false
    | _ => true

lemma undisturbed_of_setsOnly (c : Interleaving.Config BackendPool EjectionCall)
    (e : Event EjectionCall)
    (h : setsOnly c e = true) : Undisturbed c e := by
  cases e with
  | spawn i call => trivial
  | step i =>
    intro r flag before nanos hi
    rw [setsOnly, hi] at h
    cases h

/-- Two trips race for the one place. -/
theorem ejected_within_ceiling_race :
    ∃ events c, Run (fun c e c' => Undisturbed c e ∧ Step c e c') (idle twoBackends) events c ∧
      c.shared.ejectedCount = 1 ∧
      (c.shared.ejectedCount : ℚ) ≤ 1 / 2 * c.shared.inner.order.length := by
  have he : ((exec starts setsOnly next (idle twoBackends)
      [.spawn 0 (enter "a" true .circuitOpen 1), .spawn 1 (enter "b" true .outlierEjected 2),
        .step 0, .step 1, .step 0, .step 1, .step 1, .step 0]).any
      fun c => c.shared.ejectedCount = 1) = true := by decide +kernel
  obtain ⟨c, hr, hc⟩ := exists_run_of_exec (fun _ h => h) undisturbed_of_setsOnly he
  exact ⟨_, c, hr, hc,
    ejected_within_ceiling (BackendPool.lists_withMaxEjectedFraction (by decide) _).1 rfl
      (by norm_num) (by decide +kernel) hr⟩

/-- The circuit of `a` is open.  A second call to open it loads the flag and pauses; a third one
closes the circuit; `b` is ejected, which the count allows; then the second call stores its flag.
Both backends are ejected. -/
theorem ceiling_exceeded :
    ∃ events c, Run Step (idle twoBackends) events c ∧ c.shared.ejectedCount = 2 ∧
      ¬ (c.shared.ejectedCount : ℚ) ≤ 1 / 2 * c.shared.inner.order.length := by
  have he : ((exec starts (fun _ _ => true) next (idle twoBackends)
      [.spawn 0 (enter "a" true .circuitOpen 1), .step 0, .step 0, .step 0, .step 0,
        .spawn 1 (enter "a" true .circuitOpen 2), .step 1, .step 1,
        .spawn 2 (enter "a" false .circuitOpen 3), .step 2, .step 2, .step 2,
        .spawn 3 (enter "b" true .circuitOpen 4), .step 3, .step 3, .step 3, .step 3,
        .step 1, .step 1]).any
      fun c => c.shared.ejectedCount = 2 ∧ c.shared.inner.order.length = 2) = true := by
    decide +kernel
  obtain ⟨c, hr, hc, hl⟩ := exists_run_of_exec (fun _ h => h) (fun _ _ _ => True.intro) he
  refine ⟨_, c, run_of_scheduled hr, hc, ?_⟩
  rw [hc, hl]
  norm_num

end EjectionCall

end LoadBalancer.Core
