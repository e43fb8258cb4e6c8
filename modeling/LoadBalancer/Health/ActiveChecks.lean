import LoadBalancer.Core.Parts

/-!
# Active health checks

A checker (`crates/lb-healthcheck/src/active.rs`) probes one backend again and again.  It counts the
passes and the failures in a row, reads the verdict so far back from the pool, and stores the next
one there.  Neither counter is reset when the verdict flips.

A run of the checker is a list of probe results, between which other calls may be made on the pool:
any that keep the backend and leave its two health flags alone.  The stored verdict is compared with
a rule about the results alone: `streak` counts the results in a row at the end of the history.
-/

namespace LoadBalancer.Health

open LoadBalancer.Core

structure ActiveCheckConfig where
  healthyThreshold : UInt32
  unhealthyThreshold : UInt32

/-- What the task keeps between two probes. -/
structure Streaks where
  consecutiveSuccesses : ℕ
  consecutiveFailures : ℕ
  deriving DecidableEq

def saturatingSucc (n : ℕ) : ℕ := min (n + 1) (2 ^ 32 - 1)

def Streaks.record (passed : Bool) (s : Streaks) : Streaks :=
  if passed then ⟨saturatingSucc s.consecutiveSuccesses, 0⟩
  else ⟨0, saturatingSucc s.consecutiveFailures⟩

structure ActiveChecker where
  streaks : Streaks
  pool : BackendPool

namespace ActiveCheckConfig

variable (c : ActiveCheckConfig)

def toRecover : ℕ := max c.healthyThreshold.toNat 1

def toFail : ℕ := max c.unhealthyThreshold.toNat 1

def healthy (pool : BackendPool) (id : BackendId) (passed : Bool) (streaks : Streaks) : Bool :=
  if pool.isAwaitingFirstProbe id then passed
  else if pool.isActiveHealthy id then streaks.consecutiveFailures < c.toFail
  else c.toRecover ≤ streaks.consecutiveSuccesses

def check (id : BackendId) (passed : Bool) (nanos : ℕ) (s : ActiveChecker) :
    ActiveChecker where
  streaks := s.streaks.record passed
  pool := s.pool.setActiveHealthy id (c.healthy s.pool id passed (s.streaks.record passed))
    nanos

end ActiveCheckConfig

def ActiveChecker.start (pool : BackendPool) : ActiveChecker := ⟨⟨0, 0⟩, pool⟩

def WritesHealth (id : BackendId) : PoolEvent → Prop
  | .setActiveHealthy id' _ _ => id' = id
  | .markAwaitingFirstProbe id' => id' = id
  | _ => False

inductive CheckEvent
  | probe (passed : Bool) (nanos : ℕ)
  | call (e : PoolEvent)

namespace CheckEvent

/-- A step of the checker, or of others who keep the backend and leave its health flags. -/
def Step (c : ActiveCheckConfig) (id : BackendId) (s : ActiveChecker) :
    CheckEvent → ActiveChecker → Prop
  | probe passed nanos, s' => c.check id passed nanos s = s'
  | call e, s' => e.Keeps id ∧ ¬ WritesHealth id e ∧ { s with pool := e.apply s.pool } = s'

def result : CheckEvent → Option Bool
  | probe passed _ => some passed
  | call _ => none

end CheckEvent

def results (events : List CheckEvent) : List Bool := events.filterMap CheckEvent.result

lemma results_concat (events : List CheckEvent) (e : CheckEvent) :
    results (events ++ [e]) = results events ++ e.result.toList := by
  cases e <;> simp [results, CheckEvent.result]

/-- How many results at the end are `verdict`, in a row. -/
def streak (verdict : Bool) (results : List Bool) : ℕ :=
  (results.reverse.takeWhile (· = verdict)).length

lemma streak_concat (verdict : Bool) (results : List Bool) (passed : Bool) :
    streak verdict (results ++ [passed])
      = if passed = verdict then streak verdict results + 1 else 0 := by
  rw [streak, List.reverse_append, List.reverse_singleton, List.singleton_append,
    List.takeWhile_cons]
  split_ifs with h h' h'
  · rfl
  · exact absurd (of_decide_eq_true h) h'
  · exact absurd (decide_eq_true h') h
  · rfl

lemma streak_concat_self (verdict : Bool) (results : List Bool) :
    streak verdict (results ++ [verdict]) = streak verdict results + 1 :=
  (streak_concat verdict results verdict).trans (if_pos rfl)

lemma streak_concat_of_ne {verdict passed : Bool} (h : passed ≠ verdict) (results : List Bool) :
    streak verdict (results ++ [passed]) = 0 :=
  (streak_concat verdict results passed).trans (if_neg h)

/-! ## The two flags in the pool -/

def healthFlags (s : BackendState) : Bool × Bool := (s.activeHealthy, s.awaitingFirstProbe)

lemma flagPart_healthFlags : FlagPart healthFlags := ⟨fun _ _ => rfl, fun _ _ _ => rfl⟩

section

variable {p : BackendPool} {id : BackendId} {healthy awaiting : Bool}

variable (hp : p.Indexed) (h : p.part healthFlags id = some (healthy, awaiting))

include h

lemma isActiveHealthy_of_part : p.isActiveHealthy id = healthy := by
  obtain ⟨r, hg, hr⟩ := Option.map_eq_some_iff.mp h
  rw [BackendPool.isActiveHealthy, BackendPool.shownFlag, hg, Option.any_some]
  exact congrArg Prod.fst hr

lemma isAwaitingFirstProbe_of_part : p.isAwaitingFirstProbe id = awaiting := by
  obtain ⟨r, hg, hr⟩ := Option.map_eq_some_iff.mp h
  rw [BackendPool.isAwaitingFirstProbe, BackendPool.shownFlag, hg, Option.any_some]
  exact congrArg Prod.snd hr

omit h

lemma part_healthFlags_of_mem (hk : id ∈ p.inner.states) :
    p.part healthFlags id = some (p.isActiveHealthy id, p.isAwaitingFirstProbe id) := by
  obtain ⟨r, hg⟩ := AList.exists_get_of_mem hk
  rw [BackendPool.part, BackendPool.isActiveHealthy, BackendPool.isAwaitingFirstProbe,
    BackendPool.shownFlag, BackendPool.shownFlag, hg]
  rfl

include hp h

lemma part_setActiveHealthy_self (verdict : Bool) (nanos : ℕ) :
    (p.setActiveHealthy id verdict nanos).part healthFlags id = some (verdict, false) := by
  rw [hp.part_setActiveHealthy flagPart_healthFlags (F := fun _ => (verdict, false))
    (fun _ => rfl), if_pos rfl, h]
  rfl

omit h

lemma part_healthFlags_apply {e : PoolEvent} (hk : e.Keeps id) (hw : ¬ WritesHealth id e)
    (hkn : id ∈ p.inner.states) : (e.apply p).part healthFlags id = p.part healthFlags id := by
  cases e with
  | setActiveHealthy id' verdict nanos =>
    have hne : id ≠ id' := fun heq => hw heq.symm
    exact (hp.part_setActiveHealthy flagPart_healthFlags (F := fun _ => (verdict, false))
      (fun _ => rfl) id' nanos id).trans (if_neg hne)
  | markAwaitingFirstProbe id' =>
    have hne : id ≠ id' := fun heq => hw heq.symm
    exact (hp.part_markAwaitingFirstProbe (g := healthFlags) (F := fun x => (x.1, true))
      (fun _ => rfl) id' id).trans (if_neg hne)
  | setManuallyDrained id' drained nanos =>
    refine (hp.part_setManuallyDrained flagPart_healthFlags (F := fun x => x) (fun _ => rfl)
      id' nanos id).trans ?_
    rw [Option.map_id', ite_self]
  | setCircuitOpen id' isOpen nanos =>
    exact hp.part_setEjectionFlag_of_ignores flagPart_healthFlags (fun _ => rfl) id' nanos id
  | setOutlierEjected id' ejected nanos =>
    exact hp.part_setEjectionFlag_of_ignores flagPart_healthFlags (fun _ => rfl) id' nanos id
  | applyResolved backends =>
    exact hp.part_applyResolved flagPart_healthFlags.describe hkn hk

end

/-! ## Verdicts and results -/

/-- What a checker and its pool have made of the results so far.  `awaiting` is whether the backend
was awaiting its first probe at the start. -/
structure Follows (c : ActiveCheckConfig) (id : BackendId) (awaiting : Bool) (results : List Bool)
    (s : ActiveChecker) : Prop where
  indexed : s.pool.Indexed
  flags : s.pool.part healthFlags id
    = some (s.pool.isActiveHealthy id, awaiting && results.isEmpty)
  successes : s.streaks.consecutiveSuccesses = min (streak true results) (2 ^ 32 - 1)
  failures : s.streaks.consecutiveFailures = min (streak false results) (2 ^ 32 - 1)
  short_failures : s.pool.isActiveHealthy id = true → streak false results < c.toFail
  short_successes : s.pool.isActiveHealthy id = false → streak true results < c.toRecover

namespace ActiveCheckConfig

lemma toFail_le (c : ActiveCheckConfig) : c.toFail ≤ 2 ^ 32 - 1 :=
  max_le (Nat.le_sub_one_of_lt c.unhealthyThreshold.toNat_lt) (by norm_num)

lemma toRecover_le (c : ActiveCheckConfig) : c.toRecover ≤ 2 ^ 32 - 1 :=
  max_le (Nat.le_sub_one_of_lt c.healthyThreshold.toNat_lt) (by norm_num)

end ActiveCheckConfig

lemma saturatingSucc_min (n : ℕ) :
    saturatingSucc (min n (2 ^ 32 - 1)) = min (n + 1) (2 ^ 32 - 1) := by
  rw [saturatingSucc]
  omega

namespace Follows

variable {c : ActiveCheckConfig} {id : BackendId} {awaiting : Bool} {results : List Bool}
  {s : ActiveChecker}

lemma start {pool : BackendPool} (hp : pool.Indexed) (hk : id ∈ pool.inner.states) :
    Follows c id (pool.isAwaitingFirstProbe id) [] (.start pool) where
  indexed := hp
  flags := by
    rw [List.isEmpty_nil, Bool.and_true]
    exact part_healthFlags_of_mem hk
  successes := rfl
  failures := rfl
  short_failures _ := lt_max_of_lt_right Nat.one_pos
  short_successes _ := lt_max_of_lt_right Nat.one_pos

variable (h : Follows c id awaiting results s) (passed : Bool)

include h

lemma record :
    (s.streaks.record passed).consecutiveSuccesses
        = min (streak true (results ++ [passed])) (2 ^ 32 - 1) ∧
      (s.streaks.record passed).consecutiveFailures
        = min (streak false (results ++ [passed])) (2 ^ 32 - 1) := by
  have hs := h.successes
  have hf := h.failures
  cases passed with
  | true =>
    rw [streak_concat_self, streak_concat_of_ne (Ne.symm Bool.false_ne_true)]
    exact ⟨(congrArg saturatingSucc hs).trans (saturatingSucc_min _), rfl⟩
  | false =>
    rw [streak_concat_self, streak_concat_of_ne Bool.false_ne_true]
    exact ⟨rfl, (congrArg saturatingSucc hf).trans (saturatingSucc_min _)⟩

/-- **The verdict on a probe**, told from the results: the first probe decides while it is awaited,
and a streak flips the verdict when it reaches its threshold. -/
lemma healthy_iff :
    c.healthy s.pool id passed (s.streaks.record passed) =
      if awaiting && results.isEmpty then passed
      else if s.pool.isActiveHealthy id then
        decide (streak false (results ++ [passed]) ≠ c.toFail)
      else decide (streak true (results ++ [passed]) = c.toRecover) := by
  obtain ⟨hsu, hf⟩ := h.record passed
  have hfa := c.toFail_le
  have hr := c.toRecover_le
  rw [ActiveCheckConfig.healthy, isAwaitingFirstProbe_of_part h.flags, hsu, hf]
  split_ifs with hfi hh
  · rfl
  · have hsh := h.short_failures hh
    have hs := streak_concat false results passed
    refine decide_eq_decide.mpr ?_
    split_ifs at hs <;> omega
  · have hsh := h.short_successes (Bool.eq_false_of_not_eq_true hh)
    have hs := streak_concat true results passed
    have hpo : 0 < c.toRecover := lt_max_of_lt_right Nat.one_pos
    refine decide_eq_decide.mpr ?_
    split_ifs at hs <;> omega

lemma check (nanos : ℕ) :
    Follows c id awaiting (results ++ [passed]) (c.check id passed nanos s) := by
  have hf : (c.check id passed nanos s).pool.part healthFlags id
      = some (c.healthy s.pool id passed (s.streaks.record passed), false) :=
    part_setActiveHealthy_self h.indexed h.flags _ nanos
  have hv := isActiveHealthy_of_part hf
  have hiff := h.healthy_iff passed
  refine ⟨(BackendPool.FlagCall.setActiveHealthy ..).flagWrite.indexed h.indexed, ?_,
    (h.record passed).1, (h.record passed).2, fun hh => ?_, fun hu => ?_⟩
  · have hs : (results ++ [passed]).isEmpty = false := by simp
    rw [hv, hf, hs, Bool.and_false]
  · -- a healthy verdict: either a pass ended the failures, or there are not enough of them yet
    rw [hv, hiff] at hh
    cases passed with
    | true =>
      rw [streak_concat_of_ne (Ne.symm Bool.false_ne_true)]
      exact lt_max_of_lt_right Nat.one_pos
    | false =>
      split_ifs at hh with hfi hb
      · exact lt_of_le_of_ne
          ((streak_concat_self false results).trans_le (h.short_failures hb))
          (of_decide_eq_true hh)
      · rw [streak_concat_of_ne Bool.false_ne_true, decide_eq_true_eq] at hh
        exact absurd hh.symm (Nat.one_pos.trans_le (le_max_right _ 1)).ne'
  · rw [hv, hiff] at hu
    cases passed with
    | false =>
      rw [streak_concat_of_ne Bool.false_ne_true]
      exact lt_max_of_lt_right Nat.one_pos
    | true =>
      split_ifs at hu with hfi hb
      · rw [streak_concat_of_ne (Ne.symm Bool.false_ne_true), decide_eq_false_iff_not,
          not_not] at hu
        exact absurd hu.symm (Nat.one_pos.trans_le (le_max_right _ 1)).ne'
      · exact lt_of_le_of_ne
          ((streak_concat_self true results).trans_le
            (h.short_successes (Bool.eq_false_of_not_eq_true hb)))
          (of_decide_eq_false hu)

lemma call {e : PoolEvent} (hk : e.Keeps id) (hw : ¬ WritesHealth id e) :
    Follows c id awaiting results { s with pool := e.apply s.pool } ∧
      (e.apply s.pool).isActiveHealthy id = s.pool.isActiveHealthy id := by
  have hkn : id ∈ s.pool.inner.states := by
    obtain ⟨r, hg, -⟩ := Option.map_eq_some_iff.mp h.flags
    exact AList.mem_of_get_eq_some hg
  have hf := (part_healthFlags_apply h.indexed hk hw hkn).trans h.flags
  have hv := isActiveHealthy_of_part hf
  refine ⟨⟨h.indexed.apply e, ?_, h.successes, h.failures, ?_, ?_⟩, hv⟩
  · rw [hv]
    exact hf
  · rw [hv]
    exact h.short_failures
  · rw [hv]
    exact h.short_successes

end Follows

lemma follows_of_run {c : ActiveCheckConfig} {id : BackendId} {pool : BackendPool}
    (hp : pool.Indexed) (hkn : id ∈ pool.inner.states) {events : List CheckEvent}
    {s : ActiveChecker} (hr : Run (CheckEvent.Step c id) (.start pool) events s) :
    Follows c id (pool.isAwaitingFirstProbe id) (results events) s := by
  induction hr with
  | start => exact .start hp hkn
  | @next events s s' e _ hs ih =>
    rw [results_concat]
    cases e with
    | probe passed nanos => exact hs ▸ ih.check passed nanos
    | call e =>
      obtain ⟨hk, hw, rfl⟩ := hs
      exact (List.append_nil _).symm ▸ (ih.call hk hw).1

/-- **Active checks have hysteresis.**  While the backend is awaiting its first probe the first
result is the verdict.  Any other probe turns a healthy backend unhealthy exactly if it completes
`toFail` failures in a row, and an unhealthy one healthy exactly if it completes `toRecover` passes
in a row. -/
theorem verdict_flips_iff_streak_completed (c : ActiveCheckConfig) {id : BackendId}
    {pool : BackendPool} (hp : pool.Indexed) (hknown : id ∈ pool.inner.states)
    {events : List CheckEvent} {s : ActiveChecker}
    (hrun : Run (CheckEvent.Step c id) (.start pool) events s) :
    (∀ passed nanos s', CheckEvent.Step c id s (.probe passed nanos) s' →
      if pool.isAwaitingFirstProbe id = true ∧ results events = [] then
        s'.pool.isActiveHealthy id = passed
      else
        (s.pool.isActiveHealthy id = true →
          (s'.pool.isActiveHealthy id = false ↔
            streak false (results events ++ [passed]) = c.toFail)) ∧
        (s.pool.isActiveHealthy id = false →
          (s'.pool.isActiveHealthy id = true ↔
            streak true (results events ++ [passed]) = c.toRecover))) ∧
      ∀ e s', CheckEvent.Step c id s (.call e) s' →
        s'.pool.isActiveHealthy id = s.pool.isActiveHealthy id := by
  have hf := follows_of_run hp hknown hrun
  constructor
  · intro passed nanos s' hs
    have hv : s'.pool.isActiveHealthy id
        = c.healthy s.pool id passed (s.streaks.record passed) := by
      rw [← (hs : c.check id passed nanos s = s')]
      exact isActiveHealthy_of_part
        (part_setActiveHealthy_self hf.indexed hf.flags _ nanos)
    rw [hv, hf.healthy_iff passed]
    have hfi : (pool.isAwaitingFirstProbe id && (results events).isEmpty) = true ↔
        pool.isAwaitingFirstProbe id = true ∧ results events = [] := by
      rw [Bool.and_eq_true, List.isEmpty_iff]
    by_cases h : pool.isAwaitingFirstProbe id = true ∧ results events = []
    · rw [if_pos h, if_pos (hfi.mpr h)]
    · rw [if_neg h, if_neg (mt hfi.mp h)]
      constructor
      · intro hb
        rw [if_pos hb, decide_eq_false_iff_not, not_not]
      · intro hb
        rw [if_neg (by rw [hb]; exact Bool.false_ne_true), decide_eq_true_eq]
  · rintro e s' ⟨hk, hw, rfl⟩
    exact (hf.call hk hw).2

def twoInARow : ActiveCheckConfig := ⟨2, 2⟩

def checkedBackend : Backend := ⟨"a", "10.0.0.1:80", 1, none, 0⟩

def checkedPool : BackendPool := .new [checkedBackend]

theorem verdict_flips_second_failure :
    checkedPool.Indexed ∧ "a" ∈ checkedPool.inner.states ∧
      (twoInARow.check "a" false 2
        (twoInARow.check "a" false 1 (.start checkedPool))).pool.isActiveHealthy "a" = false := by
  have hp : checkedPool.Indexed := BackendPool.indexed_withMaxEjectedFraction [checkedBackend] none
  have hk : "a" ∈ checkedPool.inner.states := hp.listed "a" (List.mem_singleton_self _)
  have hr : Run (CheckEvent.Step twoInARow "a") (.start checkedPool) [.probe false 1]
      (twoInARow.check "a" false 1 (.start checkedPool)) := Run.start.next rfl
  have hpr := (verdict_flips_iff_streak_completed twoInARow hp hk hr).1 false 2 _ rfl
  rw [if_neg fun h => absurd h.2 (by decide)] at hpr
  exact ⟨hp, hk, (hpr.1 (by decide +kernel)).mpr (by decide)⟩

end LoadBalancer.Health
