import Mathlib.Data.List.DropRight
import Mathlib.Tactic.NormNum

/-!
# The overload level

`next_level` (`crates/lb-server/src/overload.rs`) raises the level as soon as a threshold is reached
and lowers it only when the pressure is clearly below the threshold of the level.  The numbers are
taken from any linear order.
-/

namespace LoadBalancer.Server

inductive OverloadLevel
  | normal
  | shedKeepalive
  | reject
  deriving DecidableEq

/-- `lowered` is the subtraction of `HYSTERESIS`. -/
structure OverloadSettings (α : Type*) where
  shedKeepaliveAt : α
  rejectAt : α
  lowered : α → α

section

variable {α : Type*} [LinearOrder α] (cfg : OverloadSettings α)

def nextLevel (current : OverloadLevel) (pressure : α) : OverloadLevel :=
  let target : OverloadLevel :=
    if cfg.rejectAt ≤ pressure then .reject
    else if cfg.shedKeepaliveAt ≤ pressure then .shedKeepalive
    else .normal
  if current.ctorIdx ≤ target.ctorIdx then target
  else
    let threshold := if current = .reject then cfg.rejectAt else cfg.shedKeepaliveAt
    if pressure < cfg.lowered threshold then target else current

variable {cfg} (hlowered : cfg.lowered cfg.rejectAt ≤ cfg.rejectAt)
include hlowered

lemma nextLevel_eq_reject_iff (current : OverloadLevel) (pressure : α) :
    nextLevel cfg current pressure = .reject ↔ cfg.rejectAt ≤ pressure ∨
      current = .reject ∧ cfg.lowered cfg.rejectAt ≤ pressure := by
  unfold nextLevel
  cases current <;> grind [OverloadLevel.ctorIdx]

/-- **Rejecting has hysteresis.**  After any readings, new work is rejected exactly if there was a
reading at the threshold since the last one that was clearly below it. -/
theorem rejecting_iff (readings : List α) :
    readings.foldl (nextLevel cfg) .normal = .reject ↔
      ∃ p ∈ readings.rtakeWhile (cfg.lowered cfg.rejectAt ≤ ·), cfg.rejectAt ≤ p := by
  induction readings using List.reverseRecOn with
  | nil => simp
  | append_singleton readings p ih =>
    rw [List.foldl_append, List.foldl_cons, List.foldl_nil, nextLevel_eq_reject_iff hlowered, ih,
      List.rtakeWhile_concat]
    split_ifs with h
    · rw [and_iff_left (of_decide_eq_true h)]
      simp [or_comm]
    · have hlt := (not_le.mp (by simpa using h)).trans_le hlowered
      simp_all

end

/-- The thresholds are 0.8 and 0.95: a reading of 0.92 leaves the level, one of 0.89 lowers it. -/
theorem rejecting_iff_held :
    let cfg : OverloadSettings ℚ := ⟨4 / 5, 19 / 20, (· - 1 / 20)⟩
    [19 / 20, 23 / 25].foldl (nextLevel cfg) .normal = .reject ∧
      [19 / 20, 89 / 100].foldl (nextLevel cfg) .normal = .shedKeepalive := by
  intro cfg
  have hlowered : cfg.lowered cfg.rejectAt ≤ cfg.rejectAt := by norm_num [cfg]
  exact ⟨(rejecting_iff hlowered _).mpr ⟨19 / 20, by decide +kernel, le_rfl⟩, by decide +kernel⟩

end LoadBalancer.Server
