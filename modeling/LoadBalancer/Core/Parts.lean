import LoadBalancer.Core.Membership

/-!
# What calls on a pool write

Flags are kept in the state of a backend and are read and written by its id.  A *part* of the states
is what can be told of a backend by its flags: `FlagPart g` says that `g` looks at nothing else.  A
call that names a backend writes the state of that backend alone, so the part of every other one
stays; a refresh writes no flags, and a backend that the pool did not have starts with fresh ones.
-/

namespace LoadBalancer.Core

open Option

namespace BackendPool

variable {β : Type} {p : BackendPool} {g : BackendState → β} {id : BackendId}

def part (p : BackendPool) (g : BackendState → β) (id : BackendId) : Option β :=
  (p.inner.states.get id).map fun r => g (p.arena.read r)

lemma shownFlag_eq_part (p : BackendPool) (flag : BackendState → Bool) (id : BackendId) :
    p.shownFlag flag id = (p.part flag id).any fun shown => shown := by
  rw [shownFlag, part, any_map]

lemma Indexed.apply (hp : p.Indexed) (e : PoolEvent) : (e.apply p).Indexed := by
  cases hr : e.isRefresh with
  | false => exact (FlagWrite.apply hr).indexed hp
  | true =>
    cases e with
    | applyResolved backends => exact hp.applyResolved backends
    | _ => cases hr

lemma part_congr {p' : BackendPool} (hinn : p'.inner = p.inner)
    (hr : ∀ r, g (p'.arena.read r) = g (p.arena.read r)) (id : BackendId) :
    p'.part g id = p.part g id := by
  rw [part, part, hinn]
  exact congrArg (Option.map · _) (funext hr)

/-! ## Writes -/

lemma part_stampIfBecameEligible (hg : FlagPart g) (p : BackendPool) (r : StateRef) (before : Bool)
    (nanos : ℕ) (id : BackendId) :
    (p.stampIfBecameEligible r before nanos).part g id = p.part g id := by
  refine part_congr (FlagWrite.stampIfBecameEligible ..).inner_eq (fun r' => ?_) id
  unfold stampIfBecameEligible
  split_ifs
  · exact p.arena.modify_induction (fun s => hg.stamp s _ _) r r'
  · rfl

/-- **A write to the state of a backend** is shown for that backend, and for no other. -/
lemma Indexed.part_modify (hp : p.Indexed) {id' : BackendId} {r' : StateRef}
    (hg' : p.inner.states.get id' = some r') {f : BackendState → BackendState} {F : β → β}
    (hf : ∀ s, g (f s) = F (g s)) (id : BackendId) :
    (p.modify r' f).part g id = if id = id' then (p.part g id).map F else p.part g id := by
  rw [part, part]
  change (p.inner.states.get id).map (fun r => g ((p.arena.modify r' f).read r)) = _
  cases hge : p.inner.states.get id with
  | none => simp
  | some r =>
    by_cases hid : id = id'
    · subst hid
      cases hge.symm.trans hg'
      rw [if_pos rfl, map_some, p.arena.read_modify_self, hf]
      rfl
    · -- the states of different ids are different
      have hne : r ≠ r' := by
        rintro rfl
        exact hid ((hp.sound id r hge).2.1.symm.trans (hp.sound id' r hg').2.1)
      rw [if_neg hid, map_some, p.arena.read_modify_of_ne hne]
      rfl

lemma part_of_unknown {id' : BackendId} (hge : p.inner.states.get id' = none) (F : β → β)
    (id : BackendId) :
    p.part g id = if id = id' then (p.part g id).map F else p.part g id := by
  split_ifs with hid
  · subst hid
    rw [part, hge]
    rfl
  · rfl

/-- The ceiling refuses to set the flag of a backend, which does not have it yet. -/
def Refuses (p : BackendPool) (flag : EjectionFlag) (value : Bool) (id : BackendId) : Prop :=
  value = true ∧ p.part flag.load id = some false ∧ p.exceedsEjectionCeiling id = true

instance (p : BackendPool) (flag : EjectionFlag) (value : Bool) (id : BackendId) :
    Decidable (p.Refuses flag value id) := inferInstanceAs (Decidable (_ ∧ _ ∧ _))

lemma storeEjectionFlag_of_refuses {flag : EjectionFlag} {value : Bool}
    (h : p.Refuses flag value id) : p.storeEjectionFlag id value flag = p := by
  obtain ⟨rfl, hpa, he⟩ := h
  obtain ⟨r, hge, hl⟩ := map_eq_some_iff.mp hpa
  have hf : p.maxEjectedFraction.isNone = false := by
    unfold exceedsEjectionCeiling at he
    cases hn : p.maxEjectedFraction with
    | none =>
      rw [hn] at he
      cases he
    | some fraction => rfl
  unfold storeEjectionFlag
  rw [hge]
  dsimp only
  rw [hl, hf, he]
  rfl

lemma storeEjectionFlag_of_stored {flag : EjectionFlag} {value : Bool} {r : StateRef}
    (hge : p.inner.states.get id = some r) (h : ¬ p.Refuses flag value id) :
    p.storeEjectionFlag id value flag = p.modify r (flag.store value) := by
  unfold storeEjectionFlag
  rw [hge]
  dsimp only
  split_ifs with hs he
  · rfl
  · refine absurd ⟨?_, ?_, he⟩ h
    · cases value with
      | false => exact absurd rfl hs
      | true => rfl
    · rw [part, hge, map_some]
      cases hl : flag.load (p.arena.read r) with
      | false => rfl
      | true => exact absurd (by rw [hl, Bool.or_true]) hs
  · cases value with
    | false => exact absurd rfl hs
    | true => rfl

section

variable (hp : p.Indexed) (hg : FlagPart g) {F : β → β}
include hp hg

lemma Indexed.part_setManuallyDrained {drained : Bool}
    (hF : ∀ s, g { s with manuallyDrained := drained } = F (g s)) (id' : BackendId)
    (nanos : ℕ) (id : BackendId) :
    (p.setManuallyDrained id' drained nanos).part g id
      = if id = id' then (p.part g id).map F else p.part g id := by
  unfold setManuallyDrained
  cases hge : p.inner.states.get id' with
  | none => exact part_of_unknown hge F id
  | some r' => exact (part_stampIfBecameEligible hg ..).trans (hp.part_modify hge hF id)

lemma Indexed.part_setActiveHealthy {healthy : Bool}
    (hF : ∀ s, g { s with activeHealthy := healthy, awaitingFirstProbe := false } = F (g s))
    (id' : BackendId) (nanos : ℕ) (id : BackendId) :
    (p.setActiveHealthy id' healthy nanos).part g id
      = if id = id' then (p.part g id).map F else p.part g id := by
  unfold setActiveHealthy
  cases hge : p.inner.states.get id' with
  | none => exact part_of_unknown hge F id
  | some r' => exact (part_stampIfBecameEligible hg ..).trans (hp.part_modify hge hF id)

omit hg in
lemma Indexed.part_markAwaitingFirstProbe
    (hF : ∀ s, g { s with awaitingFirstProbe := true } = F (g s)) (id' id : BackendId) :
    (p.markAwaitingFirstProbe id').part g id
      = if id = id' then (p.part g id).map F else p.part g id := by
  unfold markAwaitingFirstProbe
  cases hge : p.inner.states.get id' with
  | none => exact part_of_unknown hge F id
  | some r' => exact hp.part_modify hge hF id

variable {flag : EjectionFlag} {value : Bool} {id' : BackendId}

lemma Indexed.part_setEjectionFlag (hF : ∀ s, g (flag.store value s) = F (g s))
    (hs : ¬ p.Refuses flag value id') (nanos : ℕ) (id : BackendId) :
    (p.setEjectionFlag id' value flag nanos).part g id
      = if id = id' then (p.part g id).map F else p.part g id := by
  unfold setEjectionFlag
  cases hge : p.inner.states.get id' with
  | none =>
    dsimp only
    unfold storeEjectionFlag
    rw [hge]
    exact part_of_unknown hge F id
  | some r' =>
    refine (part_stampIfBecameEligible hg ..).trans ?_
    rw [storeEjectionFlag_of_stored hge hs]
    exact hp.part_modify hge hF id

omit hp in
lemma part_setEjectionFlag_of_refuses (hr : p.Refuses flag value id') (nanos : ℕ)
    (id : BackendId) : (p.setEjectionFlag id' value flag nanos).part g id = p.part g id := by
  obtain ⟨r', hge, hl⟩ := map_eq_some_iff.mp hr.2.1
  unfold setEjectionFlag
  rw [hge]
  refine (part_stampIfBecameEligible hg ..).trans ?_
  rw [storeEjectionFlag_of_refuses hr]

lemma Indexed.part_setEjectionFlag_of_ne (hF : ∀ s, g (flag.store value s) = F (g s))
    (hne : id ≠ id') (nanos : ℕ) :
    (p.setEjectionFlag id' value flag nanos).part g id = p.part g id := by
  by_cases hr : p.Refuses flag value id'
  · exact part_setEjectionFlag_of_refuses hg hr nanos id
  · rw [hp.part_setEjectionFlag hg hF hr, if_neg hne]

lemma Indexed.part_setEjectionFlag_of_ignores (hF : ∀ s, g (flag.store value s) = g s)
    (id' : BackendId) (nanos : ℕ) (id : BackendId) :
    (p.setEjectionFlag id' value flag nanos).part g id = p.part g id := by
  by_cases hr : p.Refuses flag value id'
  · exact part_setEjectionFlag_of_refuses hg hr nanos id
  · rw [hp.part_setEjectionFlag hg (F := fun x => x) hF hr, map_id', ite_self]

end

/-! ## Refreshes -/

variable {backends : List Backend}

lemma Indexed.part_applyResolved_new (hp : p.Indexed)
    (hg : ∀ s b, g { s with backend := b } = g s)
    (hu : id ∉ p.inner.states) {x : β} (hx : (p.applyResolved backends).part g id = some x) :
    ∃ b ∈ backends, x = g (.fresh true b) := by
  obtain ⟨r, hge, rfl⟩ := map_eq_some_iff.mp hx
  have hlt := ((hp.applyResolved backends).sound id r hge).1
  rcases p.get_applyResolved hge with hs | ⟨-, hle⟩
  · exact absurd (AList.mem_of_get_eq_some hs) hu
  · unfold BackendPool.applyResolved at hlt ⊢
    split_ifs at hlt ⊢
    · exact absurd hlt (Nat.not_lt.mpr hle)
    · exact part_collect_new hg p backends hle hlt

lemma Indexed.part_applyResolved (hp : p.Indexed) (hg : ∀ s b, g { s with backend := b } = g s)
    (hk : id ∈ p.inner.states) (hid : id ∈ backends.map fun b => b.id) :
    (p.applyResolved backends).part g id = p.part g id := by
  obtain ⟨r, hge⟩ := AList.exists_get_of_mem hk
  have hind := hp.applyResolved backends
  obtain ⟨r', hge'⟩ := AList.exists_get_of_mem
    (hind.listed id ((hp.mem_order_applyResolved backends id).mpr hid))
  obtain rfl : r' = r := by
    rcases p.get_applyResolved hge' with hs | ⟨hn, -⟩
    · exact Option.some.inj (hs.symm.trans hge)
    · rw [hge] at hn
      cases hn
  rw [part, part, hge, hge', map_some, map_some]
  refine congrArg some ?_
  unfold BackendPool.applyResolved
  split_ifs
  · rfl
  · exact part_collect hg p backends (hp.sound id r' hge).1

end BackendPool

end LoadBalancer.Core
