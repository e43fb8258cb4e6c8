import LoadBalancer.Lib.Run
import LoadBalancer.Core.Parts

/-!
# Recoveries

A backend is confirmed when all its flags pass and it awaits no probe.  `eligibility_generation`
and the stamp `became_eligible_nanos` are to tell when it last became so.  No setter knows what the
others do: each compares `is_confirmed` before and after its own store, one of them may refuse to
store anything, and a refresh of the pool looks at neither.  Still the comparisons miss nothing.

What one call does to the two numbers of a state is `Stamped`, for every call and every state.
-/

namespace LoadBalancer.Core

/-- One more recovery, at the reading `nanos` of the stopwatch. -/
def nextStamps (stamps : ℕ × ℕ) (nanos : ℕ) : ℕ × ℕ :=
  ((stamps.1 + 1) % 2 ^ 64, max (nanos % 2 ^ 64) 1)

/-- The state becomes `s'`, and the numbers change exactly if it becomes confirmed. -/
def Stamped (nanos : ℕ) (s s' : BackendState) : Prop :=
  s'.stamps =
    if !s.isConfirmed && s'.isConfirmed then nextStamps s.stamps nanos else s.stamps

lemma Stamped.of_eq {nanos : ℕ} {s s' : BackendState} (hs : s'.stamps = s.stamps)
    (hc : s'.isConfirmed → s.isConfirmed) : Stamped nanos s s' := by
  rw [Stamped, hs, if_neg]
  cases h : s.isConfirmed <;> simp_all

namespace BackendPool

variable {p : BackendPool} {id : BackendId} {r : StateRef} {e : PoolEvent}

/-! ## One call -/

lemma FlagCall.stamped {p' : BackendPool} {nanos : ℕ} (h : FlagCall p nanos p')
    (r : StateRef) : Stamped nanos (p.arena.read r) (p'.arena.read r) := by
  cases h with
  | refused => exact .of_eq rfl fun h => h
  | @stored r' f hf =>
    by_cases hr : r = r'
    · subst hr
      have hc : (stamping nanos f (p.arena.read r)).isConfirmed =
          (f (p.arena.read r)).isConfirmed := by
        unfold stamping
        split_ifs <;> rfl
      rw [modify, Arena.read_modify_self, Stamped, hc, stamping]
      split_ifs
      · rw [← hf.stamps_eq (p.arena.read r)]
        rfl
      · exact hf.stamps_eq _
    · rw [modify, Arena.read_modify_of_ne _ hr]
      exact .of_eq rfl fun h => h

/-- **One call** changes the two numbers of a state exactly if it makes the state confirmed. -/
lemma stamped_apply (hr : r < p.arena.next) (e : PoolEvent) :
    Stamped e.nanos (p.arena.read r) ((e.apply p).arena.read r) := by
  cases e with
  | applyResolved backends =>
    rw [PoolEvent.apply, applyResolved]
    split_ifs
    · exact .of_eq rfl fun h => h
    · have hk := part_collect (g := fun s => (s.stamps, s.isConfirmed)) (fun _ _ => rfl) p
        backends hr
      exact .of_eq (congrArg Prod.fst hk) fun h => (congrArg Prod.snd hk).symm.trans h
  | setActiveHealthy | markAwaitingFirstProbe | setCircuitOpen | setOutlierEjected
  | setManuallyDrained => exact (FlagCall.apply rfl).stamped r

/-! ## Runs -/

/-- The call turns the backend from not confirmed to confirmed. -/
def Recovers (id : BackendId) (p : BackendPool) (e : PoolEvent) : Bool :=
  !p.shownFlag BackendState.isConfirmed id && (e.apply p).shownFlag BackendState.isConfirmed id

def recoveries (id : BackendId) : BackendPool → List PoolEvent → List PoolEvent
  | _, [] => []
  | p, e :: events =>
    if Recovers id p e then e :: recoveries id (e.apply p) events
    else recoveries id (e.apply p) events

/-- The backend is in the pool before, between and after the calls. -/
def Stays (id : BackendId) : BackendPool → List PoolEvent → Prop
  | p, [] => id ∈ p.allBackendIds
  | p, e :: events => id ∈ p.allBackendIds ∧ Stays id (e.apply p) events

lemma Stays.mem : ∀ {p : BackendPool} {events : List PoolEvent}, p.Stays id events →
    id ∈ p.allBackendIds
  | _, [], h => h
  | _, _ :: _, h => h.1

lemma Indexed.get_apply (hp : p.Indexed) (hg : p.inner.states.get id = some r)
    (hm : id ∈ (e.apply p).allBackendIds) : (e.apply p).inner.states.get id = some r := by
  cases hr : e.isRefresh with
  | false => rwa [(FlagWrite.apply hr).inner_eq]
  | true =>
    cases e with
    | applyResolved backends =>
      obtain ⟨r', hg'⟩ := AList.exists_get_of_mem ((hp.apply _).listed id hm)
      rcases p.get_applyResolved hg' with hs | ⟨hn, -⟩
      · rwa [← hg, hs]
      · rw [hg] at hn
        cases hn
    | _ => cases hr

/-- **A run** changes the two numbers of a state once for each recovery. -/
lemma Indexed.stamps_run : ∀ (events : List PoolEvent) {p : BackendPool}, p.Indexed →
    p.inner.states.get id = some r → p.Stays id events →
    (events.foldl PoolEvent.apply p).inner.states.get id = some r ∧
      ((events.foldl PoolEvent.apply p).arena.read r).stamps =
        (recoveries id p events).foldl (fun stamps e => nextStamps stamps e.nanos)
          (p.arena.read r).stamps
  | [], _, _, hg, _ => ⟨hg, rfl⟩
  | e :: events, p, hp, hg, hs => by
    have hg' := hp.get_apply hg hs.2.mem
    obtain ⟨he, hru⟩ := Indexed.stamps_run events (hp.apply e) hg' hs.2
    refine ⟨he, hru.trans ?_⟩
    have hst : Stamped e.nanos _ _ := stamped_apply (hp.sound id r hg).1 e
    have hr : Recovers id p e = (!(p.arena.read r).isConfirmed &&
        ((e.apply p).arena.read r).isConfirmed) := by
      rw [Recovers, shownFlag, shownFlag, hg, hg', Option.any_some, Option.any_some]
    rw [Stamped, ← hr] at hst
    rw [hst, recoveries]
    split_ifs <;> rfl

lemma foldl_nextStamps_fst : ∀ (events : List PoolEvent) {stamps : ℕ × ℕ}, stamps.1 < 2 ^ 64 →
    (events.foldl (fun stamps e => nextStamps stamps e.nanos) stamps).1 =
      (stamps.1 + events.length) % 2 ^ 64
  | [], _, h => (Nat.mod_eq_of_lt h).symm
  | e :: events, stamps, h => by
    rw [List.foldl_cons, foldl_nextStamps_fst events (Nat.mod_lt _ (by norm_num)), nextStamps,
      Nat.mod_add_mod, List.length_cons, Nat.add_assoc, Nat.add_comm 1]

def Bounded (p : BackendPool) : Prop :=
  ∀ r < p.arena.next, (p.arena.read r).eligibilityGeneration < 2 ^ 64

lemma Bounded.apply (h : p.Bounded) (e : PoolEvent) : (e.apply p).Bounded := by
  intro r hr
  by_cases hlt : r < p.arena.next
  · have hs : (_ : ℕ × ℕ) = _ := stamped_apply hlt e
    rw [show ((e.apply p).arena.read r).eligibilityGeneration = _ from congrArg Prod.fst hs]
    split_ifs
    · exact Nat.mod_lt _ (by norm_num)
    · exact h r hlt
  · cases hre : e.isRefresh with
    | false => exact absurd ((FlagWrite.apply hre).next_eq ▸ hr) hlt
    | true =>
      cases e with
      | applyResolved backends =>
        rw [PoolEvent.apply, applyResolved] at hr ⊢
        split_ifs at hr ⊢
        · exact absurd hr hlt
        · obtain ⟨b, -, hf⟩ := part_collect_new (g := BackendState.eligibilityGeneration)
            (fun _ _ => rfl) p backends (Nat.le_of_not_lt hlt) hr
          rw [hf]
          exact Nat.two_pow_pos 64
      | _ => cases hre

/-- **Generations count recoveries.**  While a backend is in the pool, the calls that turn it from
not confirmed to confirmed raise its generation by one and write its stamp, and no others do. -/
theorem generation_counts_recoveries {backends : List Backend} {fraction : Option ℚ}
    {before : List PoolEvent} {p : BackendPool}
    (hrun : Run PoolEvent.Step (.withMaxEjectedFraction backends fraction) before p)
    {id : BackendId} {events : List PoolEvent} (hstays : p.Stays id events) :
    (events.foldl PoolEvent.apply p).eligibilityGeneration id =
        (p.eligibilityGeneration id + (recoveries id p events).length) % 2 ^ 64 ∧
      (events.foldl PoolEvent.apply p).part BackendState.stamps id =
        (p.part BackendState.stamps id).map fun stamps =>
          (recoveries id p events).foldl (fun stamps e => nextStamps stamps e.nanos)
            stamps := by
  obtain ⟨hp, hb⟩ : p.Indexed ∧ p.Bounded := hrun.invariant (I := fun p => p.Indexed ∧ p.Bounded)
      (fun _ e _ hst h => hst ▸ ⟨h.1.apply e, h.2.apply e⟩)
      ⟨indexed_withMaxEjectedFraction backends fraction,
        collect_startup_forall (Q := fun s => s.eligibilityGeneration < 2 ^ 64) backends
          (fun _ _ => Nat.two_pow_pos 64) (by simp [Arena.empty])⟩
  obtain ⟨r, hg⟩ := AList.exists_get_of_mem (hp.listed id hstays.mem)
  obtain ⟨he, hs⟩ := hp.stamps_run events hg hstays
  have hlt : (p.arena.read r).stamps.1 < 2 ^ 64 := hb r (hp.sound id r hg).1
  refine ⟨?_, ?_⟩
  · rw [eligibilityGeneration, eligibilityGeneration, hg, he]
    exact (congrArg Prod.fst hs).trans (foldl_nextStamps_fst _ hlt)
  · rw [part, part, hg, he, Option.map_some, Option.map_some, Option.map_some, hs]

/-- A circuit opens and closes while the backend is drained, and the drain ends: one recovery. -/
theorem generation_counts_recoveries_drained :
    let p := withMaxEjectedFraction [⟨"a", "10.0.0.1:80", 1, none, 0⟩] none
    let events : List PoolEvent := [.setManuallyDrained "a" true 3, .setCircuitOpen "a" true 5,
      .setCircuitOpen "a" false 7, .setManuallyDrained "a" false 9]
    (recoveries "a" p events).length = 1 ∧
      (events.foldl PoolEvent.apply p).eligibilityGeneration "a" = 1 := by
  intro p events
  have hst : p.Stays "a" events :=
    ⟨by decide, by decide, by decide, by decide, (by decide : "a" ∈ allBackendIds _)⟩
  have hr : (recoveries "a" p events).length = 1 := by decide
  have hs : p.eligibilityGeneration "a" = 0 := by decide
  refine ⟨hr, (generation_counts_recoveries .start hst).1.trans ?_⟩
  rw [hr, hs]
  norm_num

end BackendPool

end LoadBalancer.Core
