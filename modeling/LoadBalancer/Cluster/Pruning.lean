import LoadBalancer.Cluster.StoreRun

/-!
# Pruning is invisible

`prune` drops the cells of seconds that have left the window.  With a clock that does not go back
these seconds stay out of every later window, so a store that never prunes answers alike.  The two
stores agree on the counts from the cutoff on (`SameView`); before it a pruned store may have
nothing, or, after an old message is merged once more, something smaller than it had before, and
neither is ever read.
-/

namespace LoadBalancer.Cluster

/-- Two stores that agree on the seconds the window at `now` sees, and on all later ones. -/
structure SameView (now : ℕ) (s s' : CounterStore) : Prop where
  windowSecs_eq : s'.windowSecs = s.windowSecs
  count_eq : ∀ key slot epoch, cutoffSecs now s.windowSecs ≤ epoch →
    s'.count key slot epoch = s.count key slot epoch

namespace CounterStore

variable {s s' : CounterStore} {t now : ℕ}

lemma count_merge_le_iff (s : CounterStore) {key : String} (hro : s.keys.size < maxTrackedKeys)
    (nodeId : String) (buckets : List (ℕ × ℕ)) (now : ℕ) (k slot : String) (epoch n : ℕ) :
    (s.merge key nodeId buckets now).count k slot epoch ≤ n ↔ s.count k slot epoch ≤ n ∧
      (k = key → slot = nodeId → ∀ v, (epoch, v) ∈ buckets → epoch ≤ maxEpochSecs now → v ≤ n) := by
  have h := s.level_merge_le_iff key nodeId buckets now k slot epoch (level (some n))
  simp only [level_le_level_some_iff, hro, or_true, forall_const] at h
  exact h

end CounterStore

namespace SameView

variable {s s' : CounterStore} {t now : ℕ}

lemma mono (h : SameView t s s') (hle : t ≤ now) : SameView now s s' :=
  ⟨h.windowSecs_eq, fun key slot epoch he =>
    h.count_eq key slot epoch ((cutoffSecs_mono hle _).trans he)⟩

lemma totalInWindow_eq (h : SameView now s s') (key : String) :
    s'.totalInWindow key now = s.totalInWindow key now := by
  rw [CounterStore.totalInWindow_eq, CounterStore.totalInWindow_eq, h.windowSecs_eq,
    KeyCounts.totalInWindow, KeyCounts.totalInWindow]
  refine congrArg wrap64 (le_antisymm ?_ ?_)
  · exact KeyCounts.sum_countsInWindow_mono fun slot epoch he _ =>
      (h.count_eq key slot epoch he).le
  · exact KeyCounts.sum_countsInWindow_mono fun slot epoch he _ =>
      (h.count_eq key slot epoch he).ge

section

variable (hro : s.keys.size < maxTrackedKeys) (hro' : s'.keys.size < maxTrackedKeys)

include hro hro'

variable (h : SameView now s s') (key nodeId : String)

include h

lemma tryAdmit_fst (limit : ℕ) :
    (s'.tryAdmit key nodeId now limit).1 = (s.tryAdmit key nodeId now limit).1 := by
  rw [s.tryAdmit_fst, s'.tryAdmit_fst, s.trackedKey_eq_of_lt hro, s'.trackedKey_eq_of_lt hro',
    h.totalInWindow_eq]

lemma tryAdmit (limit : ℕ) :
    SameView now (s.tryAdmit key nodeId now limit).2 (s'.tryAdmit key nodeId now limit).2 := by
  refine ⟨by rw [s.windowSecs_tryAdmit, s'.windowSecs_tryAdmit, h.windowSecs_eq], ?_⟩
  intro k slot epoch he
  rw [s.windowSecs_tryAdmit] at he
  have hce := s.cell_tryAdmit key nodeId k slot now limit epoch
  have hc' := s'.cell_tryAdmit key nodeId k slot now limit epoch
  rw [s.trackedKey_eq_of_lt hro] at hce
  rw [s'.trackedKey_eq_of_lt hro', h.tryAdmit_fst hro hro',
    h.count_eq k nodeId now (cutoffSecs_le now _)] at hc'
  have hc : ∀ r : CounterStore, r.count k slot epoch = (r.cell k slot epoch).getD 0 :=
    fun _ => rfl
  rw [hc, hc, hce, hc']
  split_ifs
  · rfl
  · exact h.count_eq k slot epoch he

lemma merge (buckets : List (ℕ × ℕ)) :
    SameView now (s.merge key nodeId buckets now) (s'.merge key nodeId buckets now) := by
  refine ⟨by rw [s.windowSecs_merge, s'.windowSecs_merge, h.windowSecs_eq], ?_⟩
  intro k slot epoch he
  rw [s.windowSecs_merge] at he
  refine eq_of_forall_ge_iff fun n => ?_
  rw [s.count_merge_le_iff hro, s'.count_merge_le_iff hro', h.count_eq k slot epoch he]

end

/-- **A prune of one of them** drops what the other will not read again. -/
lemma prune (h : SameView now s s') : SameView now (s.prune now) s' := by
  refine ⟨h.windowSecs_eq, fun key slot epoch he => ?_⟩
  rw [s.windowSecs_prune] at he
  have hc := (s.cell_prune now key slot epoch).trans (if_pos he)
  rw [h.count_eq key slot epoch he]
  exact (congrArg (·.getD 0) hc).symm

end SameView

/-! ## Runs -/

namespace StoreEvent

def key : StoreEvent → Option String
  | tryAdmit key _ _ _ _ => some key
  | merge key _ _ _ => some key
  | prune _ => none
  | snapshot .. => none

def IsPrune : StoreEvent → Bool
  | prune _ => true
  | _ => false

def IsSnapshot : StoreEvent → Bool
  | snapshot .. => true
  | _ => false

end StoreEvent

def keysUsed (events : List StoreEvent) : Finset String :=
  (events.filterMap StoreEvent.key).toFinset

def withoutPrunes (events : List StoreEvent) : List StoreEvent :=
  events.filter fun e => !e.IsPrune

section

variable {events : List StoreEvent} {s s' : CounterStore} {e : StoreEvent}

lemma keysUsed_snoc (events : List StoreEvent) (e : StoreEvent) :
    keysUsed (events ++ [e]) = keysUsed events ∪ e.key.toFinset := by
  rw [keysUsed, List.filterMap_append, List.toFinset_append]
  cases e <;> rfl

def TracksUsed (events : List StoreEvent) (s : CounterStore) : Prop :=
  ∀ key ∈ s.keys, key ∈ keysUsed events

lemma TracksUsed.size_lt (h : TracksUsed events s)
    (hk : (keysUsed events).card < maxTrackedKeys) : s.keys.size < maxTrackedKeys := by
  refine lt_of_le_of_lt ?_ hk
  rw [AList.size_eq_length_keys, ← List.toFinset_card_of_nodup s.keys.keys_nodup]
  exact Finset.card_le_card fun key hke =>
    h key (AList.mem_keys.mpr (List.mem_toFinset.mp hke))

lemma TracksUsed.step (h : TracksUsed events s) (hro : s.keys.size < maxTrackedKeys)
    (hs : e.Step s s') : TracksUsed (events ++ [e]) s' := by
  intro k hk
  rw [keysUsed_snoc, Finset.mem_union]
  cases e with
  | tryAdmit key nodeId now limit admitted =>
    obtain ⟨-, rfl⟩ := StoreEvent.step_tryAdmit_iff.mp hs
    rw [s.keys_tryAdmit, AList.mem_insert, s.trackedKey_eq_of_lt hro] at hk
    rcases hk with rfl | hk
    · exact Or.inr (by simp [StoreEvent.key])
    · exact Or.inl (h k hk)
  | merge key nodeId buckets now =>
    obtain rfl : s.merge key nodeId buckets now = s' := hs
    rcases (s.mem_keys_merge _ _ _ _ k).mp hk with hk | ⟨rfl, -⟩
    · exact Or.inl (h k hk)
    · exact Or.inr (by simp [StoreEvent.key])
  | prune now =>
    obtain rfl : s.prune now = s' := hs
    exact Or.inl (h k (s.mem_keys_of_mem_prune hk))
  | snapshot nodeId now maxEntries maxBytes out =>
    rw [hs.keys_snapshot] at hk
    exact Or.inl (h k hk)

lemma card_keysUsed_le (events : List StoreEvent) (e : StoreEvent) :
    (keysUsed events).card ≤ (keysUsed (events ++ [e])).card := by
  rw [keysUsed_snoc]
  exact Finset.card_le_card Finset.subset_union_left

/-- A store that has served the events next to one that was given all of them but the prunes. -/
structure InStep (events : List StoreEvent) (s s' : CounterStore) : Prop where
  used : TracksUsed events s
  used' : TracksUsed events s'
  same : ∀ now, (∀ e ∈ events, e.now ≤ now) → SameView now s s'

lemma InStep.step {s₀ s₀' : CounterStore} (h : InStep events s₀ s₀')
    (hca : e.IsSnapshot = false) (hc : ∀ e' ∈ events, e'.now ≤ e.now)
    (hk : (keysUsed events).card < maxTrackedKeys) (hs : e.Step s₀ s) :
    ∃ s', Run StoreEvent.Step s₀' (withoutPrunes [e]) s' ∧ InStep (events ++ [e]) s s' := by
  have hv := h.same e.now hc
  have hro := h.used.size_lt hk
  have hro' := h.used'.size_lt hk
  have hl : ∀ now, (∀ e' ∈ events ++ [e], e'.now ≤ now) → e.now ≤ now :=
    fun now ha => ha e (by simp)
  cases e with
  | tryAdmit key nodeId now limit admitted =>
    obtain ⟨rfl, rfl⟩ := StoreEvent.step_tryAdmit_iff.mp hs
    have hs' : StoreEvent.Step s₀' (.tryAdmit key nodeId now limit
        (s₀.tryAdmit key nodeId now limit).1) (s₀'.tryAdmit key nodeId now limit).2 :=
      .tryAdmit (hv.tryAdmit_fst hro hro' key nodeId limit)
    exact ⟨_, Run.start.next hs', h.used.step hro hs, h.used'.step hro' hs', fun now' ha =>
      (hv.tryAdmit hro hro' key nodeId limit).mono (hl now' ha)⟩
  | merge key nodeId buckets now =>
    obtain rfl : s₀.merge key nodeId buckets now = s := hs
    have hs' : StoreEvent.Step s₀' (.merge key nodeId buckets now)
        (s₀'.merge key nodeId buckets now) := rfl
    exact ⟨_, Run.start.next hs', h.used.step hro rfl, h.used'.step hro' hs', fun now' ha =>
      (hv.merge hro hro' key nodeId buckets).mono (hl now' ha)⟩
  | prune now =>
    obtain rfl : s₀.prune now = s := hs
    have hu' : TracksUsed (events ++ [.prune now]) s₀' := fun key hke => by
      rw [keysUsed_snoc]
      exact Finset.mem_union_left _ (h.used' key hke)
    exact ⟨s₀', .start, h.used.step hro rfl, hu', fun now' ha =>
      hv.prune.mono (hl now' ha)⟩
  | snapshot nodeId now maxEntries maxBytes out => cases hca

end

/-- **Pruning is invisible to decisions.**  Below the key cap and with a clock that does not go
back, the calls other than prunes are a run with the same results, and from the last reading on
every key has the same total in both. -/
theorem prunes_invisible (windowSecs : ℕ) {events : List StoreEvent} {s : CounterStore}
    (hrun : Run StoreEvent.Step (.new windowSecs) events s)
    (hcalls : ∀ e ∈ events, e.IsSnapshot = false)
    (hclock : events.Pairwise fun e e' => e.now ≤ e'.now)
    (hkeys : (keysUsed events).card < maxTrackedKeys) :
    ∃ s', Run StoreEvent.Step (.new windowSecs) (withoutPrunes events) s' ∧
      ∀ now, (∀ e ∈ events, e.now ≤ now) → ∀ key,
        s'.totalInWindow key now = s.totalInWindow key now := by
  refine (hrun.leaving_out (R := InStep)
    (P := fun events => (∀ e ∈ events, e.IsSnapshot = false) ∧
      events.Pairwise (fun e e' => e.now ≤ e'.now) ∧ (keysUsed events).card < maxTrackedKeys)
    ?_ ?_ ?_ ⟨hcalls, hclock, hkeys⟩).imp fun s' h =>
      ⟨h.1, fun now hn key => (h.2.same now hn).totalInWindow_eq key⟩
  · rintro l e ⟨hcalls, hclock, hkeys⟩
    exact ⟨(List.forall_mem_append.mp hcalls).1, (List.pairwise_append.mp hclock).1,
      (card_keysUsed_le l e).trans_lt hkeys⟩
  · exact ⟨nofun, nofun, fun _ _ => ⟨rfl, fun _ _ _ _ => rfl⟩⟩
  · rintro l s₀ s₀' e s ⟨hcalls, hclock, hkeys⟩ hin hs
    have hl : ∀ e' ∈ l, e'.now ≤ e.now := fun e' he' =>
      (List.pairwise_append.mp hclock).2.2 e' he' e (List.mem_singleton_self e)
    exact hin.step (hcalls e (by simp)) hl ((card_keysUsed_le l e).trans_lt hkeys) hs

/-- A peer's message that is merged, pruned away and then merged in an older version. -/
theorem prunes_invisible_replayed :
    let events : List StoreEvent := [.merge "k" "b\x001" [(100, 3)] 100, .prune 105,
      .merge "k" "b\x001" [(100, 2)] 105, .tryAdmit "k" "a" 105 1 true,
      .tryAdmit "k" "a" 105 1 false]
    ∃ s s', Run StoreEvent.Step (.new 2) events s ∧
      Run StoreEvent.Step (.new 2) [.merge "k" "b\x001" [(100, 3)] 100,
        .merge "k" "b\x001" [(100, 2)] 105, .tryAdmit "k" "a" 105 1 true,
        .tryAdmit "k" "a" 105 1 false] s' ∧
      s.count "k" "b\x001" 100 = 2 ∧ s'.totalInWindow "k" 105 = s.totalInWindow "k" 105 := by
  intro events
  have ha : ∀ (s : CounterStore) (admitted : Bool),
      (s.tryAdmit "k" "a" 105 1).1 = admitted →
      StoreEvent.Step s (.tryAdmit "k" "a" 105 1 admitted) (s.tryAdmit "k" "a" 105 1).2 :=
    fun _ _ => .tryAdmit
  have hm : ∀ (s : CounterStore) (v now : ℕ), StoreEvent.Step s
      (.merge "k" "b\x001" [(100, v)] now) (s.merge "k" "b\x001" [(100, v)] now) :=
    fun _ _ _ => rfl
  have hp : ∀ s : CounterStore, StoreEvent.Step s (.prune 105) (s.prune 105) := fun _ => rfl
  have hr : Run StoreEvent.Step (.new 2) events _ :=
    ((((Run.start.next (hm _ 3 100)).next (hp _)).next (hm _ 2 105)).next
      (ha _ true (by decide))).next (ha _ false (by decide))
  obtain ⟨s', hr', ht⟩ := prunes_invisible 2 hr (by decide) (by decide) (by decide)
  exact ⟨_, s', hr, hr', by decide, ht 105 (by decide) "k"⟩

end LoadBalancer.Cluster
