import LoadBalancer.Cluster.Admission
import LoadBalancer.Cluster.Network

/-!
# What a partition costs

A node decides on its own view, which has its own admissions at least.  However much of the gossip
is lost, late or repeated, a boot therefore admits no more than the limit in a window, and the
cluster no more than one limit for each boot.
-/

namespace LoadBalancer.Cluster

open List

def Network.Uncrowded (c : Network) : Prop :=
  ∀ node ∈ c.nodes.entries, Cluster.Uncrowded node.2.store

instance (c : Network) : Decidable c.Uncrowded := List.decidableBAll _ _

section

variable {events : List NetEvent} {c : Network} {b : Boot} {node : ClusterNode} {key : String}
  {windowSecs now limit : ℕ}

lemma admittedInWindow_append (events' : List NetEvent) :
    admittedInWindow b key windowSecs now (events ++ events') =
      admittedInWindow b key windowSecs now events +
        admittedInWindow b key windowSecs now events' := by
  simp [admittedInWindow, admittedBy]

/-- Only an admission of the boot counts, and counts once. -/
lemma admittedInWindow_singleton (b : Boot) (key : String) (windowSecs now : ℕ) (e : NetEvent) :
    admittedInWindow b key windowSecs now [e] = 0 ∨
      admittedInWindow b key windowSecs now [e] = 1 ∧
        ∃ l k t, e = .tryAdmit b l k t true ∧ l.namespaced k = key := by
  unfold admittedInWindow admittedBy
  cases e with
  | tryAdmit b' l k t admitted =>
    cases admitted with
    | false => exact .inl rfl
    | true =>
      by_cases h : b' = b ∧ l.namespaced k = key
      · obtain ⟨rfl, hk⟩ := h
        simp [hk, filter_singleton]
        grind
      · simp [h]
  | _ => exact .inl rfl

/-- **A node sees its own admissions.** -/
lemma admittedInWindow_le_sum (hrun : Run (Guarded Network.BelowCap NetEvent.Step) .empty events c)
    (hwf : WellFormed events) (hclock : OneClock windowSecs now events) (ha : c.Alive b node)
    (hlt : admittedInWindow b key windowSecs now events < 2 ^ 64) :
    admittedInWindow b key windowSecs now events ≤
      ((node.store.counts key).countsInWindow now (max windowSecs 1)).sum := by
  rw [(node.store.counts key).sum_countsInWindow now _
    (insert b.nodeId (node.store.counts key).perNode.keys.toFinset)
    (fun slot hs => by simp [AList.mem_keys.mp hs])]
  refine le_trans (le_of_eq ?_) (Finset.single_le_sum (fun _ _ => Nat.zero_le _)
    (Finset.mem_insert_self _ _))
  rw [admittedInWindow_eq]
  refine Finset.sum_congr rfl fun epoch he => ?_
  have hle := admittedIn_le_admittedInWindow b key he events
  exact ((count_own hrun hwf hclock.same_window hclock.le_now (Finset.mem_Icc.mp he).1 ha
    key).trans (wrap64_of_lt (hle.trans_lt hlt))).symm

variable (hrun : Run (Guarded Network.Uncrowded NetEvent.Step) .empty events c)
  (hwf : WellFormed events) (hmax : limit < 2 ^ 64)
  (hlimit : ∀ b l k t admitted, .tryAdmit b l k t admitted ∈ events → l.namespaced k = key →
    l.limit ≤ limit) (hclock : OneClock windowSecs now events)
include hrun hwf hmax hlimit hclock

lemma admittedInWindow_le (b : Boot) : admittedInWindow b key windowSecs now events ≤ limit := by
  induction hrun generalizing now with
  | start => exact Nat.zero_le _
  | @next events c c' e hrun hst ih =>
    have ho := hclock.ordered
    rw [readings_append, pairwise_append] at ho
    have hs := hclock.same_window.of_append
    have ih := fun {now} => @ih now hwf.of_append
      fun b l k t admitted h => hlimit b l k t admitted (mem_append_left _ h)
    rw [admittedInWindow_append]
    rcases admittedInWindow_singleton b key windowSecs now e with hnon | ⟨hon, l, k, t, rfl, rfl⟩
    · rw [hnon, add_zero]
      exact ih ⟨hs, ho.1, fun u hu =>
        hclock.le_now u (readings_append .. ▸ mem_append_left _ hu)⟩
    · -- the boot decides on its view at `t`, which has all that is in the later window
      have hle : ∀ u ∈ readings events, u ≤ t.secs := fun u hu =>
        ho.2.2 u hu _ (mem_singleton_self _)
      have ht : OneClock windowSecs t.secs events := ⟨hs, ho.1, hle⟩
      have hnow : t.secs ≤ now := hclock.le_now _
        (readings_append .. ▸ mem_append_right _ (mem_singleton_self _))
      obtain ⟨hg, ⟨node, ha, had, -⟩, -⟩ := hst
      have hno : Cluster.Uncrowded node.store := hg ⟨_, node⟩ (AList.mem_entries_iff_get.mpr ha.1)
      have hb : Run (Guarded Network.BelowCap NetEvent.Step) .empty events c :=
        hrun.mono fun _ _ _ h =>
          ⟨fun node hn => (h.1 node hn).1, h.2.1, fun node hn => (h.2.2 node hn).1⟩
      have hv := (Unwrapped.tryAdmit_iff hno.2 _ node.nodeId t.secs l.limit).mp had
      rw [node.store.trackedKey_eq_of_lt hno.1, windowSecs_of_alive hb hs ha] at hv
      have how := admittedInWindow_le_sum hb hwf.of_append ht ha
        ((ih ht).trans_lt hmax)
      have hla : admittedInWindow b (l.namespaced k) windowSecs now events ≤
          admittedInWindow b (l.namespaced k) windowSecs t.secs events := by
        rw [admittedInWindow_eq, admittedInWindow_eq]
        refine Finset.sum_le_sum_of_ne_zero fun epoch hep hne => ?_
        obtain ⟨e, he, -, hr⟩ := exists_event_of_admittedIn hne
        exact Finset.mem_Icc.mpr ⟨(cutoffSecs_mono hnow _).trans (Finset.mem_Icc.mp hep).1,
          hle _ (mem_readings_of_now he hr)⟩
      have hl := hlimit b l k t true (mem_append_right _ (mem_singleton_self _)) rfl
      omega

/-- **A partition costs at most one limit for each boot.**  Whatever messages are lost, repeated
or late, no boot admits more requests of a key in a window than the limit. -/
theorem cluster_admissions_le : ((boots events).map (admittedInWindow · key windowSecs now
    events)).sum ≤ (boots events).length * limit := by
  refine (sum_le_card_nsmul _ limit (forall_mem_map.mpr fun b _ => ?_)).trans_eq (by simp)
  exact admittedInWindow_le hrun hwf hmax hlimit hclock b

end

/-- Two nodes that hear nothing of each other: the bound is reached. -/
theorem cluster_admissions_le_split :
    let a : Boot := ⟨"a", 1⟩
    let b : Boot := ⟨"b", 2⟩
    let l : ListenerCoordinator := ⟨"web", 1⟩
    let t : UnixSecs := ⟨100, by norm_num⟩
    let events : List NetEvent := [.boot a 10 [], .boot b 10 [], .tryAdmit a l "k" t true,
      .tryAdmit b l "k" t true]
    let total := ((boots events).map (admittedInWindow · "web\x01k" 10 100 events)).sum
    total = 2 ∧ total ≤ (boots events).length * 1 := by
  intro a b l t events total
  have h₁ : Guarded Network.Uncrowded NetEvent.Step .empty (.boot a 10 []) _ :=
    ⟨by decide, rfl, by decide⟩
  have h₂ : Guarded Network.Uncrowded NetEvent.Step _ (.boot b 10 []) _ := ⟨h₁.2.2, rfl, by decide⟩
  have h₃ : Guarded Network.Uncrowded NetEvent.Step _ (.tryAdmit a l "k" t true) _ :=
    ⟨h₂.2.2, ⟨_, ⟨rfl, rfl⟩, by decide, rfl⟩, by decide⟩
  have h₄ : Guarded Network.Uncrowded NetEvent.Step _ (.tryAdmit b l "k" t true) _ :=
    ⟨h₃.2.2, ⟨_, ⟨rfl, rfl⟩, by decide, rfl⟩, by decide⟩
  refine ⟨by decide, cluster_admissions_le ((((Run.start.next h₁).next h₂).next h₃).next h₄)
    ⟨by decide, by decide⟩ (by norm_num) ?_ ⟨?_, by decide, by decide⟩⟩
  · intro b' l' k t' admitted h _
    simp [events] at h
    grind
  · intro e he b' w secret h
    subst h
    simp [events] at he
    omega

end LoadBalancer.Cluster
