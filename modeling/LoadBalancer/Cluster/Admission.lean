import LoadBalancer.Cluster.StoreRun
import LoadBalancer.Lib.Window

/-!
# A node never over-admits against its own view

`try_admit` compares one sum with the limit: the counts of the window that ends now.  The
comparison bounds the admissions of *every* window of `window_secs` seconds.

The counts of a key, second by second and over all slots, are a sliding window in the sense of
`Lib/Window.lean`: a merge only raises them, a prune drops only seconds that have left the window,
and an admission adds one to its own second when the sum is below the limit
(`StoreEvent.Step.window`).
-/

namespace LoadBalancer.Cluster

open AList Finset

/-! ## Counts of one second -/

namespace KeyCounts

variable (c : KeyCounts)

def allCounts : List ℕ := (c.perNode.entries.flatMap fun slot => slot.2.entries).map fun b => b.2

def secondSum (epoch : ℕ) : ℕ := (c.countsInWindow epoch 1).sum

lemma secondSum_eq (epoch : ℕ) (S : Finset String) (hS : ∀ slot ∈ c.perNode, slot ∈ S) :
    c.secondSum epoch = ∑ slot ∈ S, c.count slot epoch := by
  rw [secondSum, c.sum_countsInWindow epoch 1 S hS]
  simp [cutoffSecs]

lemma secondSum_mono {c c' : KeyCounts} {epoch : ℕ}
    (h : ∀ slot, c.count slot epoch ≤ c'.count slot epoch) :
    c.secondSum epoch ≤ c'.secondSum epoch := by
  refine sum_countsInWindow_mono fun slot e h1 h2 => ?_
  obtain rfl : e = epoch := le_antisymm h2 h1
  exact h slot

lemma sum_countsInWindow_eq_sum_secondSum (now w : ℕ) :
    (c.countsInWindow now w).sum
      = ∑ epoch ∈ Finset.Icc (cutoffSecs now w) now, c.secondSum epoch := by
  have hS : ∀ slot ∈ c.perNode, slot ∈ c.perNode.keys.toFinset := fun slot hs => by
    simp [mem_keys.mp hs]
  rw [c.sum_countsInWindow now w _ hS, sum_comm]
  exact sum_congr rfl fun epoch _ => (c.secondSum_eq epoch _ hS).symm

lemma count_le_sum_countsInWindow (slot : String) (now w : ℕ) :
    c.count slot now ≤ (c.countsInWindow now w).sum := by
  rw [c.sum_countsInWindow now w (insert slot c.perNode.keys.toFinset)
    (fun s hs => by simp [mem_keys.mp hs])]
  refine le_trans ?_ (single_le_sum (f := fun s =>
    ∑ epoch ∈ Finset.Icc (cutoffSecs now w) now, c.count s epoch) (fun _ _ => Nat.zero_le _)
    (mem_insert_self slot _))
  exact single_le_sum (f := fun epoch => c.count slot epoch) (fun _ _ => Nat.zero_le _)
    (mem_Icc.mpr ⟨cutoffSecs_le now w, le_rfl⟩)

lemma secondSum_record (nodeId : String) {now : ℕ} (hlt : c.count nodeId now + 1 < 2 ^ 64)
    (epoch : ℕ) :
    (record c nodeId now).secondSum epoch = c.secondSum epoch + if now = epoch then 1 else 0 := by
  let S : Finset String :=
    insert nodeId (c.perNode.keys.toFinset ∪ (record c nodeId now).perNode.keys.toFinset)
  rw [secondSum_eq _ epoch S (fun s hs => by simp [S, mem_keys.mp hs]),
    secondSum_eq _ epoch S (fun s hs => by simp [S, mem_keys.mp hs])]
  have hco : ∀ slot, (record c nodeId now).count slot epoch =
      c.count slot epoch + if slot = nodeId ∧ now = epoch then 1 else 0 := by
    intro slot
    by_cases h : slot = nodeId ∧ now = epoch
    · obtain ⟨rfl, rfl⟩ := h
      rw [count, cell_record, if_pos ⟨rfl, rfl⟩, if_pos ⟨rfl, rfl⟩]
      exact wrap64_of_lt hlt
    · rw [count, cell_record, if_neg (fun hc => h ⟨hc.1, hc.2.symm⟩), if_neg h]
      rfl
  simp only [hco, sum_add_distrib]
  congr 1
  rw [sum_eq_single_of_mem nodeId (mem_insert_self _ _)
    (fun s _ hs => by simp [hs])]
  simp

end KeyCounts

/-! ## Admissions of a run -/

namespace StoreEvent

def admission (key : String) : StoreEvent → Option ℕ
  | tryAdmit k _ now _ true => if k = key then some now else none
  | _ => none

/-- The request was admitted and counted under `key`. -/
def admitsUnder (s : CounterStore) (key : String) : StoreEvent → Bool
  | tryAdmit k _ _ _ true => s.trackedKey k = key
  | _ => false

end StoreEvent

/-- The readings at which requests for `key` were admitted, oldest first. -/
def admissions (key : String) (events : List StoreEvent) : List ℕ :=
  events.filterMap (StoreEvent.admission key)

/-- No key's counts add up to `2 ^ 64`, so no total wraps around. -/
def Unwrapped (s : CounterStore) : Prop :=
  ∀ item ∈ s.keys.entries, item.2.allCounts.sum < 2 ^ 64

instance (s : CounterStore) : Decidable (Unwrapped s) := inferInstanceAs (Decidable (∀ _ ∈ _, _))

/-- The store is below the key cap and no key's counts add up to `2 ^ 64`. -/
def Uncrowded (s : CounterStore) : Prop :=
  s.keys.size < maxTrackedKeys ∧ Unwrapped s

instance (s : CounterStore) : Decidable (Uncrowded s) := inferInstanceAs (Decidable (_ ∧ _))

lemma Unwrapped.sum_countsInWindow_lt {s : CounterStore} (h : Unwrapped s) (key : String)
    (now w : ℕ) : ((s.counts key).countsInWindow now w).sum < 2 ^ 64 := by
  refine ((List.filter_sublist.map _).sum_le_sum fun _ _ => Nat.zero_le _).trans_lt ?_
  unfold CounterStore.counts
  cases hk : s.keys.get key with
  | none => decide
  | some c => exact h ⟨key, c⟩ (mem_entries_iff_get.mpr hk)

lemma Unwrapped.tryAdmit_iff {s : CounterStore} (h : Unwrapped s) (key nodeId : String)
    (now limit : ℕ) :
    (s.tryAdmit key nodeId now limit).1 = true ↔
      ((s.counts (s.trackedKey key)).countsInWindow now s.windowSecs).sum < limit := by
  rw [s.tryAdmit_fst, s.totalInWindow_eq, KeyCounts.totalInWindow,
    wrap64_of_lt (h.sum_countsInWindow_lt _ _ _), decide_eq_true_eq]

/-! ## The counts as a sliding window -/

section

variable {s s' : CounterStore} {e : StoreEvent}

/-- **One step**, seen from the key `key`: the counts of a second grow by the requests that the
step admitted under the key, and no count is lowered that the window still sees. -/
lemma StoreEvent.Step.window (h : e.Step s s') (hs : Unwrapped s) (key : String) {limit : ℕ}
    (hli : ∀ k nodeId now l admitted, e = .tryAdmit k nodeId now l admitted →
      s.trackedKey k = key → l ≤ limit) (hm : limit < 2 ^ 64) :
    Window.Step s.windowSecs limit (s.counts key).secondSum (e.now, e.admitsUnder s key)
      (s'.counts key).secondSum := by
  cases e with
  | tryAdmit k nodeId now l admitted =>
    have hc := s.counts_tryAdmit k nodeId key now l
    rw [show s.tryAdmit k nodeId now l = (admitted, s') from h] at hc
    by_cases hy : s.trackedKey k = key ∧ admitted = true
    · obtain ⟨rfl, rfl⟩ := hy
      have hsu := (hs.tryAdmit_iff k nodeId now l).mp
        (by rw [show s.tryAdmit k nodeId now l = _ from h])
      have hce := (s.counts (s.trackedKey k)).count_le_sum_countsInWindow nodeId now s.windowSecs
      have hl := hli k nodeId now l true rfl rfl
      have ha : StoreEvent.admitsUnder s (s.trackedKey k) (.tryAdmit k nodeId now l true)
          = true := decide_eq_true rfl
      rw [hc, if_pos ⟨rfl, rfl⟩, ha]
      refine ⟨fun t _ => ?_, fun _ => ?_⟩
      · rw [KeyCounts.secondSum_record _ _ (by omega)]
        exact le_of_eq (by simp [StoreEvent.now])
      · rw [KeyCounts.sum_countsInWindow_eq_sum_secondSum] at hsu
        exact hsu.trans_le hl
    · have ha : StoreEvent.admitsUnder s key (.tryAdmit k nodeId now l admitted) = false := by
        cases admitted with
        | false => rfl
        | true => exact decide_eq_false fun hk => hy ⟨hk, rfl⟩
      rw [hc, if_neg fun h => hy ⟨h.1.symm, h.2⟩, ha]
      exact .of_le fun _ _ => le_rfl
  | merge k nodeId buckets now =>
    obtain rfl : s.merge k nodeId buckets now = s' := h
    refine .of_le fun t _ => ?_
    exact KeyCounts.secondSum_mono fun slot =>
      getD_le_getD_of_level_le (s.level_le_level_merge k nodeId buckets now key slot t)
  | prune now =>
    obtain rfl : s.prune now = s' := h
    refine .of_le fun t ht => KeyCounts.secondSum_mono fun slot => le_of_eq ?_
    exact congrArg (·.getD 0) ((s.cell_prune now key slot t).trans (if_pos ht)).symm
  | snapshot nodeId now maxEntries maxBytes out =>
    rw [h.counts_snapshot key]
    exact .of_le fun _ _ => le_rfl

lemma Uncrowded.admitsUnder_eq (hs : Uncrowded s) (key : String) :
    e.admitsUnder s key = (e.admission key).isSome := by
  cases e with
  | tryAdmit k nodeId now l admitted =>
    cases admitted with
    | false => rfl
    | true =>
      rw [StoreEvent.admitsUnder, s.trackedKey_eq_of_lt hs.1, StoreEvent.admission]
      split_ifs with hk <;> simp [hk]
  | merge | prune | snapshot => rfl

end

section

variable {s₀ s : CounterStore} {events : List StoreEvent}

def windowCalls (key : String) (events : List StoreEvent) : List Window.Call :=
  events.map fun e => (e.now, (e.admission key).isSome)

lemma admitted_windowCalls (key : String) (events : List StoreEvent) :
    Window.admitted (windowCalls key events) = admissions key events := by
  induction events with
  | nil => rfl
  | cons e events ih =>
    rw [windowCalls, List.map_cons, Window.admitted, List.filter_cons, admissions,
      List.filterMap_cons]
    cases ha : e.admission key with
    | none => exact ih
    | some t =>
      have ht : e.now = t := by
        unfold StoreEvent.admission at ha
        split at ha
        · split_ifs at ha
          exact Option.some.inj ha
        · cases ha
      rw [Option.isSome_some, if_pos rfl, List.map_cons, ht]
      exact congrArg (t :: ·) ih

lemma run_windowCalls (key : String) {limit : ℕ} (hm : limit < 2 ^ 64)
    (hr : Run (Guarded Uncrowded StoreEvent.Step) s₀ events s)
    (hl : ∀ e ∈ events, ∀ nodeId now l admitted,
      e = .tryAdmit key nodeId now l admitted → l ≤ limit) :
    s.windowSecs = s₀.windowSecs ∧
      Run (Window.Step s₀.windowSecs limit) (s₀.counts key).secondSum (windowCalls key events)
        (s.counts key).secondSum := by
  induction hr with
  | start => exact ⟨rfl, .start⟩
  | @next events s s' e _ hs ih =>
    rw [List.forall_mem_append, List.forall_mem_singleton] at hl
    obtain ⟨hw, ih⟩ := ih hl.1
    have hst := hs.2.1.window hs.1.2 key (fun k nodeId now l admitted he hk => by
      rw [s.trackedKey_eq_of_lt hs.1.1] at hk
      exact hl.2 nodeId now l admitted (hk ▸ he)) hm
    rw [hs.1.admitsUnder_eq, hw] at hst
    refine ⟨hs.2.1.windowSecs_eq.trans hw, ?_⟩
    rw [windowCalls, List.map_append]
    exact ih.next hst

/-- **A node never over-admits against its own view.**  With a clock that does not go back, below
the key cap and with no key's counts adding up to `2 ^ 64`, the requests for a key that are
admitted in any `windowSecs` consecutive seconds are at most the limit they were held to; and a
refused request changes no cell. -/
theorem admissions_in_window_le_limit (key : String) (limit : ℕ) (hmax : limit < 2 ^ 64)
    (hrun : Run (Guarded Uncrowded StoreEvent.Step) s₀ events s)
    (hclock : (events.map StoreEvent.now).Pairwise (· ≤ ·))
    (hlimit : ∀ e ∈ events, ∀ nodeId now l admitted,
      e = .tryAdmit key nodeId now l admitted → l ≤ limit) :
    (∀ t, ((admissions key events).filter fun a =>
      t ≤ a ∧ a < t + s₀.windowSecs).length ≤ limit) ∧
    (∀ (r r' : CounterStore) (k nodeId : String) (now l : ℕ),
      (StoreEvent.tryAdmit k nodeId now l false).Step r r' →
      ∀ k' slot epoch, r'.cell k' slot epoch = r.cell k' slot epoch) := by
  have hca := (run_windowCalls key hmax hrun hlimit).2
  have hs : (windowCalls key events).Pairwise fun call call' => call.1 ≤ call'.1 :=
    List.pairwise_map.mpr (List.pairwise_map.mp hclock)
  refine ⟨fun t => ?_, ?_⟩
  · rw [← admitted_windowCalls]
    exact Window.admitted_le hca hs t
  intro r r' k nodeId now l h k' slot epoch
  have hc := r.cell_tryAdmit k nodeId k' slot now l epoch
  rw [show r.tryAdmit k nodeId now l = (false, r') from h] at hc
  simpa using hc

end

/-- A limit of two over two seconds: one admission here, one reported by a peer, one refusal. -/
theorem admissions_in_window_le_limit_two :
    let s₁ := ((CounterStore.new 2).tryAdmit "k" "a" 100 2).2
    let s₂ := s₁.merge "k" "b\x001" [(100, 1)] 101
    let events : List StoreEvent := [.tryAdmit "k" "a" 100 2 true,
      .merge "k" "b\x001" [(100, 1)] 101, .tryAdmit "k" "a" 101 2 false]
    Run (Guarded Uncrowded StoreEvent.Step) (CounterStore.new 2) events
        (s₂.tryAdmit "k" "a" 101 2).2 ∧
      ((admissions "k" events).filter fun a => 100 ≤ a ∧ a < 100 + 2).length ≤ 2 := by
  intro s₁ s₂ events
  have h₁ : Guarded Uncrowded StoreEvent.Step (CounterStore.new 2)
      (.tryAdmit "k" "a" 100 2 true) s₁ :=
    ⟨by decide, Prod.ext (by decide) rfl, by decide⟩
  have h₂ : Guarded Uncrowded StoreEvent.Step s₁ (.merge "k" "b\x001" [(100, 1)] 101) s₂ :=
    ⟨by decide, rfl, by decide⟩
  have h₃ : Guarded Uncrowded StoreEvent.Step s₂ (.tryAdmit "k" "a" 101 2 false)
      (s₂.tryAdmit "k" "a" 101 2).2 :=
    ⟨by decide, Prod.ext (by decide) rfl, by decide⟩
  have hr := ((Run.start.next h₁).next h₂).next h₃
  refine ⟨hr, (admissions_in_window_le_limit "k" 2 (by norm_num) hr (by decide) ?_).1 100⟩
  intro e he nodeId now l admitted h
  subst h
  simp at he
  omega

end LoadBalancer.Cluster
