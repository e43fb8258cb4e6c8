import Mathlib.Data.Set.Card
import Mathlib.Logic.Function.Basic
import LoadBalancer.Lib.Run

/-!
# Threads over a shared state

Any number of threads, each at a program point of type `π`, take atomic steps on a shared state
of type `σ` in any order.  A step may finish its thread (`none`); new threads start at any time at
the program points `starts` allows.

The rule that later files use is about obligations.  Some condition on the shared state —
`Debt s k`, one for each `k` — may hold for a while, but only as long as a thread is on its way
to repair it (`Owes p k`).  If every step that leaves a debt either leaves it with the thread that
took the step or found it with another one, then no debt is ever without a thread that owes it, and
there is none once all threads have finished.
-/

namespace Interleaving

open Option Function Finset

variable {σ π κ : Type*}

/-- The shared state, and where each thread is. -/
structure Config (σ π : Type*) where
  shared : σ
  threads : ℕ → Option π

/-- A thread starts, or makes its next step. -/
inductive Event (π : Type*)
  | spawn (i : ℕ) (p : π)
  | step (i : ℕ)

def Event.thread : Event π → ℕ
  | .spawn i _ => i
  | .step i => i

/-- One event: a free thread starts, or a running one makes a step. -/
def Step (starts : π → Prop) (threadStep : σ → π → σ → Option π → Prop) (c : Config σ π) :
    Event π → Config σ π → Prop
  | .spawn i p, c' => c.threads i = none ∧ starts p ∧
    c' = { c with threads := update c.threads i (some p) }
  | .step i, c' => ∃ p s' p', c.threads i = some p ∧ threadStep c.shared p s' p' ∧
    c' = ⟨s', update c.threads i p'⟩

/-- No thread is running. -/
def idle (s : σ) : Config σ π := ⟨s, fun _ => none⟩

/-- All threads have finished. -/
def Quiescent (c : Config σ π) : Prop := ∀ i, c.threads i = none

/-- The steps of the schedules that satisfy `ok`. -/
def Scheduled (ok : Config σ π → Event π → Prop) (starts : π → Prop)
    (threadStep : σ → π → σ → Option π → Prop) (c : Config σ π) (e : Event π) (c' : Config σ π) :
    Prop :=
  ok c e ∧ Step starts threadStep c e c'

/-- While a thread satisfies `P`, none satisfies `Q`. -/
def Apart (threads : ℕ → Option π) (P Q : π → Prop) : Prop :=
  ∀ i, ∀ p ∈ threads i, P p → ∀ j, ∀ q ∈ threads j, ¬ Q q

variable {ok : Config σ π → Event π → Prop} {starts : π → Prop}
  {threadStep : σ → π → σ → Option π → Prop} {s₀ : σ} {events : List (Event π)}
  {c₀ c : Config σ π} {threads : ℕ → Option π} {i : ℕ} {o : Option π} {P Q : π → Prop}

/-! ## One thread and the others -/

lemma mem_update_iff {j : ℕ} {q : π} :
    q ∈ update threads i o j ↔ (j = i ∧ q ∈ o) ∨ (j ≠ i ∧ q ∈ threads j) := by
  by_cases h : j = i
  · subst h
    simp
  · simp [h]

/-- What holds of the thread that has moved and of all others holds of all. -/
lemma forall_update (how : ∀ q ∈ o, P q) (ho : ∀ j ≠ i, ∀ q ∈ threads j, P q) :
    ∀ j, ∀ q ∈ update threads i o j, P q := by
  intro j q hq
  obtain ⟨-, hq⟩ | ⟨hne, hq⟩ := mem_update_iff.mp hq
  · exact how q hq
  · exact ho j hne q hq

variable {p : π} {s : σ}

lemma forall_of_others {I : π → Prop} (hi : threads i = some p) (how : I p)
    (ho : ∀ j ≠ i, ∀ q ∈ threads j, I q) : ∀ j, ∀ q ∈ threads j, I q := by
  rw [← update_eq_self i threads, hi]
  exact forall_update (by simpa using how) ho

lemma Apart.update (h : Apart threads P Q) (hd : ∀ p, P p → ¬ Q p)
    (hP : ∀ p ∈ o, P p → ∀ j ≠ i, ∀ q ∈ threads j, ¬ Q q)
    (hQ : ∀ q ∈ o, Q q → ∀ j ≠ i, ∀ p ∈ threads j, ¬ P p) :
    Apart (update threads i o) P Q := by
  intro j p hp hPp k q hq hQq
  obtain ⟨-, hp⟩ | ⟨hne, hp⟩ := mem_update_iff.mp hp
  · obtain ⟨-, hq⟩ | ⟨hne, hq⟩ := mem_update_iff.mp hq
    · obtain rfl := mem_unique hp hq
      exact hd p hPp hQq
    · exact hP p hp hPp k hne q hq hQq
  · obtain ⟨-, hq⟩ | ⟨-, hq⟩ := mem_update_iff.mp hq
    · exact hQ q hq hQq j hne p hp hPp
    · exact h j p hp hPp k q hq hQq

/-! ## Invariants

Some results hold only of the interleavings that keep certain steps apart.  `Scheduled ok` has the
steps that `ok` allows in the configuration they are taken in.  What a thread relies on may then
speak of the shared state, and the rule asks that the steps of other threads do not break it. -/

/-- The rule for invariants of whole configurations. -/
theorem config_invariant {I : Config σ π → Prop} (hini : I (idle s₀))
    (hsp : ∀ c i p, ok c (.spawn i p) → c.threads i = none → starts p → I c →
      I { c with threads := update c.threads i (some p) })
    (hste : ∀ c i p s' p', ok c (.step i) → c.threads i = some p → threadStep c.shared p s' p' →
      I c → I ⟨s', update c.threads i p'⟩)
    (hrun : Run (Scheduled ok starts threadStep) (idle s₀) events c) : I c := by
  refine hrun.invariant (fun c e c' h hI => ?_) hini
  obtain ⟨hok, h⟩ := h
  cases e with
  | spawn i p =>
    obtain ⟨hf, hp, rfl⟩ := h
    exact hsp c i p hok hf hp hI
  | step i =>
    obtain ⟨p, s', p', hp, hs, rfl⟩ := h
    exact hste c i p s' p' hok hp hs hI

/-- What holds of the shared state at first, and of threads where they start, holds in every
configuration when each step keeps it for the thread that takes it and for all others. -/
theorem scheduled_invariant {J : σ → Prop} {I : σ → π → Prop} (hini : J s₀)
    (hst : ∀ s p, J s → starts p → I s p)
    (how : ∀ c i p s' p', ok c (.step i) → c.threads i = some p → threadStep c.shared p s' p' →
      J c.shared → I c.shared p → J s' ∧ ∀ q ∈ p', I s' q)
    (ho : ∀ c i p s' p', ok c (.step i) → c.threads i = some p →
      threadStep c.shared p s' p' → J c.shared → I c.shared p →
      ∀ j ≠ i, ∀ q ∈ c.threads j, I c.shared q → I s' q)
    (hrun : Run (Scheduled ok starts threadStep) (idle s₀) events c) :
    J c.shared ∧ ∀ i, ∀ p ∈ c.threads i, I c.shared p := by
  refine config_invariant (I := fun c => J c.shared ∧ ∀ i, ∀ p ∈ c.threads i, I c.shared p)
    ⟨hini, fun i p h => by cases h⟩ ?_ ?_ hrun
  · rintro c i p - - hp ⟨hJ, hI⟩
    exact ⟨hJ, forall_update (fun q hq => Option.some.inj hq ▸ hst _ p hJ hp) fun j _ => hI j⟩
  · rintro c i p s' p' hok hp hs ⟨hJ, hI⟩
    have hp' := hI i p hp
    obtain ⟨hJ', hI'⟩ := how c i p s' p' hok hp hs hJ hp'
    exact ⟨hJ', forall_update hI' fun j hne q hq =>
      ho c i p s' p' hok hp hs hJ hp' j hne q hq (hI j q hq)⟩

section

variable {J : σ → Prop} {I : π → Prop} (hini : J s₀) (hst : ∀ p, starts p → I p)
  (hste : ∀ s p s' p', J s → I p → threadStep s p s' p' → J s' ∧ ∀ q ∈ p', I q)
  (hrun : Run (Step starts threadStep) (idle s₀) events c)
include hini hst hste hrun

/-- What holds of the shared state at first and of threads where they start, and is kept by
every step, holds of the shared state and of every thread. -/
theorem thread_invariant : J c.shared ∧ ∀ i, ∀ p ∈ c.threads i, I p := by
  have hsc : Run (Scheduled (fun _ _ => True) starts threadStep) (idle s₀) events c :=
    hrun.mono fun _ _ _ h => ⟨trivial, h⟩
  exact scheduled_invariant (I := fun _ => I) hini (fun _ p _ => hst p)
    (fun _ _ p s' p' _ _ hs hJ hp => hste _ p s' p' hJ hp hs)
    (fun _ _ _ _ _ _ _ _ _ _ _ _ _ _ => id) hsc

variable (Debt : σ → κ → Prop) (Owes : π → κ → Prop) (hno : ∀ k, ¬ Debt s₀ k)
  (hde : ∀ s p s' p', J s → I p → threadStep s p s' p' → ∀ k, Debt s' k →
    (∃ q ∈ p', Owes q k) ∨ (Debt s k ∧ ¬ Owes p k))
include hno hde

/-- **Every debt is owed by a thread.** -/
theorem debt_owed : ∀ k, Debt c.shared k → ∃ i, ∃ p ∈ c.threads i, Owes p k := by
  induction hrun with
  | start => exact fun k h => absurd h (hno k)
  | @next events c c' e hrun h ih =>
    intro k hk
    cases e with
    | spawn i p =>
      obtain ⟨hf, -, rfl⟩ := h
      obtain ⟨j, q, hq, ho⟩ := ih k hk
      have hne : j ≠ i := by
        rintro rfl
        rw [hf] at hq
        cases hq
      exact ⟨j, q, (update_of_ne hne _ _).trans hq, ho⟩
    | step i =>
      obtain ⟨p, s', p', hp, hs, rfl⟩ := h
      obtain ⟨hJ, hI⟩ := thread_invariant hini hst hste hrun
      rcases hde _ p _ p' hJ (hI i p hp) hs k hk with ⟨q, rfl, ho⟩ | ⟨hol, hn⟩
      · exact ⟨i, q, update_self .., ho⟩
      · -- the thread that owed it is not the one that moved
        obtain ⟨j, q, hq, ho⟩ := ih k hol
        have hne : j ≠ i := by
          rintro rfl
          cases hp.symm.trans hq
          exact hn ho
        exact ⟨j, q, (update_of_ne hne _ _).trans hq, ho⟩

/-- Once all threads have finished there is no debt. -/
theorem not_debt_of_quiescent (hq : Quiescent c) (k : κ) : ¬ Debt c.shared k := by
  intro hk
  obtain ⟨i, p, hp, -⟩ := debt_owed hini hst hste hrun Debt Owes hno hde k hk
  rw [hq i] at hp
  cases hp

end

/-! ## Ledgers

Some quantity of the shared state is accounted for by the shared state itself and by what threads
hold at their program points.  If every step keeps the account, whatever the other threads hold,
then the account is right in every configuration, with the sum of what all threads hold. -/

section

variable {J : σ → ℕ → Prop} {holds : π → ℕ} {S : Finset ℕ}

/-- What the threads of `S` hold together. -/
def held (holds : π → ℕ) (threads : ℕ → Option π) (S : Finset ℕ) : ℕ :=
  ∑ i ∈ S, (threads i).elim 0 holds

lemma held_update (hi : i ∈ S) (o : Option π) : held holds (update threads i o) S
    = held holds threads (S.erase i) + o.elim 0 holds := by
  unfold held
  rw [← add_sum_erase S _ hi, update_self, add_comm]
  congr 1
  refine sum_congr rfl fun j hj => ?_
  rw [update_of_ne (ne_of_mem_erase hj)]

lemma held_eq (hi : i ∈ S) :
    held holds threads S = held holds threads (S.erase i) + (threads i).elim 0 holds := by
  rw [← held_update hi, update_eq_self]

/-- **The ledger rule**, with what is known of every thread. -/
theorem ledger_with {I : π → Prop} (hini : J s₀ 0)
    (hst : ∀ p, starts p → holds p = 0 ∧ I p)
    (hste : ∀ s p s' p' rest, J s (rest + holds p) → I p → threadStep s p s' p' →
      J s' (rest + p'.elim 0 holds) ∧ ∀ q ∈ p', I q)
    (hrun : Run (Step starts threadStep) (idle s₀) events c) :
    (∃ S : Finset ℕ, (∀ i ∉ S, c.threads i = none) ∧ J c.shared (held holds c.threads S)) ∧
      ∀ i, ∀ p ∈ c.threads i, I p := by
  induction hrun with
  | start => exact ⟨⟨∅, fun _ _ => rfl, hini⟩, fun i p h => by cases h⟩
  | @next events c c' e _ h ih =>
    obtain ⟨⟨S, hS, hJ⟩, hI⟩ := ih
    cases e with
    | spawn i p =>
      obtain ⟨hf, hp, rfl⟩ := h
      refine ⟨⟨insert i S, fun j hj => ?_, ?_⟩, forall_update ?_ fun j _ => hI j⟩
      · obtain ⟨hne, hj⟩ := not_or.mp (mt mem_insert.mpr hj)
        exact (update_of_ne hne _ _).trans (hS j hj)
      · have hsa : held holds (update c.threads i (some p)) (insert i S)
            = held holds c.threads S := by
          rw [held_update (mem_insert_self i S), elim_some, (hst p hp).1, add_zero,
            erase_insert_eq_erase]
          by_cases hi : i ∈ S
          · rw [held_eq hi, hf, elim_none, add_zero]
          · rw [erase_eq_of_notMem hi]
        rw [hsa]
        exact hJ
      · intro q hq
        exact Option.some.inj hq ▸ (hst p hp).2
    | step i =>
      obtain ⟨p, s', p', hp, hs, rfl⟩ := h
      have hi : i ∈ S := by
        by_contra hi
        rw [hS i hi] at hp
        cases hp
      rw [held_eq hi, hp] at hJ
      obtain ⟨hJ', hI'⟩ := hste _ p _ p' _ hJ (hI i p hp) hs
      refine ⟨⟨S, fun j hj => ?_, ?_⟩, forall_update hI' fun j _ => hI j⟩
      · have hne : j ≠ i := fun hji => hj (hji ▸ hi)
        exact (update_of_ne hne _ _).trans (hS j hj)
      · rw [held_update hi]
        exact hJ'

variable (hini : J s₀ 0) (hst : ∀ p, starts p → holds p = 0)
  (hste : ∀ s p s' p' rest, J s (rest + holds p) → threadStep s p s' p' →
    J s' (rest + p'.elim 0 holds))
  (hrun : Run (Step starts threadStep) (idle s₀) events c)
include hini hst hste hrun

theorem ledger :
    ∃ S : Finset ℕ, (∀ i ∉ S, c.threads i = none) ∧ J c.shared (held holds c.threads S) :=
  (ledger_with (I := fun _ => True) hini (fun p hp => ⟨hst p hp, trivial⟩)
    (fun s p s' p' rest hJ _ h => ⟨hste s p s' p' rest hJ h, fun _ _ => trivial⟩) hrun).1

lemma ledger_thread {p : π} (hp : c.threads i = some p) :
    ∃ rest, J c.shared (rest + holds p) := by
  obtain ⟨S, hS, hJ⟩ := ledger hini hst hste hrun
  have hi : i ∈ S := by
    by_contra hi
    rw [hS i hi] at hp
    cases hp
  rw [held_eq hi, hp] at hJ
  exact ⟨_, hJ⟩

lemma ledger_of_quiescent (hq : Quiescent c) : J c.shared 0 := by
  obtain ⟨S, -, hJ⟩ := ledger hini hst hste hrun
  have hz : held holds c.threads S = 0 := sum_eq_zero fun i _ => by rw [hq i, elim_none]
  rwa [hz] at hJ

end

/-! ## Counting threads -/

noncomputable def population (P : π → Prop) (threads : ℕ → Option π) : ℕ :=
  {i | ∃ p ∈ threads i, P p}.ncard

section

variable {S : Finset ℕ}

lemma population_congr (h : ∀ i, ∀ p ∈ threads i, P p ↔ Q p) :
    population P threads = population Q threads := by
  unfold population
  congr 1
  ext i
  exact exists_congr fun p => and_congr_right (h i p)

variable (hS : ∀ i ∉ S, threads i = none)

include hS

lemma population_eq_held [DecidablePred P] :
    population P threads = held (fun p => if P p then 1 else 0) threads S := by
  have hs : {i | ∃ p ∈ threads i, P p} = ↑(S.filter fun i => (threads i).any fun p => P p) := by
    ext i
    rw [mem_coe, mem_filter, Set.mem_ofPred_eq, any_eq_true]
    constructor
    · rintro ⟨p, hp, hP⟩
      refine ⟨by_contra fun hi => ?_, p, hp, decide_eq_true hP⟩
      rw [hS i hi] at hp
      cases hp
    · rintro ⟨-, p, hp, hP⟩
      exact ⟨p, hp, of_decide_eq_true hP⟩
  rw [population, hs, Set.ncard_coe_finset, card_filter, held]
  refine sum_congr rfl fun i _ => ?_
  cases threads i <;> simp

lemma population_or (hd : ∀ p, P p → ¬ Q p) :
    population (fun p => P p ∨ Q p) threads = population P threads + population Q threads := by
  classical
  rw [population_eq_held hS, population_eq_held hS, population_eq_held hS, held, held, held,
    ← sum_add_distrib]
  refine sum_congr rfl fun i _ => ?_
  cases threads i with
  | none => rfl
  | some p =>
    by_cases hP : P p
    · simp [hP, hd p hP]
    · simp [hP]

lemma population_eq_zero_iff : population P threads = 0 ↔ ∀ i, ∀ p ∈ threads i, ¬ P p := by
  have hf : {i | ∃ p ∈ threads i, P p}.Finite := by
    refine S.finite_toSet.subset fun i hi => by_contra fun hn => ?_
    obtain ⟨p, hp, -⟩ := hi
    rw [hS i hn] at hp
    cases hp
  rw [population, Set.ncard_eq_zero hf, Set.eq_empty_iff_forall_notMem]
  simp only [Set.mem_ofPred_eq, not_exists, not_and]

end

lemma threads_of_step {c' : Config σ π} {e : Event π} (h : Step starts threadStep c e c')
    (hi : i ≠ e.thread) : c'.threads i = c.threads i := by
  cases e with
  | spawn j p =>
    obtain ⟨-, -, rfl⟩ := h
    exact update_of_ne hi _ _
  | step j =>
    obtain ⟨p, s', p', -, -, rfl⟩ := h
    exact update_of_ne hi _ _

lemma threads_of_run (hrun : Run (Step starts threadStep) c₀ events c)
    (hi : ∀ e ∈ events, e.thread ≠ i) : c.threads i = c₀.threads i := by
  induction hrun with
  | start => rfl
  | @next events c c' e _ h ih =>
    rw [threads_of_step h (hi e (by simp)).symm,
      ih fun e' he' => hi e' (List.mem_append_left _ he')]

lemma run_of_scheduled (h : Run (Scheduled ok starts threadStep) c₀ events c) :
    Run (Step starts threadStep) c₀ events c :=
  h.mono fun _ _ _ hs => hs.2

/-- A run is over when the threads its events are about have finished. -/
lemma quiescent_of_run (hrun : Run (Scheduled ok starts threadStep) (idle s₀) events c) {n : ℕ}
    (ht : ∀ e ∈ events, e.thread < n) (hd : ∀ i < n, (c.threads i).isNone) :
    Quiescent c := by
  intro i
  rcases Nat.lt_or_ge i n with hi | hi
  · exact isNone_iff_eq_none.mp (hd i hi)
  · exact threads_of_run (run_of_scheduled hrun) fun e he => ((ht e he).trans_le hi).ne

/-! ## Executing a schedule

When a thread's step is a function, a list of events determines the run. -/

section

variable (starts : π → Bool) (ok : Config σ π → Event π → Bool) (next : σ → π → σ × Option π)

/-- A thread step that is a function. -/
def stepOf (s : σ) (p : π) (s' : σ) (p' : Option π) : Prop := next s p = (s', p')

/-- The configuration after an event, if that is possible. -/
def execEvent (c : Config σ π) : Event π → Option (Config σ π)
  | .spawn i p =>
    if (c.threads i).isNone && starts p && ok c (.spawn i p) then
      some { c with threads := update c.threads i (some p) }
    else none
  | .step i =>
    match c.threads i with
    | none => none
    | some p =>
      if ok c (.step i) then
        some ⟨(next c.shared p).1, update c.threads i (next c.shared p).2⟩
      else none

/-- The configuration after a list of events. -/
def exec (c : Config σ π) (events : List (Event π)) : Option (Config σ π) :=
  events.foldlM (execEvent starts ok next) c

variable {starts ok next} {Starts : π → Prop} {Ok : Config σ π → Event π → Prop}

lemma scheduled_of_execEvent (hsta : ∀ p, starts p = true → Starts p)
    (hok : ∀ c e, ok c e = true → Ok c e) {c c' : Config σ π} {e : Event π}
    (h : execEvent starts ok next c e = some c') : Scheduled Ok Starts (stepOf next) c e c' := by
  cases e with
  | spawn i p =>
    rw [execEvent, ite_none_right_eq_some, Bool.and_eq_true, Bool.and_eq_true,
      isNone_iff_eq_none, some_inj] at h
    obtain ⟨⟨⟨hno, hp⟩, ha⟩, rfl⟩ := h
    exact ⟨hok _ _ ha, hno, hsta p hp, rfl⟩
  | step i =>
    rw [execEvent] at h
    cases hp : c.threads i with
    | none =>
      rw [hp] at h
      cases h
    | some p =>
      rw [hp] at h
      dsimp only at h
      rw [ite_none_right_eq_some, some_inj] at h
      obtain ⟨ha, rfl⟩ := h
      exact ⟨hok _ _ ha, p, _, _, hp, rfl, rfl⟩

/-- What is executed is a run. -/
theorem run_of_exec (hsta : ∀ p, starts p = true → Starts p)
    (hok : ∀ c e, ok c e = true → Ok c e) (h : exec starts ok next c₀ events = some c) :
    Run (Scheduled Ok Starts (stepOf next)) c₀ events c := by
  induction events using List.reverseRecOn generalizing c with
  | nil =>
    cases h
    exact .start
  | append_singleton events e ih =>
    rw [exec, List.foldlM_append] at h
    obtain ⟨c₁, h₁, h₂⟩ := bind_eq_some_iff.mp h
    refine (ih h₁).next (scheduled_of_execEvent hsta hok ?_)
    simpa using h₂

variable (hsta : ∀ p, starts p = true → Starts p) (hok : ∀ c e, ok c e = true → Ok c e)
  {P Q : Config σ π → Prop} [DecidablePred P] [DecidablePred Q]
include hsta hok

/-- What has been computed of the configuration after a list of events. -/
theorem exists_run_of_exec (h : (exec starts ok next c₀ events).any (fun c => P c) = true) :
    ∃ c, Run (Scheduled Ok Starts (stepOf next)) c₀ events c ∧ P c := by
  obtain ⟨c, hc, hP⟩ := (any_eq_true _ _).mp h
  exact ⟨c, run_of_exec hsta hok hc, of_decide_eq_true hP⟩

theorem exists_step_of_exec {e : Event π} (h : (exec starts ok next c₀ events).any (fun c =>
      P c ∧ (execEvent starts ok next c e).any (fun c' => Q c')) = true) :
    ∃ c c', Run (Scheduled Ok Starts (stepOf next)) c₀ events c ∧
      Step Starts (stepOf next) c e c' ∧ P c ∧ Q c' := by
  obtain ⟨c, hrun, hP, ha⟩ := exists_run_of_exec hsta hok h
  obtain ⟨c', hc', hQ⟩ := (any_eq_true _ _).mp ha
  exact ⟨c, c', hrun, (scheduled_of_execEvent hsta hok hc').2, hP, of_decide_eq_true hQ⟩

end

/-- Only thread 0 may be running. -/
def Solo (c : Config σ π) : Prop := ∀ j ≠ 0, c.threads j = none

lemma Solo.thread_eq (h : Solo c) {j : ℕ} {q : π} (h₀ : c.threads 0 = some p)
    (hj : c.threads j = some q) : q = p := by
  by_cases hne : j = 0
  · exact Option.some.inj ((hne ▸ hj).symm.trans h₀)
  · rw [h j hne] at hj
    cases hj

lemma run_solo (hok : ∀ c e, ok c e → e.thread = 0)
    (h : Run (Scheduled ok starts threadStep) (idle s₀) events c) :
    Run (fun c e c' => Solo c ∧ Scheduled ok starts threadStep c e c') (idle s₀) events c := by
  refine h.with_invariant ?_ fun _ _ => rfl
  rintro c e c' ⟨ha, hs⟩ hso j hj
  rw [← hso j hj]
  exact threads_of_step hs (by rwa [hok c e ha])

/-! ## Calls without interference -/

/-- A thread that runs from `p` to its end while no other moves. -/
inductive Alone (threadStep : σ → π → σ → Option π → Prop) : σ → π → σ → Prop
  | last {s s' : σ} {p : π} (h : threadStep s p s' none) : Alone threadStep s p s'
  | more {s s₁ s' : σ} {p q : π} (h : threadStep s p s₁ (some q))
    (hrest : Alone threadStep s₁ q s') : Alone threadStep s p s'

lemma spawn_only (hp : starts p) :
    Step starts threadStep (idle s) (.spawn 0 p)
      ⟨s, update (fun _ => none) 0 (some p)⟩ :=
  ⟨rfl, hp, rfl⟩

lemma step_only {s' : σ} {q : π} (h : threadStep s p s' (some q)) :
    Step starts threadStep ⟨s, update (fun _ => none) 0 (some p)⟩ (.step 0)
      ⟨s', update (fun _ => none) 0 (some q)⟩ := by
  refine ⟨p, s', some q, by simp, h, ?_⟩
  rw [update_idem]

lemma exists_run_of_alone {s' : σ} (h : Alone threadStep s p s') :
    ∀ {events : List (Event π)},
      Run (Step starts threadStep) c₀ events ⟨s, update (fun _ => none) 0 (some p)⟩ →
      ∃ events', Run (Step starts threadStep) c₀ events' (idle s') := by
  induction h with
  | @last s s' p h =>
    intro events hrun
    have hste : Step starts threadStep ⟨s, update (fun _ => none) 0 (some p)⟩ (.step 0)
        (idle s') := by
      refine ⟨p, s', none, by simp, h, ?_⟩
      rw [update_idem, update_eq_self_iff.mpr rfl]
      rfl
    exact ⟨_, hrun.next hste⟩
  | @more s s₁ s' p q h _ ih =>
    intro events hrun
    exact ih (hrun.next (step_only h))

lemma exists_run_call {s' : σ} (hrun : Run (Step starts threadStep) c₀ events (idle s))
    (hp : starts p) (h : Alone threadStep s p s') :
    ∃ events', Run (Step starts threadStep) c₀ events' (idle s') :=
  exists_run_of_alone h (hrun.next (spawn_only hp))

end Interleaving
