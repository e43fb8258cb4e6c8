import Mathlib.Algebra.BigOperators.Group.Finset.Basic

/-!
# Runs of a labelled transition system

A system is a relation `step : σ → ε → σ → Prop`: state, event, next state.  An event is one atomic
call together with whatever it returned, so invariants may speak about the list of events.

`Run` grows at its end; its induction is therefore the rule for invariants that relate the state to
the history so far.  `Guarded P step` restricts a system to states that satisfy `P`.
`Run.leaving_out` is the rule for events that make no difference to the others.
-/

/-- `Run step s₀ events s`: the events lead from `s₀` to `s`. -/
inductive Run {σ ε : Type*} (step : σ → ε → σ → Prop) (s₀ : σ) : List ε → σ → Prop
  | start : Run step s₀ [] s₀
  | next {events : List ε} {s s' : σ} {e : ε} :
      Run step s₀ events s → step s e s' → Run step s₀ (events ++ [e]) s'

/-- The steps of a system between states that satisfy `P`. -/
def Guarded {σ ε : Type*} (P : σ → Prop) (step : σ → ε → σ → Prop) (s : σ) (e : ε) (s' : σ) :
    Prop :=
  P s ∧ step s e s' ∧ P s'

namespace Run

variable {σ ε : Type*} {step : σ → ε → σ → Prop} {s₀ s : σ} {events : List ε}

lemma snoc_iff {l : List ε} {e : ε} :
    Run step s₀ (l ++ [e]) s ↔ ∃ s₁, Run step s₀ l s₁ ∧ step s₁ e s := by
  constructor
  · intro h
    generalize hl : l ++ [e] = events at h
    cases h with
    | start => simp at hl
    | next h hs =>
      obtain ⟨rfl, he⟩ := List.append_inj' hl rfl
      obtain rfl := List.singleton_injective he
      exact ⟨_, h, hs⟩
  · rintro ⟨s₁, h, hs⟩
    exact h.next hs

/-- What every step preserves holds at the end of a run. -/
theorem invariant {I : σ → Prop} (hst : ∀ s e s', step s e s' → I s → I s')
    (h : Run step s₀ events s) (h₀ : I s₀) : I s := by
  induction h with
  | start => exact h₀
  | next _ hs ih => exact hst _ _ _ hs ih

/-- A run of a system is a run of every system with more steps. -/
theorem mono {step' : σ → ε → σ → Prop} (hst : ∀ s e s', step s e s' → step' s e s')
    (h : Run step s₀ events s) : Run step' s₀ events s := by
  induction h with
  | start => exact .start
  | next _ hs ih => exact ih.next (hst _ _ _ hs)

/-- An invariant may be assumed of the states the steps of a run start from. -/
theorem with_invariant {I : σ → Prop} (hst : ∀ s e s', step s e s' → I s → I s') (h₀ : I s₀)
    (h : Run step s₀ events s) : Run (fun s e s' => I s ∧ step s e s') s₀ events s := by
  induction h with
  | start => exact .start
  | next hr hs ih => exact ih.next ⟨hr.invariant hst h₀, hs⟩

/-- What all events of a run satisfy may be assumed of its steps. -/
theorem with_events {P : ε → Prop} (h : Run step s₀ events s) (hP : ∀ e ∈ events, P e) :
    Run (fun s e s' => P e ∧ step s e s') s₀ events s := by
  induction h with
  | start => exact .start
  | next _ hs ih =>
    rw [List.forall_mem_append] at hP
    exact (ih hP.1).next ⟨hP.2 _ (List.mem_singleton_self _), hs⟩

/-- A run visits a state before and a state after each of its events. -/
theorem split {l : List ε} {e : ε} {l' : List ε} (h : Run step s₀ (l ++ e :: l') s) :
    ∃ s₁ s₂, Run step s₀ l s₁ ∧ step s₁ e s₂ ∧ Run step s₂ l' s := by
  induction l' using List.reverseRecOn generalizing s with
  | nil =>
    obtain ⟨s₁, h₁, hs⟩ := (snoc_iff (l := l)).mp h
    exact ⟨s₁, s, h₁, hs, .start⟩
  | append_singleton l' f ih =>
    rw [← List.cons_append, ← List.append_assoc] at h
    obtain ⟨s', h', hs'⟩ := snoc_iff.mp h
    obtain ⟨s₁, s₂, h₁, hs, h₂⟩ := ih h'
    exact ⟨s₁, s₂, h₁, hs, h₂.next hs'⟩

lemma append {l l' : List ε} {s₁ : σ} (h : Run step s₀ l s₁) (h' : Run step s₁ l' s) :
    Run step s₀ (l ++ l') s := by
  induction h' with
  | start => rwa [List.append_nil]
  | next _ hs ih =>
    rw [← List.append_assoc]
    exact ih.next hs

/-- **Leaving events out.**  If a system that is given the events of `keep` only can follow each
step, by the same event or by none, then the kept events are a run of it.  `P` is what is assumed
of the events of a run, and with them of the events so far. -/
theorem leaving_out {τ : Type*} {step' : τ → ε → τ → Prop} {t₀ : τ} {keep : ε → Bool}
    {P : List ε → Prop} {R : List ε → σ → τ → Prop} (hP : ∀ l e, P (l ++ [e]) → P l)
    (hst : R [] s₀ t₀)
    (hste : ∀ l s t e s', P (l ++ [e]) → R l s t → step s e s' →
      ∃ t', Run step' t ([e].filter keep) t' ∧ R (l ++ [e]) s' t')
    (h : Run step s₀ events s) (he : P events) :
    ∃ t, Run step' t₀ (events.filter keep) t ∧ R events s t := by
  induction h with
  | start => exact ⟨t₀, .start, hst⟩
  | next _ hs ih =>
    obtain ⟨t, hr, hR⟩ := ih (hP _ _ he)
    obtain ⟨t', hk, hR'⟩ := hste _ _ t _ _ he hR hs
    rw [List.filter_append]
    exact ⟨t', hr.append hk, hR'⟩

end Run

/-- The number of members of a finite set in a list, counted member by member. -/
lemma List.sum_count_eq_length_filter {α : Type*} [DecidableEq α] (S : Finset α) (l : List α) :
    ∑ a ∈ S, l.count a = (l.filter (· ∈ S)).length := by
  have hc := Multiset.sum_count_eq_card (s := S) (m := ↑(l.filter (· ∈ S))) (by simp)
  rw [Multiset.coe_card] at hc
  rw [← hc]
  refine Finset.sum_congr rfl fun a ha => ?_
  rw [Multiset.coe_count, List.count_filter (by simpa using ha)]
