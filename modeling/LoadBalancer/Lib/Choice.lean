import Mathlib

/-!
# Choosing one of several

`Chooses P r` says what any rule for choosing among the elements with `P` owes its caller: the
answer is one of them, and there is no answer only if there is none of them.

`StableChoice` is about one rule under different sets of allowed elements: taking elements away
changes the choice only if the chosen element was taken away.  A search along a fixed list and the
greatest element of a filtered list are both stable, ties included.
-/

variable {α β : Type*}

/-- The answer is one of the elements with `P`, and is missing only if there is none. -/
structure Chooses (P : α → Prop) (r : Option α) : Prop where
  sound : ∀ x, r = some x → P x
  none_iff : r = none ↔ ∀ x, ¬ P x

namespace Chooses

open List Option

variable {P Q : α → Prop} {r : Option α}

lemma some {x : α} (hx : P x) : Chooses P (some x) where
  sound y hy := by
    rw [some_inj] at hy
    exact hy ▸ hx
  none_iff := iff_of_false (some_ne_none x) fun h => h x hx

lemma none (h : ∀ x, ¬ P x) : Chooses P none where
  sound _ hy := by cases hy
  none_iff := iff_of_true rfl h

lemma of_ne_none (hs : ∀ x, r = Option.some x → P x) (hne : (∃ x, P x) → r ≠ Option.none) :
    Chooses P r where
  sound := hs
  none_iff := by
    refine ⟨fun hn x hx => hne ⟨x, hx⟩ hn, fun h => ?_⟩
    cases r with
    | none => rfl
    | some x => exact absurd (hs x rfl) (h x)

lemma congr (h : Chooses P r) (hiff : ∀ x, P x ↔ Q x) : Chooses Q r where
  sound x hx := (hiff x).mp (h.sound x hx)
  none_iff := h.none_iff.trans (forall_congr' fun x => not_congr (hiff x))

lemma map (h : Chooses P r) (f : α → β) : Chooses (fun y => ∃ x, P x ∧ f x = y) (r.map f) where
  sound y hy := by
    obtain ⟨x, hx, rfl⟩ := map_eq_some_iff.mp hy
    exact ⟨x, h.sound x hx, rfl⟩
  none_iff := by
    rw [map_eq_none_iff, h.none_iff]
    constructor
    · rintro hno y ⟨x, hx, -⟩
      exact hno x hx
    · exact fun hno x hx => hno (f x) ⟨x, hx, rfl⟩

/-! ## Rules -/

lemma getElem?_of_lt {l : List α} {i : ℕ} (hi : l ≠ [] → i < l.length) :
    Chooses (fun x => x ∈ l) l[i]? := by
  refine of_ne_none (fun x hx => mem_of_getElem? hx) ?_
  rintro ⟨x, hx⟩
  rw [ne_eq, List.getElem?_eq_none_iff, not_le]
  exact hi (ne_nil_of_mem hx)

lemma getElem?_mod (l : List α) (i : ℕ) : Chooses (fun x => x ∈ l) l[i % l.length]? :=
  getElem?_of_lt fun hne => Nat.mod_lt i (length_pos_of_ne_nil hne)

lemma getLast? (l : List α) : Chooses (fun x => x ∈ l) l.getLast? where
  sound _ hx := mem_of_getLast? hx
  none_iff := by rw [List.getLast?_eq_none_iff, eq_nil_iff_forall_not_mem]

lemma winner {l : List α} {i j : ℕ} (hi : i < l.length) (hj : j < l.length) (better : α → α → α)
    (hb : ∀ a b, better a b = a ∨ better a b = b) :
    Chooses (fun x => x ∈ l)
      (l[i]?.bind fun a => l[j]?.bind fun b => Option.some (better a b)) := by
  rw [List.getElem?_eq_getElem hi, List.getElem?_eq_getElem hj, bind_some, bind_some]
  refine .some ?_
  rcases hb l[i] l[j] with h | h <;> rw [h]
  · exact getElem_mem hi
  · exact getElem_mem hj

lemma find? (p : α → Bool) (l : List α) :
    Chooses (fun x => x ∈ l ∧ p x = true) (l.find? p) where
  sound _ hx := ⟨mem_of_find?_eq_some hx, List.find?_some hx⟩
  none_iff := by
    rw [List.find?_eq_none]
    exact forall_congr' fun x => not_and.symm

section

variable [LinearOrder β] (f : α → β) (l : List α)

lemma argmax : Chooses (fun x => x ∈ l) (l.argmax f) where
  sound _ hx := List.argmax_mem hx
  none_iff := by rw [List.argmax_eq_none, List.eq_nil_iff_forall_not_mem]

lemma argmin : Chooses (fun x => x ∈ l) (l.argmin f) where
  sound _ hx := argmin_mem hx
  none_iff := by rw [argmin_eq_none, eq_nil_iff_forall_not_mem]

end

end Chooses

/-- Walks a weighted list: each element owns as many numbers as it weighs. -/
def pickByWeight : List (α × ℕ) → ℕ → Option α
  | [], _ => none
  | (x, weight) :: rest, target =>
    if target < weight then some x else pickByWeight rest (target - weight)

lemma mem_of_pickByWeight {x : α} : ∀ {l : List (α × ℕ)} {target : ℕ},
    pickByWeight l target = some x → ∃ weight, (x, weight) ∈ l ∧ 0 < weight
  | (y, weight) :: rest, target, h => by
    unfold pickByWeight at h
    split_ifs at h with hlt
    · rw [Option.some_inj] at h
      exact ⟨weight, h ▸ List.mem_cons_self, Nat.zero_lt_of_lt hlt⟩
    · obtain ⟨w, hm, hp⟩ := mem_of_pickByWeight h
      exact ⟨w, List.mem_cons_of_mem _ hm, hp⟩

lemma pickByWeight_ne_none : ∀ {l : List (α × ℕ)} {target : ℕ},
    target < (l.map fun x => x.2).sum → pickByWeight l target ≠ none
  | [], _, h => absurd h (Nat.not_lt_zero _)
  | (x, weight) :: rest, target, h => by
    rw [List.map_cons, List.sum_cons] at h
    unfold pickByWeight
    split_ifs with hlt
    · exact Option.some_ne_none x
    · exact pickByWeight_ne_none (by omega)

/-- A choice among the elements with `P` serves the wider `Q` exactly when an element with `P`
can be found wherever one with `Q` can. -/
lemma Chooses.wider_iff {P Q : α → Prop} {r : Option α} (h : Chooses P r)
    (hs : ∀ x, P x → Q x) : Chooses Q r ↔ ((∃ x, Q x) → ∃ x, P x) := by
  constructor
  · rintro hQ ⟨x, hx⟩
    by_contra hno
    exact hQ.none_iff.mp (h.none_iff.mpr (not_exists.mp hno)) x hx
  · intro he
    refine .of_ne_none (fun x hx => hs x (h.sound x hx)) fun hQ hn => ?_
    obtain ⟨x, hx⟩ := he hQ
    exact h.none_iff.mp hn x hx

/-! ## Fewer elements to choose from -/

/-- A rule whose choice is allowed, and which changes it only if the chosen element is no longer
allowed. -/
structure StableChoice (choose : (α → Bool) → Option α) : Prop where
  allowed : ∀ {p x}, choose p = some x → p x = true
  contract : ∀ {p q x}, (∀ y, q y = true → p y = true) → choose p = some x → q x = true →
    choose q = some x
  none_of_none : ∀ {p q}, (∀ y, q y = true → p y = true) → choose p = none → choose q = none

namespace StableChoice

variable {choose : (α → Bool) → Option α}

/-- **Only the choices that were taken away change.** -/
lemma ne_iff (h : StableChoice choose) {p q : α → Bool} (hs : ∀ y, q y = true → p y = true) :
    choose q ≠ choose p ↔ ∃ x, choose p = some x ∧ q x = false := by
  cases hp : choose p with
  | none => simp [h.none_of_none hs hp]
  | some x =>
    cases hx : q x with
    | true => simp [h.contract hs hp hx, hx]
    | false =>
      refine iff_of_true (fun heq => ?_) ⟨x, rfl, hx⟩
      rw [h.allowed heq] at hx
      cases hx

lemma find? (l : List α) : StableChoice fun p => l.find? p where
  allowed := List.find?_some
  contract hs hp hq := by
    rw [List.find?_eq_some_iff_append] at hp ⊢
    obtain ⟨-, before, after, rfl, hb⟩ := hp
    refine ⟨hq, before, after, rfl, fun y hy => ?_⟩
    have hno := hb y hy
    rw [Bool.not_eq_true'] at hno ⊢
    by_contra hye
    rw [hs y (by simpa using hye)] at hno
    cases hno
  none_of_none hs hp := by
    rw [List.find?_eq_none] at hp ⊢
    exact fun y hy hye => hp y hy (hs y hye)

/-- A stable rule for pairs or records, read through one of their fields. -/
lemma comap (h : StableChoice choose) (f : α → β) :
    StableChoice fun p => (choose fun x => p (f x)).map f where
  allowed hp := by
    obtain ⟨x, hx, rfl⟩ := Option.map_eq_some_iff.mp hp
    exact h.allowed hx
  contract hs hp hq := by
    obtain ⟨x, hx, rfl⟩ := Option.map_eq_some_iff.mp hp
    rw [h.contract (fun y => hs (f y)) hx hq, Option.map_some]
  none_of_none hs hp := by
    rw [Option.map_eq_none_iff] at hp ⊢
    exact h.none_of_none (fun y => hs (f y)) hp

section

variable [LinearOrder β] {f : α → β}

lemma argmax_filter {q : α → Bool} {x : α} (hx : q x = true) : ∀ {l : List α},
    l.argmax f = some x → (l.filter q).argmax f = some x
  | a :: l, h => by
    rw [List.argmax_cons] at h
    cases hl : l.argmax f with
    | none =>
      obtain rfl : l = [] := List.argmax_eq_none.mp hl
      obtain rfl : a = x := by simpa using h
      rw [List.filter_cons_of_pos hx]
      rfl
    | some c =>
      rw [hl] at h
      dsimp only at h
      split_ifs at h with hlt
      · -- the greatest element is in the rest, and beats `a` where `a` is kept
        rw [Option.some_inj] at h
        subst h
        have ih := argmax_filter hx hl
        cases ha : q a with
        | true => rw [List.filter_cons_of_pos ha, List.argmax_cons, ih]; exact if_pos hlt
        | false => rwa [List.filter_cons_of_neg (by simp [ha])]
      · -- nothing of the rest beats `a`, hence nothing that is kept of it
        rw [Option.some_inj] at h
        subst h
        rw [List.filter_cons_of_pos hx, List.argmax_cons]
        cases hk : (l.filter q).argmax f with
        | none => rfl
        | some d =>
          have hd : d ∈ l := List.mem_of_mem_filter (List.argmax_mem hk)
          exact if_neg fun had => hlt (had.trans_le (List.le_of_mem_argmax hd hl))

lemma argmax (f : α → β) (l : List α) : StableChoice fun p => (l.filter p).argmax f where
  allowed h := (List.mem_filter.mp (List.argmax_mem h)).2
  contract {p q x} hs hp hq := by
    have hk := argmax_filter hq hp
    rwa [List.filter_filter, List.filter_congr fun y _ => ?_] at hk
    cases hy : q y with
    | true => rw [hs y hy, Bool.and_true]
    | false => rw [Bool.false_and]
  none_of_none hs hp := by
    rw [List.argmax_eq_none, List.filter_eq_nil_iff] at hp ⊢
    exact fun y hy hye => hp y hy (hs y hye)

end

end StableChoice
