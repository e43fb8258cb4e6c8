import LoadBalancer.Lib.Probing

/-!
# The loops that fill a table, and who gets how much

`Probing` bounds its loops.  Here are the loops without a bound, as relations between the state in
which a loop is entered and the one in which it is left: `Walks` is the search for a free slot,
`Claims` a turn, `TakesTurns` the turns of a list, which may end early, and `Fills` all of it.  A
loop that does not end relates its state to nothing.

The owners of a finished table are counted by turns: if a claimant has `w` of the `W` turns of a
round, then it gets `w` slots for each of the `size / W` whole rounds, and at most `w` more
(`share_bounds`).
-/

namespace Probing

open List

variable {ι : Type*} [DecidableEq ι]

/-! ## The loops -/

/-- The search for a free slot, entered at place `next` of the walk, ends at `stop`. -/
inductive Walks (walk : ℕ → ℕ) (entries : List (Option ι)) : (next stop : ℕ) → Prop
  | stop {next : ℕ} : taken entries (walk next) = false → Walks walk entries next next
  | pass {next stop : ℕ} : taken entries (walk next) = true → Walks walk entries (next + 1) stop →
      Walks walk entries next stop

inductive Claims (slot : ι → ℕ → ℕ) (i : ι) (s : Filling ι) : Filling ι → Prop
  | take {stop : ℕ} : Walks (slot i) s.entries (s.next i) stop →
      Claims slot i s ⟨Function.update s.next i (stop + 1), s.entries.set (slot i stop) (some i),
        s.filled + 1⟩

/-- The turns of a list; `full` is whether they end early because the table is full. -/
inductive TakesTurns (slot : ι → ℕ → ℕ) (size : ℕ) :
    List ι → Filling ι → Filling ι → (full : Bool) → Prop
  | done {s : Filling ι} : TakesTurns slot size [] s s false
  | full {i : ι} {turns : List ι} {s s' : Filling ι} : Claims slot i s s' → s'.filled = size →
      TakesTurns slot size (i :: turns) s s' true
  | next {i : ι} {turns : List ι} {s s' s'' : Filling ι} {full : Bool} : Claims slot i s s' →
      s'.filled ≠ size → TakesTurns slot size turns s' s'' full →
      TakesTurns slot size (i :: turns) s s'' full

/-- The list of turns again and again, until the table is full. -/
inductive Fills (slot : ι → ℕ → ℕ) (size : ℕ) (turns : List ι) : Filling ι → Filling ι → Prop
  | last {s s' : Filling ι} : TakesTurns slot size turns s s' true → Fills slot size turns s s'
  | again {s s' s'' : Filling ι} : TakesTurns slot size turns s s' false →
      Fills slot size turns s' s'' → Fills slot size turns s s''

section

variable {slot : ι → ℕ → ℕ} {size : ℕ} {turns : List ι} {s : Filling ι}

omit [DecidableEq ι] in
lemma Walks.unique {walk : ℕ → ℕ} {entries : List (Option ι)} {next stop stop' : ℕ}
    (h : Walks walk entries next stop) (h' : Walks walk entries next stop') : stop = stop' := by
  induction h with
  | stop hf =>
    cases h' with
    | stop _ => rfl
    | pass ht _ => simp [hf] at ht
  | pass ht _ ih =>
    cases h' with
    | stop hf => simp [ht] at hf
    | pass _ h' => exact ih h'

variable {s'' s' : Filling ι}

lemma Claims.unique {i : ι} (h : Claims slot i s s') (h' : Claims slot i s s'') : s' = s'' := by
  obtain ⟨hw⟩ := h
  obtain ⟨hw'⟩ := h'
  rw [hw.unique hw']

lemma TakesTurns.unique {full full' : Bool} (h : TakesTurns slot size turns s s' full)
    (h' : TakesTurns slot size turns s s'' full') : s' = s'' ∧ full = full' := by
  induction h with
  | done =>
    cases h'
    exact ⟨rfl, rfl⟩
  | full hc hf =>
    cases h' with
    | full hc' _ => exact ⟨hc.unique hc', rfl⟩
    | next hc' hr _ => exact absurd (hc.unique hc' ▸ hf) hr
  | next hc hr _ ih =>
    cases h' with
    | full hc' hf => exact absurd (hc.unique hc' ▸ hf) hr
    | next hc' _ hre => exact ih (hc.unique hc' ▸ hre)

lemma Fills.unique (h : Fills slot size turns s s') (h' : Fills slot size turns s s'') :
    s' = s'' := by
  induction h with
  | last ht =>
    cases h' with
    | last ht' => exact (ht.unique ht').1
    | again ht' _ => exact absurd (ht.unique ht').2 (by decide)
  | again ht _ ih =>
    cases h' with
    | last ht' => exact absurd (ht.unique ht').2 (by decide)
    | again ht' hr => exact ih ((ht.unique ht').1 ▸ hr)

end

/-! ## Their outcome -/

omit [DecidableEq ι] in
lemma walks_probe (walk : ℕ → ℕ) (entries : List (Option ι)) : ∀ (fuel next : ℕ),
    (∃ k < fuel, taken entries (walk (next + k)) = false) →
      Walks walk entries next (probe walk entries fuel next)
  | 0, _, ⟨_, hk, _⟩ => absurd hk (Nat.not_lt_zero _)
  | fuel + 1, next, ⟨k, hk, hf⟩ => by
    unfold probe
    split_ifs with ht
    · refine .pass ht (walks_probe walk entries fuel (next + 1) ?_)
      cases k with
      | zero => simp [ht] at hf
      | succ k => exact ⟨k, by omega, by rwa [Nat.add_right_comm, Nat.add_assoc]⟩
    · exact .stop (Bool.eq_false_of_not_eq_true ht)

omit [DecidableEq ι] in
variable {entries : List (Option ι)}

lemma Walks.free {walk : ℕ → ℕ} {next stop : ℕ} (h : Walks walk entries next stop) :
    taken entries (walk stop) = false := by
  induction h with
  | stop hf => exact hf
  | pass _ _ ih => exact ih

omit [DecidableEq ι] in
lemma Walks.le_of_free {walk : ℕ → ℕ} {next stop k : ℕ} (h : Walks walk entries next stop)
    (hle : next ≤ k) (hf : taken entries (walk k) = false) : stop ≤ k := by
  induction h with
  | stop _ => exact hle
  | @pass next _ ht _ ih =>
    have hne : next ≠ k := by
      rintro rfl
      simp [ht] at hf
    exact ih (by omega)

section

variable {slot : ι → ℕ → ℕ} {size : ℕ} {turns done : List ι} {s : Filling ι}

omit [DecidableEq ι] in
lemma Filled.walks (h : Filled slot size done s) (hlt : done.length < size) {i : ι}
    (hco : Covers (slot i) size) :
    Walks (slot i) s.entries (s.next i) (probe (slot i) s.entries size (s.next i)) ∧
      probe (slot i) s.entries size (s.next i) < size := by
  obtain ⟨k, hk, hle, hf⟩ := h.exists_ahead hlt hco
  have hw := walks_probe (slot i) s.entries size (s.next i)
    ⟨k - s.next i, by omega, by rwa [Nat.add_sub_of_le hle]⟩
  exact ⟨hw, (hw.le_of_free hle hf).trans_lt hk⟩

variable (hco : ∀ i ∈ turns, Covers (slot i) size)

include hco

lemma Filled.takesTurns (h : Filled slot size done s) (hlt : done.length < size) :
    TakesTurns slot size turns s (Probing.fillTurns slot size turns s)
      (decide ((Probing.fillTurns slot size turns s).filled = size)) := by
  induction turns generalizing done s with
  | nil =>
    have hr : s.filled ≠ size := by
      rw [h.filled_eq]
      exact hlt.ne
    have hd : TakesTurns slot size [] s s false := .done
    simpa [Probing.fillTurns, hr] using hd
  | cons i turns ih =>
    rw [forall_mem_cons] at hco
    have hc : Claims slot i s (Probing.claim slot size s i) := .take (h.walks hlt hco.1).1
    have hn := h.claim hlt hco.1
    have hle := hn.filled_eq
    rw [Probing.fillTurns]
    split_ifs with hf
    · have hl : TakesTurns slot size (i :: turns) s (Probing.claim slot size s i) true :=
        .full hc hf
      simpa [hf] using hl
    · refine .next hc hf (ih hco.2 hn (lt_of_le_of_ne ?_ (hle ▸ hf)))
      rw [length_append, length_singleton]
      omega

lemma Filled.fills (rounds : ℕ) (h : Filled slot size done s) (hlt : done.length < size)
    (hr : size ≤ done.length + rounds * turns.length) :
    Fills slot size turns s (Probing.fillRounds slot size turns rounds s) := by
  induction rounds generalizing done s with
  | zero => omega
  | succ rounds ih =>
    have ht := h.takesTurns hco hlt
    have hf := h.fillTurns hco hlt
    have hl := hf.filled_eq
    rw [length_append, length_take] at hl
    rw [Probing.fillRounds]
    split_ifs with hfu
    · exact .last (by simpa [hfu] using ht)
    · refine .again (by simpa [hfu] using ht) (ih hf ?_ ?_)
      · rw [length_append, length_take]
        omega
      · rw [length_append, length_take]
        rw [Nat.add_mul, Nat.one_mul] at hr
        omega

/-- **The loops end**, and with the table that the bounded functions compute. -/
theorem fills_iff (ht : turns ≠ []) (hs : 0 < size) :
    Fills slot size turns (.start size) s ↔
      s = Probing.fillRounds slot size turns size (.start size) := by
  have hf := Filled.start.fills (s := .start size) hco size hs
    (by simpa using Nat.le_mul_of_pos_right size (length_pos_of_ne_nil ht))
  exact ⟨fun h => h.unique hf, fun h => h ▸ hf⟩

/-! ## Shares -/

/-- The slots of each claimant, and how far it has walked. -/
structure Owned (size : ℕ) (turns : List ι) (s : Filling ι) : Prop where
  count_eq : ∀ i, s.entries.count (some i) = turns.count i
  next_le : ∀ i, s.next i ≤ size

omit hco

lemma Owned.start : Owned size ([] : List ι) (.start size) where
  count_eq i := by simp [Filling.start, count_replicate]
  next_le _ := Nat.zero_le _

lemma Owned.claim (ho : Owned size done s) (h : Filled slot size done s)
    (hlt : done.length < size) {i : ι} (hco : Covers (slot i) size) :
    Owned size (done ++ [i]) (Probing.claim slot size s i) := by
  obtain ⟨hw, hs⟩ := h.walks hlt hco
  have hf := hw.free
  have ht : slot i (probe (slot i) s.entries size (s.next i)) < s.entries.length := by
    rw [h.length_eq]
    exact hco.lt _
  refine ⟨fun j => ?_, fun j => ?_⟩
  · rw [Probing.claim, count_set ht, getElem_of_not_taken ht hf, ho.count_eq,
      count_append, count_singleton]
    simp
  · simp only [Probing.claim, Function.update_apply]
    split_ifs
    · exact hs
    · exact ho.next_le j

include hco

lemma owned_fillRounds (hs : 0 < size) :
    Owned size ((List.replicate size turns).flatten.take size)
      (Probing.fillRounds slot size turns size (.start size)) := by
  have h := fillRounds_induction (I := fun done s => Filled slot size done s ∧ Owned size done s)
    (fun _ _ h => h.1.filled_eq)
    (fun _ _ i hi h hlt => ⟨h.1.claim hlt (hco i hi), h.2.claim h.1 hlt (hco i hi)⟩) size
    ⟨Filled.start, Owned.start⟩ hs
  simpa using h.2

end

lemma count_take_repeated (turns : List ι) (m q r : ℕ) (hr : r ≤ turns.length) (i : ι) :
    q * turns.count i
        ≤ ((List.replicate (q + m) turns).flatten.take (q * turns.length + r)).count i ∧
      ((List.replicate (q + m) turns).flatten.take (q * turns.length + r)).count i
        ≤ (q + 1) * turns.count i := by
  have hl : (List.replicate q turns).flatten.length = q * turns.length := by simp
  have hc : (List.replicate q turns).flatten.count i = q * turns.count i := by
    simp [count_flatten]
  have hre : ((List.replicate m turns).flatten.take r).count i ≤ turns.count i := by
    cases m with
    | zero => simp
    | succ m =>
      rw [replicate_succ, flatten_cons, take_append_of_le_length hr]
      exact (take_sublist r turns).count_le i
  rw [replicate_add, flatten_append, ← hl, take_length_add_append, count_append, hc]
  constructor
  · omega
  · rw [Nat.add_mul, Nat.one_mul]
    omega

/-- **Shares.**  Everyone gets their turns of all whole rounds, and at most those of one more. -/
theorem share_bounds {slot : ι → ℕ → ℕ} {size : ℕ} {turns : List ι}
    (hco : ∀ i ∈ turns, Covers (slot i) size) (ht : turns ≠ []) (hs : 0 < size) (i : ι) :
    size / turns.length * turns.count i
        ≤ (fillRounds slot size turns size (.start size)).entries.count (some i) ∧
      (fillRounds slot size turns size (.start size)).entries.count (some i)
        ≤ (size / turns.length + 1) * turns.count i := by
  have hle : size / turns.length ≤ size := Nat.div_le_self ..
  have hr : size % turns.length ≤ turns.length := (Nat.mod_lt _ (length_pos_of_ne_nil ht)).le
  have hb := count_take_repeated turns (size - size / turns.length) (size / turns.length)
    (size % turns.length) hr i
  rw [Nat.add_sub_of_le hle, Nat.mul_comm _ turns.length, Nat.div_add_mod] at hb
  rw [(owned_fillRounds hco hs).count_eq]
  exact hb

end Probing
