import Mathlib.Data.List.Sort
import Mathlib.Data.List.Destutter
import Mathlib.Data.List.TakeWhile

/-!
# Texts

Texts as lists of characters that are put together with separators, and what can be read back from
them.  A separator that does not occur in a field ends it; one that does can be taken for the end of
the field.
-/

namespace Text

open List

variable {α : Type*}

/-! ## Two fields -/

variable {a : α} {text field : List α} {fields : List (List α)}

/-- Two texts of two fields each are equal if the fields are, or if the second field of one holds a
part of the other's first field. -/
lemma append_cons_eq_iff {x y z w : List α} :
    x ++ a :: z = y ++ a :: w ↔
      (x = y ∧ z = w) ∨ (∃ u, y = x ++ a :: u ∧ z = u ++ a :: w) ∨
        ∃ u, x = y ++ a :: u ∧ w = u ++ a :: z := by
  rw [append_eq_append_iff]
  constructor
  · rintro (⟨u, hy, hz⟩ | ⟨u, hx, hw⟩)
    · cases u with
      | nil => exact Or.inl ⟨by simpa using hy.symm, by simpa using hz⟩
      | cons b u =>
        obtain ⟨rfl, hr⟩ := List.cons.inj hz
        exact Or.inr (Or.inl ⟨u, hy, hr⟩)
    · cases u with
      | nil => exact Or.inl ⟨by simpa using hx, by simpa using hw.symm⟩
      | cons b u =>
        obtain ⟨rfl, hr⟩ := List.cons.inj hw
        exact Or.inr (Or.inr ⟨u, hx, hr⟩)
  · rintro (⟨rfl, rfl⟩ | ⟨u, rfl, rfl⟩ | ⟨u, rfl, rfl⟩)
    · exact Or.inl ⟨[], by simp⟩
    · exact Or.inl ⟨a :: u, by simp⟩
    · exact Or.inr ⟨a :: u, by simp⟩

lemma append_cons_inj {x y z w : List α} (hx : a ∉ x) (hy : a ∉ y) :
    x ++ a :: z = y ++ a :: w ↔ x = y ∧ z = w := by
  rw [append_cons_eq_iff, or_iff_left]
  rintro (⟨u, rfl, -⟩ | ⟨u, rfl, -⟩)
  · exact hy (by simp)
  · exact hx (by simp)

lemma takeWhile_field [DecidableEq α] {rest : List α} (h : a ∉ field) :
    (field ++ a :: rest).takeWhile (· ≠ a) = field := by
  rw [takeWhile_append_of_pos fun c hc => decide_eq_true (ne_of_mem_of_not_mem hc h)]
  simp

lemma dropWhile_field [DecidableEq α] {rest : List α} (h : a ∉ field) :
    (field ++ a :: rest).dropWhile (· ≠ a) = a :: rest := by
  rw [dropWhile_append_of_pos fun c hc => decide_eq_true (ne_of_mem_of_not_mem hc h)]
  simp

def splitOnce [DecidableEq α] (a : α) (text : List α) : Option (List α × List α) :=
  match text.dropWhile (· ≠ a) with
  | [] => none
  | _ :: rest => some (text.takeWhile (· ≠ a), rest)

lemma splitOnce_field [DecidableEq α] (h : a ∉ field) (rest : List α) :
    splitOnce a (field ++ a :: rest) = some (field, rest) := by
  unfold splitOnce
  rw [dropWhile_field h, takeWhile_field h]

lemma splitOnce_of_notMem [DecidableEq α] (h : a ∉ text) : splitOnce a text = none := by
  have hn : text.dropWhile (· ≠ a) = [] :=
    dropWhile_eq_nil_iff.mpr fun c hc => decide_eq_true (ne_of_mem_of_not_mem hc h)
  unfold splitOnce
  rw [hn]

/-! ## Any number of fields -/

lemma notMem_of_mem_splitOn [DecidableEq α] (h : field ∈ text.splitOn a) : a ∉ field := by
  rw [List.splitOn] at h
  induction text generalizing field with
  | nil =>
    rw [splitOnP_nil, mem_singleton] at h
    simp [h]
  | cons b text ih =>
    rw [splitOnP_cons_eq_if_modifyHead] at h
    split_ifs at h with hb
    · rcases mem_cons.mp h with rfl | h
      · simp
      · exact ih h
    · cases hr : List.splitOnP (· == a) text with
      | nil =>
        rw [hr] at h
        cases h
      | cons first rest =>
        rw [hr, modifyHead_cons] at h
        rcases mem_cons.mp h with rfl | h
        · have hf := ih (by rw [hr]; exact mem_cons_self)
          have hne : a ≠ b := fun hab => hb (by simp [hab])
          simp [hne, hf]
        · exact ih (by rw [hr]; exact mem_cons_of_mem _ h)

lemma mem_of_mem_intercalate {b : α} (h : b ∈ [a].intercalate fields) :
    b = a ∨ ∃ field ∈ fields, b ∈ field := by
  induction fields with
  | nil => simp [List.intercalate] at h
  | cons first fields ih =>
    cases fields with
    | nil => exact Or.inr ⟨first, by simp, by simpa [List.intercalate] using h⟩
    | cons second fields =>
      rw [intercalate_cons_cons, mem_append, mem_append, mem_singleton] at h
      rcases h with (h | h) | h
      · exact Or.inr ⟨first, by simp, h⟩
      · exact Or.inl h
      · rcases ih h with h | ⟨field, hf, h⟩
        · exact Or.inl h
        · exact Or.inr ⟨field, mem_cons_of_mem _ hf, h⟩

lemma mem_intercalate_of_mem {b : α} : ∀ {fields : List (List α)},
    field ∈ fields → b ∈ field → b ∈ [a].intercalate fields
  | [only], hf, hb => by
      obtain rfl := mem_singleton.mp hf
      simpa [List.intercalate] using hb
  | first :: second :: fields, hf, hb => by
      rw [intercalate_cons_cons, mem_append]
      rcases mem_cons.mp hf with rfl | hf
      · exact Or.inl (mem_append_left _ hb)
      · exact Or.inr (mem_intercalate_of_mem hf hb)

lemma mem_of_mem_splitOn [DecidableEq α] {b : α} (hf : field ∈ text.splitOn a)
    (hb : b ∈ field) :
    b ∈ text := by
  have hj : [a].intercalate (text.splitOn a) = text := intercalate_splitOn a
  rw [← hj]
  exact mem_intercalate_of_mem hf hb

lemma splitOn_injective [DecidableEq α] (a : α) : Function.Injective (List.splitOn a) := by
  intro text text' h
  have hj : ∀ text : List α, [a].intercalate (text.splitOn a) = text := fun _ =>
    intercalate_splitOn a
  rw [← hj text, h, hj]

/-- The first fields of a text are those of the texts it begins with, up to a separator. -/
lemma firstFields_iff [DecidableEq α] {start : List α} :
    start.splitOn a <+: text.splitOn a ↔ text = start ∨ (start ++ [a]) <+: text := by
  constructor
  · rintro ⟨more, hm⟩
    by_cases hn : more = []
    · rw [hn, append_nil] at hm
      exact Or.inl (splitOn_injective a hm.symm)
    · have hfr : ∀ field ∈ more, a ∉ field := fun field hf =>
        notMem_of_mem_splitOn (hm ▸ mem_append_right _ hf)
      have ht : text = start ++ a :: [a].intercalate more := by
        refine splitOn_injective a ?_
        rw [splitOn_append_cons_self, splitOn_intercalate a hfr hn, hm]
      exact Or.inr ⟨[a].intercalate more, by simp [ht]⟩
  · rintro (rfl | ⟨more, rfl⟩)
    · exact prefix_refl _
    · rw [append_assoc, singleton_append, splitOn_append_cons_self]
      exact prefix_append _ _

/-- The last field is empty at the end of a text that is empty or ends in a separator. -/
lemma getLast?_splitOn_eq_nil_iff [DecidableEq α] :
    (text.splitOn a).getLast? = some [] ↔ text = [] ∨ ∃ front, text = front ++ [a] := by
  constructor
  · intro h
    obtain ⟨fields, hf⟩ := List.getLast?_eq_some_iff.mp h
    by_cases hn : fields = []
    · rw [hn, nil_append] at hf
      exact Or.inl (splitOn_injective a (hf.trans (splitOn_nil a).symm))
    · have hfr : ∀ field ∈ fields, a ∉ field := fun field hfi =>
        notMem_of_mem_splitOn (hf ▸ mem_append_left _ hfi)
      refine Or.inr ⟨[a].intercalate fields, splitOn_injective a ?_⟩
      rw [splitOn_append_cons_self, splitOn_intercalate a hfr hn, hf, splitOn_nil]
  · rintro (rfl | ⟨front, rfl⟩)
    · simp
    · rw [splitOn_append_cons_self, splitOn_nil, List.getLast?_concat]

lemma intercalate_cons (first : List α) (fields : List (List α)) :
    [a].intercalate (first :: fields) = first ++ fields.flatMap (a :: ·) := by
  induction fields generalizing first with
  | nil => simp [List.intercalate]
  | cons second fields ih =>
    rw [intercalate_cons_cons, ih, flatMap_cons]
    simp

/-- Texts that are joined with the separator are split where each of them is. -/
lemma splitOn_intercalate_lines [DecidableEq α] {lines : List (List α)} (h : lines ≠ []) :
    ([a].intercalate lines).splitOn a = lines.flatMap (List.splitOn a) := by
  induction lines with
  | nil => exact absurd rfl h
  | cons first lines ih =>
    cases lines with
    | nil => simp [List.intercalate]
    | cons second lines =>
      rw [intercalate_cons_cons, append_assoc, singleton_append,
        splitOn_append_cons_self, ih (by simp)]
      rfl

lemma intercalate_inj [DecidableEq α] {fields' : List (List α)} (h : ∀ x ∈ fields, x ≠ [] ∧ a ∉ x)
    (h' : ∀ x ∈ fields', x ≠ [] ∧ a ∉ x) (heq : [a].intercalate fields = [a].intercalate fields') :
    fields = fields' := by
  have hr : ∀ {l : List (List α)}, (∀ x ∈ l, x ≠ [] ∧ a ∉ x) →
      l = (([a].intercalate l).splitOn a).filter (· ≠ []) := by
    intro l hl
    by_cases he : l = []
    · subst he
      simp [List.intercalate]
    · rw [splitOn_intercalate a (fun x hx => (hl x hx).2) he, eq_comm, filter_eq_self]
      intro x hx
      simpa using (hl x hx).1
  rw [hr h, hr h', heq]

def distinct [LinearOrder α] (fields : List α) : List α :=
  (fields.insertionSort (· ≤ ·)).destutter (· ≠ ·)

section

variable [LinearOrder α]

lemma distinct_eq_dedup (fields : List α) :
    distinct fields = (fields.insertionSort (· ≤ ·)).dedup :=
  (pairwise_insertionSort (· ≤ ·) fields).destutter_eq_dedup

lemma mem_distinct {fields : List α} {x : α} : x ∈ distinct fields ↔ x ∈ fields := by
  rw [distinct_eq_dedup, mem_dedup, mem_insertionSort]

lemma sortedLT_distinct (fields : List α) : (distinct fields).SortedLT := by
  rw [distinct_eq_dedup, sortedLT_iff_nodup_and_sortedLE]
  refine ⟨nodup_dedup _, List.Pairwise.sortedLE ?_⟩
  exact (pairwise_insertionSort (· ≤ ·) fields).sublist (dedup_sublist _)

lemma distinct_eq_iff {fields fields' : List α} :
    distinct fields = distinct fields' ↔ ∀ x, x ∈ fields ↔ x ∈ fields' := by
  constructor
  · intro h x
    rw [← mem_distinct, h, mem_distinct]
  · intro h
    refine (sortedLT_distinct fields).eq_of_mem_iff (sortedLT_distinct fields') fun x => ?_
    rw [mem_distinct, h, mem_distinct]

end

/-! ## Numbers -/

/-- A number below the bound in decimal digits, with a plus sign or without. -/
def parseUnsigned (bound : ℕ) (text : List Char) : Option ℕ :=
  let digits := if text.head? = some '+' then text.tail else text
  if digits ≠ [] ∧ digits.all Char.isDigit ∧ Nat.ofDigitChars 10 digits 0 < bound then
    some (Nat.ofDigitChars 10 digits 0)
  else none

end Text
