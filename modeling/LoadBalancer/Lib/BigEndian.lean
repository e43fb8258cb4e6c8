import Mathlib

/-!
# Big-endian numbers

Digits of a number to a base, the most significant first, as network formats write them, and the
number that they stand for.  `toBytes` and `ofBytes` are the two for bytes.
-/

namespace BigEndian

open List

/-- The `width` lowest digits of a number. -/
def digits (base : ℕ) : ℕ → ℕ → List ℕ
  | 0, _ => []
  | width + 1, n => digits base width (n / base) ++ [n % base]

/-- The number that has the digits. -/
def value (base : ℕ) (digits : List ℕ) : ℕ := digits.foldl (fun n d => n * base + d) 0

variable {base width n : ℕ}

@[simp]
lemma length_digits : (digits base width n).length = width := by
  induction width generalizing n with
  | zero => rfl
  | succ width ih => simp [digits, ih]

lemma digits_lt (h : 0 < base) : ∀ d ∈ digits base width n, d < base := by
  induction width generalizing n with
  | zero => simp [digits]
  | succ width ih => simpa [digits, or_imp, forall_and] using ⟨ih, Nat.mod_lt n h⟩

lemma value_concat (front : List ℕ) (d : ℕ) :
    value base (front ++ [d]) = value base front * base + d := by
  simp [value]

lemma value_digits (h : n < base ^ width) : value base (digits base width n) = n := by
  induction width generalizing n with
  | zero =>
    rw [pow_zero, Nat.lt_one_iff] at h
    simp [h, digits, value]
  | succ width ih =>
    rw [digits, value_concat, ih (Nat.div_lt_of_lt_mul (by rwa [← pow_succ'])), mul_comm,
      Nat.div_add_mod]

lemma digits_value {ds : List ℕ} (h : ∀ d ∈ ds, d < base) :
    digits base ds.length (value base ds) = ds := by
  induction ds using List.reverseRecOn with
  | nil => rfl
  | append_singleton front d ih =>
    have hd : d < base := h d (by simp)
    rw [length_append, length_singleton, value_concat, digits, mul_comm,
      Nat.mul_add_div (by omega), Nat.div_eq_of_lt hd, add_zero,
      ih fun x hx => h x (mem_append_left _ hx), Nat.mul_add_mod, Nat.mod_eq_of_lt hd]

/-- `to_be_bytes`. -/
def toBytes (width n : ℕ) : List UInt8 := (digits 256 width n).map UInt8.ofNat

/-- `from_be_bytes`. -/
def ofBytes (bytes : List UInt8) : ℕ := value 256 (bytes.map UInt8.toNat)

@[simp]
lemma length_toBytes : (toBytes width n).length = width := by simp [toBytes]

lemma ofBytes_toBytes (h : n < 256 ^ width) : ofBytes (toBytes width n) = n := by
  have hb : ((digits 256 width n).map UInt8.ofNat).map UInt8.toNat = digits 256 width n := by
    rw [map_map, map_congr_left (g := id), map_id]
    exact fun d hd => UInt8.toNat_ofNat_of_lt' (digits_lt (by decide) d hd)
  rw [ofBytes, toBytes, hb, value_digits h]

lemma toBytes_ofBytes (bytes : List UInt8) : toBytes bytes.length (ofBytes bytes) = bytes := by
  have hlt : ∀ d ∈ bytes.map UInt8.toNat, d < 256 := forall_mem_map.mpr fun b _ => b.toNat_lt
  have hd := digits_value hlt
  rw [length_map] at hd
  rw [toBytes, ofBytes, hd, map_map]
  simp [Function.comp_def]

end BigEndian
