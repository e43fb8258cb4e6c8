import Mathlib.Data.UInt
import Mathlib.Tactic.Common

/-!
# Percent coding

Bytes that may not stand as they are become a percent sign and two digits.  Decoding is lenient: a
percent sign that no two digits follow stays as it is.  What was encoded is read back if the percent
sign itself is encoded and the digits are read as they are written.
-/

namespace PercentCode

def percentSign : UInt8 := 37

section

variable (kept : UInt8 → Bool) (digit : ℕ → UInt8)

def encodeByte (b : UInt8) : List UInt8 :=
  if kept b then [b] else [percentSign, digit (b.toNat / 16), digit (b.toNat % 16)]

def encode (bytes : List UInt8) : List UInt8 := bytes.flatMap (encodeByte kept digit)

end

/-- `escape` reads the two bytes behind a percent sign. -/
def decode (escape : UInt8 → UInt8 → Option UInt8) : List UInt8 → List UInt8
  | b :: hi :: lo :: rest =>
    match (if b = percentSign then escape hi lo else none) with
    | some byte => byte :: decode escape rest
    | none => b :: decode escape (hi :: lo :: rest)
  | b :: rest => b :: decode escape rest
  | [] => []

variable {escape : UInt8 → UInt8 → Option UInt8}

lemma decode_cons_of_ne {b : UInt8} (h : b ≠ percentSign) :
    ∀ rest, decode escape (b :: rest) = b :: decode escape rest
  | [] => rfl
  | [_] => rfl
  | hi :: lo :: rest => by simp only [decode, if_neg h]

/-- **Round trip.** -/
theorem decode_encode {kept : UInt8 → Bool} {digit : ℕ → UInt8} (hs : kept percentSign = false)
    (hd : ∀ b : UInt8, escape (digit (b.toNat / 16)) (digit (b.toNat % 16)) = some b)
    (bytes : List UInt8) : decode escape (encode kept digit bytes) = bytes := by
  induction bytes with
  | nil => rfl
  | cons b bytes ih =>
    rw [encode, List.flatMap_cons, ← encode, encodeByte]
    split_ifs with hk
    · have hne : b ≠ percentSign := by
        rintro rfl
        rw [hs] at hk
        cases hk
      rw [List.singleton_append, decode_cons_of_ne hne, ih]
    · rw [List.cons_append, List.cons_append, List.singleton_append]
      simp only [decode, if_true, hd b, ih]

end PercentCode
