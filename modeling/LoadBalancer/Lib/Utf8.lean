import Mathlib

/-!
# Texts in UTF-8

The bytes of a text, and the text of bytes, if they are those of one.  A byte below 128 is a
character of its own wherever it occurs.
-/

namespace Utf8

open List

def encode (text : List Char) : List UInt8 := text.flatMap String.utf8EncodeChar

def decode (bytes : List UInt8) : Option (List Char) :=
  bytes.toByteArray.utf8Decode?.map Array.toList

lemma encode_append (text later : List Char) :
    encode (text ++ later) = encode text ++ encode later :=
  flatMap_append

lemma decode_encode (text : List Char) : decode (encode text) = some text := by
  have hb : (encode text).toByteArray = text.utf8Encode := rfl
  rw [decode, hb, List.utf8Decode?_utf8Encode]
  simp

variable {text : List Char}

lemma decode_eq_some_iff {bytes : List UInt8} : decode bytes = some text ↔ bytes = encode text := by
  constructor
  · intro h
    obtain ⟨chars, hc, rfl⟩ := Option.map_eq_some_iff.mp h
    have hs : bytes.toByteArray.utf8Decode?.isSome = true := by simp [hc]
    have he := ByteArray.utf8Encode_get_utf8Decode? (h := hs)
    simp only [hc, Option.get_some] at he
    have hb : (encode chars.toList).toByteArray = bytes.toByteArray := he
    exact (toByteArray_inj.mp hb).symm
  · rintro rfl
    exact decode_encode text

lemma encode_inj {later : List Char} : encode text = encode later ↔ text = later := by
  constructor
  · intro h
    exact Option.some.inj ((decode_encode text).symm.trans (h ▸ decode_encode later))
  · rintro rfl
    rfl

lemma utf8EncodeChar_of_ascii {c : Char} (h : c.toNat ≤ 127) :
    String.utf8EncodeChar c = [UInt8.ofNat c.toNat] := by
  have hv : c.val.toNat ≤ 127 := h
  rw [String.utf8EncodeChar, if_pos hv]
  rfl

lemma encode_of_ascii (h : ∀ c ∈ text, c.toNat ≤ 127) :
    encode text = text.map fun c => UInt8.ofNat c.toNat := by
  rw [encode, flatMap_congr fun c hc => utf8EncodeChar_of_ascii (h c hc)]
  exact map_eq_flatMap.symm

lemma le_of_mem_utf8EncodeChar {c : Char} (h : ¬ c.toNat ≤ 127) {b : UInt8}
    (hb : b ∈ String.utf8EncodeChar c) : 128 ≤ b.toNat := by
  have hv : ¬ c.val.toNat ≤ 127 := h
  have hbo : ∀ m, 128 ≤ m → m < 256 → 128 ≤ (UInt8.ofNat m).toNat := fun m hm hlt => by
    rwa [UInt8.toNat_ofNat', Nat.mod_eq_of_lt hlt]
  rw [String.utf8EncodeChar, if_neg hv] at hb
  split_ifs at hb <;> simp only [mem_cons, not_mem_nil, or_false] at hb
  · rcases hb with rfl | rfl <;> exact hbo _ (by omega) (by omega)
  · rcases hb with rfl | rfl | rfl <;> exact hbo _ (by omega) (by omega)
  · rcases hb with rfl | rfl | rfl | rfl <;> exact hbo _ (by omega) (by omega)

/-- A byte below 128 is a character wherever it occurs in a text. -/
lemma encode_eq_append_cons {before after : List UInt8} {b : UInt8} (hb : b.toNat ≤ 127)
    (h : encode text = before ++ b :: after) :
    ∃ front back, text = front ++ Char.ofNat b.toNat :: back ∧ encode front = before ∧
      encode back = after := by
  induction text generalizing before with
  | nil => simp [encode] at h
  | cons c text ih =>
    have hs : String.utf8EncodeChar c ++ encode text = before ++ b :: after := h
    rcases append_eq_append_iff.mp hs with ⟨u, rfl, hr⟩ | ⟨u, hch, hr⟩
    · obtain ⟨front, back, rfl, rfl, rfl⟩ := ih hr
      exact ⟨c :: front, back, rfl, rfl, rfl⟩
    · cases u with
      | nil =>
        have hr' : encode text = [] ++ b :: after := hr.symm
        obtain ⟨front, back, rfl, hf, rfl⟩ := ih hr'
        refine ⟨c :: front, back, rfl, ?_, rfl⟩
        have he : encode (c :: front) = String.utf8EncodeChar c ++ encode front := rfl
        rw [he, hf, hch]
        simp
      | cons d u =>
        -- The byte is one of the character's, which is then below 128 and no other byte.
        obtain ⟨rfl, ha⟩ := List.cons.inj hr
        have hc : c.toNat ≤ 127 := by
          by_contra hl
          have := le_of_mem_utf8EncodeChar hl (b := b) (by simp [hch])
          omega
        rw [utf8EncodeChar_of_ascii hc] at hch
        obtain ⟨rfl, hbyt⟩ : before = [] ∧ [UInt8.ofNat c.toNat] = b :: u := by
          cases before with
          | nil => exact ⟨rfl, hch⟩
          | cons e before => simp at hch
        obtain ⟨rfl, rfl⟩ := List.cons.inj hbyt
        refine ⟨[], text, ?_, rfl, ha.symm⟩
        rw [UInt8.toNat_ofNat', Nat.mod_eq_of_lt (by omega), Char.ofNat_toNat, nil_append]

end Utf8
