import Mathlib

/-!
# Compact JSON text and its size

The text a compact JSON writer prints for strings, natural numbers, arrays and objects, as a list
of characters, and the number of bytes of its UTF-8 form.  Strings are escaped as `serde_json`
does it: the two-character escapes where JSON has one, `\u00XX` for the other control
characters, everything else as it is.

Sizes are `String.utf8Len`.  An escaped character has at most six bytes for each byte of the
character, so a quoted string has at most `6 * n + 2` bytes.
-/

namespace Json

open String (utf8Len)

def hexDigit (n : ℕ) : Char := "0123456789abcdef".toList.getD n '0'

def escape (c : Char) : List Char :=
  if c = '"' then ['\\', '"']
  else if c = '\\' then ['\\', '\\']
  else if c = '\x08' then ['\\', 'b']
  else if c = '\x0c' then ['\\', 'f']
  else if c = '\n' then ['\\', 'n']
  else if c = '\r' then ['\\', 'r']
  else if c = '\t' then ['\\', 't']
  else if c.toNat < 0x20 then
    ['\\', 'u', '0', '0', hexDigit (c.toNat / 16), hexDigit (c.toNat % 16)]
  else [c]

def str (s : String) : List Char := '"' :: (s.toList.flatMap escape ++ ['"'])

def nat (n : ℕ) : List Char := Nat.toDigits 10 n

def commaSep : List (List Char) → List Char
  | [] => []
  | [item] => item
  | item :: items => item ++ ',' :: commaSep items

def arr (items : List (List Char)) : List Char := '[' :: (commaSep items ++ [']'])

def obj (fields : List (String × List Char)) : List Char :=
  '\x7b' :: (commaSep (fields.map fun f => str f.1 ++ ':' :: f.2) ++ ['\x7d'])

def toUtf8 (text : List Char) : List UInt8 := text.flatMap String.utf8EncodeChar

/-! ## Sizes -/

lemma length_toUtf8 (text : List Char) : (toUtf8 text).length = utf8Len text := by
  induction text with
  | nil => rfl
  | cons c text ih =>
    rw [toUtf8, List.flatMap_cons, List.length_append, ← toUtf8, ih, utf8Len]
    simp [add_comm]

lemma utf8Len_eq_length_of_ascii {l : List Char} (h : ∀ c ∈ l, c.utf8Size = 1) :
    utf8Len l = l.length := by
  induction l with
  | nil => rfl
  | cons c l ih =>
    rw [String.utf8Len_cons, ih fun d hd => h d (List.mem_cons_of_mem _ hd),
      h c (List.mem_cons_self ..), List.length_cons]

lemma utf8Size_hexDigit (n : ℕ) : (hexDigit n).utf8Size = 1 := by
  rcases lt_or_ge n 16 with hn | hn
  · revert n
    decide
  · rw [hexDigit, List.getD_eq_default _ _ hn]
    rfl

/-- A character is never escaped away, and to at most six bytes a byte. -/
lemma utf8Len_escape (c : Char) :
    c.utf8Size ≤ utf8Len (escape c) ∧ utf8Len (escape c) ≤ 6 * c.utf8Size := by
  have hp := c.utf8Size_pos
  have hs : ∀ d e : Char, c = d → d.utf8Size = 1 → e.utf8Size = 1 →
      c.utf8Size ≤ utf8Len ['\\', e] ∧ utf8Len ['\\', e] ≤ 6 * c.utf8Size := by
    rintro d e rfl hd he
    have : utf8Len ['\\', e] = 2 := by
      rw [String.utf8Len_cons, String.utf8Len_cons, he]
      rfl
    omega
  unfold escape
  split_ifs with h1 h2 h3 h4 h5 h6 h7 h8
  · exact hs _ _ h1 rfl rfl
  · exact hs _ _ h2 rfl rfl
  · exact hs _ _ h3 rfl rfl
  · exact hs _ _ h4 rfl rfl
  · exact hs _ _ h5 rfl rfl
  · exact hs _ _ h6 rfl rfl
  · exact hs _ _ h7 rfl rfl
  · have ho : c.utf8Size = 1 := by
      rw [Char.utf8Size_eq_one_iff, UInt32.le_iff_toNat_le]
      exact (Nat.lt_of_lt_of_le h8 (by decide)).le
    have hsi : utf8Len ['\\', 'u', '0', '0', hexDigit (c.toNat / 16), hexDigit (c.toNat % 16)]
        = 6 := by
      rw [utf8Len_eq_length_of_ascii]
      · rfl
      · simp only [List.forall_mem_cons, utf8Size_hexDigit]
        exact ⟨rfl, rfl, rfl, rfl, trivial, trivial, by simp⟩
    omega
  · simp only [String.utf8Len_cons, String.utf8Len_nil]
    omega

lemma utf8Len_flatMap_escape (l : List Char) :
    utf8Len l ≤ utf8Len (l.flatMap escape) ∧ utf8Len (l.flatMap escape) ≤ 6 * utf8Len l := by
  induction l with
  | nil => simp
  | cons c l ih =>
    have hc := utf8Len_escape c
    rw [List.flatMap_cons, String.utf8Len_append, String.utf8Len_cons]
    omega

lemma utf8Len_str (s : String) :
    s.utf8ByteSize ≤ utf8Len (str s) ∧ utf8Len (str s) ≤ 6 * s.utf8ByteSize + 2 := by
  have h := utf8Len_flatMap_escape s.toList
  rw [String.utf8Len_toList] at h
  have hs : utf8Len (str s) = utf8Len (s.toList.flatMap escape) + 2 := by
    rw [str, String.utf8Len_cons, String.utf8Len_append]
    rfl
  omega

lemma utf8Len_nat (n : ℕ) : utf8Len (nat n) = (Nat.toDigits 10 n).length := by
  refine utf8Len_eq_length_of_ascii fun c hc => ?_
  have hd := Nat.isDigit_of_mem_toDigits (by norm_num) le_rfl hc
  rw [Char.utf8Size_eq_one_iff]
  rw [Char.isDigit, Bool.and_eq_true, decide_eq_true_eq, decide_eq_true_eq] at hd
  exact UInt32.le_trans hd.2 (by decide)

lemma utf8Len_nat_pos (n : ℕ) : 0 < utf8Len (nat n) := by
  rw [utf8Len_nat]
  exact Nat.length_toDigits_pos

lemma utf8Len_nat_le_of_lt {n : ℕ} (h : n < 2 ^ 64) : utf8Len (nat n) ≤ 20 := by
  rw [utf8Len_nat]
  exact Nat.toDigits_length 10 n 20 (by norm_num) (h.trans (by norm_num))

lemma utf8Len_commaSep : ∀ items : List (List Char),
    utf8Len (commaSep items) = (items.map utf8Len).sum + (items.length - 1)
  | [] => rfl
  | [item] => by simp [commaSep]
  | item :: next :: items => by
      have ih := utf8Len_commaSep (next :: items)
      rw [commaSep, String.utf8Len_append, String.utf8Len_cons, ih]
      · simp only [List.map_cons, List.sum_cons, List.length_cons]
        have : (',' : Char).utf8Size = 1 := rfl
        omega
      · simp

lemma utf8Len_arr (items : List (List Char)) :
    utf8Len (arr items) = (items.map utf8Len).sum + (items.length - 1) + 2 := by
  rw [arr, String.utf8Len_cons, String.utf8Len_append, utf8Len_commaSep]
  rfl

lemma utf8Len_obj (fields : List (String × List Char)) :
    utf8Len (obj fields) = (fields.map fun f => utf8Len (str f.1) + utf8Len f.2 + 1).sum +
      (fields.length - 1) + 2 := by
  have hf : (utf8Len ∘ fun f : String × List Char => str f.1 ++ ':' :: f.2)
      = fun f => utf8Len (str f.1) + utf8Len f.2 + 1 := by
    funext f
    rw [Function.comp_apply, String.utf8Len_append, String.utf8Len_cons, add_assoc]
    rfl
  rw [obj, String.utf8Len_cons, String.utf8Len_append, utf8Len_commaSep, List.map_map,
    List.length_map, hf]
  rfl

end Json
