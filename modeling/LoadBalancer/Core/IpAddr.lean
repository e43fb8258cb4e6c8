import Mathlib
import LoadBalancer.Lib.BigEndian
import LoadBalancer.Lib.Text

/-!
# IP addresses

Addresses and networks as the standard library and the `ipnet` crate have them, with the texts of
addresses: how the standard library prints them and which texts it parses.  What is printed parses
back to the address, and a text that parses has no characters but those of an address.
-/

namespace LoadBalancer.Core

open List

inductive IpAddr
  | v4 (bits : BitVec 32)
  | v6 (bits : BitVec 128)
  deriving DecidableEq

namespace IpAddr

/-- The IPv4 address behind an IPv4-mapped address `::ffff:a.b.c.d`. -/
def toCanonical : IpAddr → IpAddr
  | v4 a => v4 a
  | v6 a => if a >>> 32 = 0xffff then v4 (a.setWidth 32) else v6 a

lemma toCanonical_toCanonical (a : IpAddr) : a.toCanonical.toCanonical = a.toCanonical := by
  cases a with
  | v4 a => rfl
  | v6 a =>
    show (if a >>> 32 = 0xffff then v4 (a.setWidth 32) else v6 a).toCanonical
      = if a >>> 32 = 0xffff then v4 (a.setWidth 32) else v6 a
    split_ifs with h
    · rfl
    · exact if_neg h

end IpAddr

/-- A network: an address of it and the number of leading bits that its addresses share. -/
structure IpNet where
  addr : IpAddr
  length : ℕ
  deriving DecidableEq

def IpNet.contains (net : IpNet) : IpAddr → Bool
  | .v4 a =>
    match net.addr with
    | .v4 n => n >>> (32 - net.length) = a >>> (32 - net.length)
    | .v6 _ => false
  | .v6 a =>
    match net.addr with
    | .v4 _ => false
    | .v6 n => n >>> (128 - net.length) = a >>> (128 - net.length)

/-! ## Texts -/

def octets (a : BitVec 32) : List ℕ :=
  [a.toNat / 2 ^ 24, a.toNat / 2 ^ 16 % 256, a.toNat / 2 ^ 8 % 256, a.toNat % 256]

def displayV4 (a : BitVec 32) : List Char :=
  ['.'].intercalate ((octets a).map (Nat.toDigits 10))

/-- The eight groups of an IPv6 address. -/
def segments (a : BitVec 128) : List ℕ := BigEndian.digits (2 ^ 16) 8 a.toNat

def ofSegments (groups : List ℕ) : BitVec 128 := .ofNat 128 (BigEndian.value (2 ^ 16) groups)

/-- A run of zeros among the groups. -/
structure Span where
  start : ℕ
  len : ℕ

/-- One turn of the loop that looks for the longest run of zeros: the longest one so far, and the
one that goes on to here. -/
def spanStep (spans : Span × Span) (group : ℕ × ℕ) : Span × Span :=
  let (longest, current) := spans
  if group.1 = 0 then
    let current : Span := ⟨if current.len = 0 then group.2 else current.start, current.len + 1⟩
    (if longest.len < current.len then current else longest, current)
  else (longest, ⟨0, 0⟩)

def longestZeros (groups : List ℕ) : Span :=
  (groups.zipIdx.foldl spanStep (⟨0, 0⟩, ⟨0, 0⟩)).1

/-- `fmt_subslice`: groups in hexadecimal digits, with colons between them. -/
def hexText (groups : List ℕ) : List Char := [':'].intercalate (groups.map (Nat.toDigits 16))

/-- `Display` of an IPv6 address: an IPv4-mapped one ends in the text of the IPv4 address, and of
another one the longest run of at least two zeros is written as two colons. -/
def displayV6 (a : BitVec 128) : List Char :=
  if a >>> 32 = 0xffff then "::ffff:".toList ++ displayV4 (a.setWidth 32)
  else
    let groups := segments a
    let zeros := longestZeros groups
    if 1 < zeros.len then
      hexText (groups.take zeros.start) ++ "::".toList ++
        hexText (groups.drop (zeros.start + zeros.len))
    else hexText groups

def IpAddr.display : IpAddr → List Char
  | .v4 a => displayV4 a
  | .v6 a => displayV6 a

/-- A number of an IPv4 address: at most three digits, with no zero in front, up to 255. -/
def parseOctet (text : List Char) : Option ℕ :=
  if text ≠ [] ∧ text.length ≤ 3 ∧ text.all Char.isDigit ∧ (text.head? = some '0' → text = ['0']) ∧
      Nat.ofDigitChars 10 text 0 ≤ 255 then
    some (Nat.ofDigitChars 10 text 0)
  else none

def parseV4 (text : List Char) : Option (BitVec 32) :=
  match (text.splitOn '.').map parseOctet with
  | [some a, some b, some c, some d] =>
    some (BitVec.ofNat 32 (a * 2 ^ 24 + b * 2 ^ 16 + c * 2 ^ 8 + d))
  | _ => none

/-- `to_digit(16)`. -/
def hexValue (c : Char) : Option ℕ :=
  if c.isDigit then some (c.toNat - 48)
  else if 97 ≤ c.toNat ∧ c.toNat ≤ 102 then some (c.toNat - 87)
  else if 65 ≤ c.toNat ∧ c.toNat ≤ 70 then some (c.toNat - 55)
  else none

/-- `read_number(16, Some(4), true)`: a group of up to four hexadecimal digits, and what follows. -/
def readGroup (text : List Char) : Option (ℕ × List Char) :=
  let digits := (text.takeWhile fun c => (hexValue c).isSome).filterMap hexValue
  if digits ≠ [] ∧ digits.length ≤ 4 then
    some (BigEndian.value 16 digits, text.dropWhile fun c => (hexValue c).isSome)
  else none

/-- `read_separator`: a colon before every group but the first. -/
def skipSeparator : ℕ → List Char → Option (List Char)
  | 0, text => some text
  | _ + 1, ':' :: text => some text
  | _ + 1, _ => none

/-- `read_groups`, with `room` for so many groups after the first `i`: the groups, whether they end
in an IPv4 address, and what follows.  An IPv4 address stands for two groups.  The source reads one
from the front of the text; as neither a group nor a separator begins with a dot, it fails in the
end unless the address is all that is left. -/
def readGroups : ℕ → ℕ → List Char → List ℕ × Bool × List Char
  | 0, _, text => ([], false, text)
  | room + 1, i, text =>
    match skipSeparator i text with
    | none => ([], false, text)
    | some next =>
      match if 0 < room then parseV4 next else none with
      | some a => (BigEndian.digits (2 ^ 16) 2 a.toNat, true, [])
      | none =>
        match readGroup next with
        | none => ([], false, text)
        | some (group, rest) =>
          let (groups, v4, rest) := readGroups room (i + 1) rest
          (group :: groups, v4, rest)

/-- `read_ipv6_addr`, of a whole text: eight groups, or fewer with two colons for the rest. -/
def parseV6 (text : List Char) : Option (BitVec 128) :=
  match readGroups 8 0 text with
  | (head, v4, rest) =>
    if head.length = 8 then if rest = [] then some (ofSegments head) else none
    else if v4 then none
    else
      match rest with
      | ':' :: ':' :: rest =>
        match readGroups (7 - head.length) 0 rest with
        | (tail, _, rest) =>
          let zeros := replicate (8 - head.length - tail.length) 0
          if rest = [] then some (ofSegments (head ++ zeros ++ tail)) else none
      | _ => none

def IpAddr.parse (text : List Char) : Option IpAddr :=
  match parseV4 text with
  | some a => some (.v4 a)
  | none => (parseV6 text).map .v6

lemma parseOctet_toDigits : ∀ n < 256, parseOctet (Nat.toDigits 10 n) = some n := by
  decide +kernel

lemma octets_lt {a : BitVec 32} {n : ℕ} (h : n ∈ octets a) : n < 256 := by
  have ha := a.isLt
  simp only [octets, mem_cons, not_mem_nil, or_false] at h
  omega

lemma parseV4_displayV4 (a : BitVec 32) : parseV4 (displayV4 a) = some a := by
  have hdo : ∀ field ∈ (octets a).map (Nat.toDigits 10), '.' ∉ field := by
    intro field hfi hdot
    obtain ⟨n, -, rfl⟩ := mem_map.mp hfi
    have hd : ('.' : Char).isDigit = true :=
      Nat.isDigit_of_mem_toDigits (by decide) (by decide) hdot
    exact absurd hd (by decide)
  have hf : (displayV4 a).splitOn '.' = (octets a).map (Nat.toDigits 10) :=
    splitOn_intercalate '.' hdo (by simp [octets])
  have hp : ((octets a).map (Nat.toDigits 10)).map parseOctet = (octets a).map some := by
    rw [map_map]
    exact map_congr_left fun n hn => parseOctet_toDigits n (octets_lt hn)
  rw [parseV4, hf, hp]
  simp only [octets, map_cons, map_nil, Option.some.injEq]
  apply BitVec.eq_of_toNat_eq
  have ha := a.isLt
  rw [BitVec.toNat_ofNat, Nat.mod_eq_of_lt (by omega)]
  omega

lemma mem_of_parseV4 {text : List Char} {a : BitVec 32} (h : parseV4 text = some a) {c : Char}
    (hc : c ∈ text) : c = '.' ∨ c.isDigit = true := by
  unfold parseV4 at h
  split at h
  · next hf =>
    have hj : c ∈ ['.'].intercalate (text.splitOn '.') := by rwa [intercalate_splitOn]
    refine (Text.mem_of_mem_intercalate hj).imp id fun ⟨field, hfi, hc⟩ => ?_
    have hs : (parseOctet field).isSome = true := by
      have hm := mem_map_of_mem (f := parseOctet) hfi
      rw [hf] at hm
      simp only [mem_cons, not_mem_nil, or_false] at hm
      rcases hm with h | h | h | h <;> rw [h] <;> rfl
    obtain ⟨n, hn⟩ := Option.isSome_iff_exists.mp hs
    obtain ⟨⟨-, -, hd, -⟩, -⟩ := Option.ite_none_right_eq_some.mp hn
    exact all_eq_true.mp hd c hc
  · cases h

lemma parseV4_of_colon {text : List Char} (h : ':' ∈ text) : parseV4 text = none := by
  cases hp : parseV4 text with
  | none => rfl
  | some a => rcases mem_of_parseV4 hp h with h | h <;> exact absurd h (by decide)

/-! ## IPv6 addresses round-trip -/

lemma ofSegments_segments (a : BitVec 128) : ofSegments (segments a) = a := by
  rw [ofSegments, segments, BigEndian.value_digits (by have := a.isLt; norm_num at this ⊢; omega)]
  simp

section

/-- The run is one of zeros. -/
def Span.Zeros (z : Span) (groups : List ℕ) : Prop :=
  z.start + z.len ≤ groups.length ∧ (groups.drop z.start).take z.len = replicate z.len 0

lemma Span.Zeros.concat {z : Span} {groups : List ℕ} (h : z.Zeros groups) (group : ℕ) :
    z.Zeros (groups ++ [group]) := by
  obtain ⟨hle, hz⟩ := h
  refine ⟨by simp; omega, ?_⟩
  rw [drop_append_of_le_length (by omega), take_append_of_le_length (by simp; omega), hz]

/-- Both runs of the loop are runs of zeros, and the current one goes on to the end. -/
lemma zeros_spanStep (groups : List ℕ) :
    let spans := groups.zipIdx.foldl spanStep (⟨0, 0⟩, ⟨0, 0⟩)
    spans.1.Zeros groups ∧ spans.2.Zeros groups ∧
      (spans.2.len = 0 ∨ spans.2.start + spans.2.len = groups.length) := by
  induction groups using List.reverseRecOn with
  | nil => simp [Span.Zeros]
  | append_singleton groups group ih =>
    rw [zipIdx_append, foldl_append]
    generalize groups.zipIdx.foldl spanStep (⟨0, 0⟩, ⟨0, 0⟩) = spans at ih
    obtain ⟨longest, current⟩ := spans
    obtain ⟨hl, hc, he⟩ := ih
    simp only [zipIdx_cons, zipIdx_nil, foldl_cons, foldl_nil, zero_add, spanStep]
    by_cases hg : group = 0
    · rw [if_pos hg]
      -- the current run is longer by the new zero
      have hd : groups.drop (if current.len = 0 then groups.length else current.start) =
          replicate current.len 0 := by
        split_ifs with hz
        · simp [hz]
        · have hen : current.start + current.len = groups.length := he.resolve_left hz
          rw [← hc.2, take_of_length_le (by simp; omega)]
      have hs : (if current.len = 0 then groups.length else current.start) + current.len =
          groups.length := by
        split_ifs with hz
        · rw [hz, add_zero]
        · exact he.resolve_left hz
      generalize (if current.len = 0 then groups.length else current.start) = start at *
      have hlo : Span.Zeros ⟨start, current.len + 1⟩ (groups ++ [group]) := by
        refine ⟨by simp; omega, ?_⟩
        rw [drop_append_of_le_length (by dsimp only; omega), hd, hg, ← replicate_succ',
          take_of_length_le (by simp)]
      refine ⟨?_, hlo, .inr (by simp; omega)⟩
      split_ifs
      exacts [hlo, hl.concat group]
    · rw [if_neg hg]
      exact ⟨hl.concat group, by simp [Span.Zeros], .inl rfl⟩

lemma longestZeros_spec (groups : List ℕ) :
    let z := longestZeros groups
    z.start + z.len ≤ groups.length ∧
      groups.take z.start ++ replicate z.len 0 ++ groups.drop (z.start + z.len) = groups := by
  obtain ⟨⟨hle, hz⟩, -⟩ := zeros_spanStep groups
  refine ⟨hle, ?_⟩
  rw [longestZeros, ← hz, append_assoc, ← drop_drop, take_append_drop, take_append_drop]

end

lemma hexValue_digitChar : ∀ d < 16, hexValue (Nat.digitChar d) = some d := by decide

/-- The hexadecimal digits of a number. -/
lemma exists_hexValues (n : ℕ) :
    ∃ ds, (Nat.toDigits 16 n).map hexValue = ds.map some ∧ BigEndian.value 16 ds = n := by
  induction n using Nat.strongRecOn with
  | ind n ih =>
    by_cases hn : n < 16
    · exact ⟨[n], by simp [Nat.toDigits_of_lt_base hn, hexValue_digitChar n hn], by
        simp [BigEndian.value]⟩
    · obtain ⟨ds, hds, hv⟩ := ih (n / 16) (by omega)
      refine ⟨ds ++ [n % 16], ?_, by rw [BigEndian.value_concat, hv]; omega⟩
      rw [Nat.toDigits_of_base_le (by decide) (by omega), map_append, hds]
      simp [hexValue_digitChar _ (Nat.mod_lt n (by decide : 0 < 16))]

lemma isSome_hexValue {n : ℕ} : ∀ c ∈ Nat.toDigits 16 n, (hexValue c).isSome = true := by
  obtain ⟨ds, hds, -⟩ := exists_hexValues n
  intro c hc
  have hm := mem_map_of_mem (f := hexValue) hc
  rw [hds] at hm
  obtain ⟨d, -, hd⟩ := mem_map.mp hm
  rw [← hd]
  rfl

lemma readGroup_toDigits {n : ℕ} (hn : n < 2 ^ 16) {rest : List Char}
    (hr : ∀ c ∈ rest.head?, hexValue c = none) :
    readGroup (Nat.toDigits 16 n ++ rest) = some (n, rest) := by
  obtain ⟨ds, hds, hva⟩ := exists_hexValues n
  have hv : (Nat.toDigits 16 n).filterMap hexValue = ds := by
    have hid : (Nat.toDigits 16 n).filterMap hexValue = (ds.map some).filterMap id := by
      rw [← hds, filterMap_map, Function.id_comp]
    simpa [filterMap_map] using hid
  have hs : rest.takeWhile (fun c => (hexValue c).isSome) = [] ∧
      rest.dropWhile (fun c => (hexValue c).isSome) = rest := by
    cases rest with
    | nil => exact ⟨rfl, rfl⟩
    | cons c rest => simp [hr c rfl]
  have hl : ds.length ≤ 4 := by
    rw [← length_map (f := some), ← hds, length_map]
    exact (Nat.length_toDigits_le_iff (by decide) (by decide)).mpr hn
  have hne : ds ≠ [] := by
    rintro rfl
    exact Nat.toDigits_ne_nil (map_eq_nil_iff.mp hds)
  rw [readGroup, takeWhile_append_of_pos isSome_hexValue, dropWhile_append_of_pos isSome_hexValue,
    hs.1, hs.2, append_nil, hv, if_pos ⟨hne, hl⟩, hva]

lemma parseV4_of_no_dot {text : List Char} (h : '.' ∉ text) : parseV4 text = none := by
  rw [parseV4, splitOn_eq_singleton h, map_singleton]
  cases parseOctet text <;> rfl

/-- What may follow the groups: nothing, or the two colons. -/
def EndsGroups (rest : List Char) : Prop := rest = [] ∨ ∃ more, rest = ':' :: ':' :: more

lemma readGroups_of_endsGroups {rest : List Char} (h : EndsGroups rest) (room i : ℕ) :
    readGroups room i rest = ([], false, rest) := by
  have hno : ∀ next, skipSeparator i rest = some next →
      parseV4 next = none ∧ readGroup next = none := by
    intro next hn
    rcases h with rfl | ⟨more, rfl⟩
    · cases i with
      | zero => cases hn; exact ⟨rfl, rfl⟩
      | succ i => cases hn
    · cases i <;> cases hn <;> exact ⟨parseV4_of_colon (by simp), rfl⟩
  cases room with
  | zero => rfl
  | succ room =>
    unfold readGroups
    cases hn : skipSeparator i rest with
    | none => rfl
    | some next =>
      obtain ⟨hv4, hg⟩ := hno next hn
      simp [hv4, hg]

/-- A text of groups, as it stands after the first `i`. -/
def groupsText : ℕ → List ℕ → List Char
  | 0, groups => hexText groups
  | _ + 1, groups => groups.flatMap fun group => ':' :: Nat.toDigits 16 group

lemma skipSeparator_groupsText (i group : ℕ) (groups : List ℕ) (rest : List Char) :
    skipSeparator i (groupsText i (group :: groups) ++ rest) =
      some (Nat.toDigits 16 group ++ (groupsText (i + 1) groups ++ rest)) := by
  cases i with
  | zero =>
    have ht : ∀ groups : List ℕ, hexText (group :: groups) =
        Nat.toDigits 16 group ++ groups.flatMap fun group => ':' :: Nat.toDigits 16 group := by
      intro groups
      simp [hexText, Text.intercalate_cons, flatMap_map]
    simp [skipSeparator, groupsText, ht]
  | succ i => simp [skipSeparator, groupsText]

/-- **Groups are read back**, as many as there are. -/
lemma readGroups_groupsText {groups : List ℕ} (hlt : ∀ group ∈ groups, group < 2 ^ 16)
    {rest : List Char} (hr : EndsGroups rest) {room : ℕ} (hro : groups.length ≤ room) (i : ℕ) :
    readGroups room i (groupsText i groups ++ rest) = (groups, false, rest) := by
  induction groups generalizing room i with
  | nil =>
    have hn : groupsText i [] = [] := by cases i <;> rfl
    rw [hn, nil_append, readGroups_of_endsGroups hr]
  | cons group groups ih =>
    obtain ⟨room, rfl⟩ := Nat.exists_eq_add_of_le' (Nat.one_le_of_lt hro)
    rw [forall_mem_cons] at hlt
    have ht : groupsText (i + 1) groups ++ rest = [] ∨
        ∃ more, groupsText (i + 1) groups ++ rest = ':' :: more := by
      cases groups with
      | nil => exact hr.imp id fun ⟨more, h⟩ => ⟨':' :: more, h⟩
      | cons => exact .inr ⟨_, rfl⟩
    have hv4 : parseV4 (Nat.toDigits 16 group ++ (groupsText (i + 1) groups ++ rest)) = none := by
      rcases ht with h | ⟨more, h⟩
      · rw [h, append_nil]
        exact parseV4_of_no_dot fun hd => absurd (isSome_hexValue _ hd) (by decide)
      · exact parseV4_of_colon (by simp [h])
    have hg : readGroup (Nat.toDigits 16 group ++ (groupsText (i + 1) groups ++ rest)) =
        some (group, groupsText (i + 1) groups ++ rest) := by
      refine readGroup_toDigits hlt.1 fun c hc => ?_
      rcases ht with h | ⟨more, h⟩ <;> rw [h] at hc <;> cases hc
      rfl
    unfold readGroups
    simp only [skipSeparator_groupsText, hv4, ite_self, hg,
      ih hlt.2 (Nat.le_of_succ_le_succ hro) (i + 1)]

lemma parseV6_mapped {a : BitVec 128} (h : a >>> 32 = 0xffff) :
    parseV6 ("::ffff:".toList ++ displayV4 (a.setWidth 32)) = some a := by
  have hc : parseV4 ("ffff:".toList ++ displayV4 (a.setWidth 32)) = none :=
    parseV4_of_colon (by simp)
  have hg : readGroup ("ffff:".toList ++ displayV4 (a.setWidth 32)) =
      some (0xffff, ':' :: displayV4 (a.setWidth 32)) :=
    readGroup_toDigits (n := 0xffff) (by decide) (by simp; decide)
  rw [show "::ffff:".toList ++ displayV4 (a.setWidth 32) =
    ':' :: ':' :: ("ffff:".toList ++ displayV4 (a.setWidth 32)) from rfl]
  generalize "ffff:".toList ++ displayV4 (a.setWidth 32) = text at hc hg
  have ht : readGroups 7 0 text =
      (0xffff :: BigEndian.digits (2 ^ 16) 2 (a.setWidth 32).toNat, true, []) := by
    simp only [readGroups, skipSeparator, hc, hg, parseV4_displayV4, Nat.succ_pos, if_true]
  have hv : ofSegments (replicate 5 0 ++
      0xffff :: BigEndian.digits (2 ^ 16) 2 (a.setWidth 32).toNat) = a := by
    have ha := a.isLt
    have hh := congrArg BitVec.toNat h
    rw [BitVec.toNat_ushiftRight, Nat.shiftRight_eq_div_pow] at hh
    apply BitVec.eq_of_toNat_eq
    simp [ofSegments, BigEndian.value, BigEndian.digits, replicate] at hh ⊢
    omega
  rw [parseV6, readGroups_of_endsGroups (.inr ⟨text, rfl⟩)]
  simp only [length_nil, ht]
  simpa [BigEndian.length_digits] using hv

/-- **The text of an IPv6 address parses back to it.** -/
lemma parseV6_displayV6 (a : BitVec 128) : parseV6 (displayV6 a) = some a := by
  unfold displayV6
  split_ifs with hm
  · exact parseV6_mapped hm
  have hl : (segments a).length = 8 := BigEndian.length_digits
  have hlt : ∀ group ∈ segments a, group < 2 ^ 16 := BigEndian.digits_lt (by decide)
  obtain ⟨hle, hs⟩ := longestZeros_spec (segments a)
  dsimp only
  split_ifs with hz
  · generalize longestZeros (segments a) = z at *
    have hh : readGroups 8 0 (hexText ((segments a).take z.start) ++
        ':' :: ':' :: hexText ((segments a).drop (z.start + z.len))) =
        ((segments a).take z.start, false,
          ':' :: ':' :: hexText ((segments a).drop (z.start + z.len))) :=
      readGroups_groupsText (fun g hg => hlt g (mem_of_mem_take hg)) (.inr ⟨_, rfl⟩)
        (by simp; omega) 0
    have ht : readGroups (7 - z.start) 0 (hexText ((segments a).drop (z.start + z.len)) ++ []) =
        ((segments a).drop (z.start + z.len), false, []) :=
      readGroups_groupsText (fun g hg => hlt g (mem_of_mem_drop hg)) (.inl rfl) (by simp; omega) 0
    rw [append_nil] at ht
    rw [parseV6, append_assoc]
    have hst : ((segments a).take z.start).length = z.start := by simp; omega
    have he : ((segments a).drop (z.start + z.len)).length = 8 - (z.start + z.len) := by
      simp [hl]
    rw [show "::".toList ++ hexText ((segments a).drop (z.start + z.len)) =
      ':' :: ':' :: hexText ((segments a).drop (z.start + z.len)) from rfl, hh]
    simp only [hst, he, ht, if_neg (show z.start ≠ 8 by omega), Bool.false_eq_true,
      if_false, if_true]
    rw [show 8 - z.start - (8 - (z.start + z.len)) = z.len by omega, hs, ofSegments_segments]
  · have ha : readGroups 8 0 (hexText (segments a) ++ []) = (segments a, false, []) :=
      readGroups_groupsText hlt (.inl rfl) hl.le 0
    rw [append_nil] at ha
    rw [parseV6, ha]
    simp [hl, ofSegments_segments]

/-! ## Characters of an address -/

def IsAddrChar (c : Char) : Prop := (hexValue c).isSome = true ∨ c = ':' ∨ c = '.'

lemma IsAddrChar.toNat_bounds {c : Char} (h : IsAddrChar c) : 46 ≤ c.toNat ∧ c.toNat ≤ 102 := by
  rcases h with hh | rfl | rfl
  · unfold hexValue at hh
    split_ifs at hh with hd hl hu
    · have hb := Char.isDigit_iff_toNat.mp hd
      change 48 ≤ c.toNat ∧ c.toNat ≤ 57 at hb
      omega
    · omega
    · omega
    · cases hh
  · decide
  · decide

lemma isAddrChar_of_parseV4 {text : List Char} {a : BitVec 32} (h : parseV4 text = some a)
    {c : Char} (hc : c ∈ text) : IsAddrChar c := by
  rcases mem_of_parseV4 h hc with hdo | hd
  · exact .inr (.inr hdo)
  · exact .inl (by simp [hexValue, hd])

lemma mem_skipSeparator {i : ℕ} {text next : List Char} (h : skipSeparator i text = some next)
    {c : Char} (hc : c ∈ text) : c = ':' ∨ c ∈ next := by
  unfold skipSeparator at h
  split at h
  · cases h; exact .inr hc
  · cases h; exact mem_cons.mp hc
  · cases h

lemma mem_readGroup {text rest : List Char} {group : ℕ} (h : readGroup text = some (group, rest))
    {c : Char} (hc : c ∈ text) : (hexValue c).isSome = true ∨ c ∈ rest := by
  obtain ⟨-, h⟩ := Option.ite_none_right_eq_some.mp h
  cases h
  rw [← takeWhile_append_dropWhile (p := fun c => (hexValue c).isSome) (l := text)] at hc
  rcases mem_append.mp hc with ht | hr
  · exact .inl (mem_takeWhile_imp (p := fun c => (hexValue c).isSome) ht)
  · exact .inr hr

/-- What is read as groups has no other characters. -/
lemma mem_readGroups {c : Char} (room i : ℕ) {text : List Char} (hc : c ∈ text) :
    IsAddrChar c ∨ c ∈ (readGroups room i text).2.2 := by
  induction room generalizing i text with
  | zero => exact .inr hc
  | succ room ih =>
    unfold readGroups
    cases hn : skipSeparator i text with
    | none => exact .inr hc
    | some next =>
      rcases mem_skipSeparator hn hc with hco | hm
      · exact .inl (.inr (.inl hco))
      dsimp only
      split
      · next a hv4 =>
        split_ifs at hv4
        exact .inl (isAddrChar_of_parseV4 hv4 hm)
      · cases hg : readGroup next with
        | none => exact .inr hc
        | some read =>
          rcases mem_readGroup hg hm with hh | hm
          · exact .inl (.inl hh)
          · exact ih (i + 1) hm

lemma isAddrChar_of_parseV6 {text : List Char} {a : BitVec 128} (h : parseV6 text = some a)
    {c : Char} (hc : c ∈ text) : IsAddrChar c := by
  refine (mem_readGroups 8 0 hc).elim id fun hm => ?_
  unfold parseV6 at h
  generalize readGroups 8 0 text = read at h hm
  obtain ⟨head, v4, rest⟩ := read
  dsimp only at h hm
  split_ifs at h with hf he
  · rw [he] at hm
    cases hm
  · split at h
    · next rest =>
      split_ifs at h with he
      rw [mem_cons, mem_cons] at hm
      rcases hm with hco | hco | hm
      · exact .inr (.inl hco)
      · exact .inr (.inl hco)
      · have hr := mem_readGroups (7 - head.length) 0 hm
        rw [he] at hr
        exact hr.resolve_right not_mem_nil
    · cases h

lemma parseV4_of_parseV6 {text : List Char} {a : BitVec 128} (h : parseV6 text = some a) :
    parseV4 text = none := by
  cases hv4 : parseV4 text with
  | none => rfl
  | some b => simp [parseV6, readGroups, skipSeparator, hv4, BigEndian.length_digits] at h

lemma parse_eq_v4 {text : List Char} {a : BitVec 32} (h : parseV4 text = some a) :
    IpAddr.parse text = some (.v4 a) := by
  rw [IpAddr.parse, h]

lemma parse_eq_v6 {text : List Char} {a : BitVec 128} (h : parseV6 text = some a) :
    IpAddr.parse text = some (.v6 a) := by
  rw [IpAddr.parse, parseV4_of_parseV6 h, h]
  rfl

lemma isAddrChar_of_parse {text : List Char} {a : IpAddr} (h : IpAddr.parse text = some a)
    {c : Char} (hc : c ∈ text) : IsAddrChar c := by
  unfold IpAddr.parse at h
  split at h
  · next hv4 => exact isAddrChar_of_parseV4 hv4 hc
  · obtain ⟨b, hv6, -⟩ := Option.map_eq_some_iff.mp h
    exact isAddrChar_of_parseV6 hv6 hc

/-- **The text of an address parses back to it.** -/
lemma parse_display (a : IpAddr) : IpAddr.parse a.display = some a := by
  cases a with
  | v4 a => exact parse_eq_v4 (parseV4_displayV4 a)
  | v6 a => exact parse_eq_v6 (parseV6_displayV6 a)

end LoadBalancer.Core
