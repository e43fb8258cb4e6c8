import LoadBalancer.Core.IpAddr
import LoadBalancer.Lib.BigEndian
import LoadBalancer.Lib.Fallible
import LoadBalancer.Lib.Stream
import LoadBalancer.Lib.Text
import LoadBalancer.Lib.Utf8

/-!
# The PROXY protocol

The header with which a trusted front-end announces the address of its client
(`crates/lb-server/src/proxy_protocol.rs`): a line of text (v1) or a block of bytes (v2).

Every header that the protocol has is read back: its source address and port, and nothing of what
follows it on the connection (`header_round_trip`).  The other direction is weaker.  A v2 header is
accepted only if it is one, but of a line only the keyword, the protocol, the source address and
the source port are looked at (`accepted_only_if_header_iff`).
-/

namespace LoadBalancer.Server

open LoadBalancer.Core List Except
open BigEndian (toBytes ofBytes length_toBytes ofBytes_toBytes)

/-! ## Reading a header -/

def v2Signature : List UInt8 :=
  [0x0D, 0x0A, 0x0D, 0x0A, 0x00, 0x0D, 0x0A, 0x51, 0x55, 0x49, 0x54, 0x0A]

def v1MaxLen : ℕ := 107

def v2MaxLen : ℕ := 4096

inductive ProxyProtocolError
  | io
  | malformed (reason : String)
  deriving DecidableEq, Repr

/-- The `SocketAddr` of a client that a header announces. -/
structure AnnouncedAddr where
  ip : IpAddr
  port : ℕ
  deriving DecidableEq

def readExact (stream : ChunkStream UInt8) (n : ℕ) :
    Except ProxyProtocolError (List UInt8 × ChunkStream UInt8) :=
  match stream.readExact n with
  | some read => .ok read
  | none => .error .io

def announcedV2 (command family : UInt8) (body : List UInt8) :
    Except ProxyProtocolError (Option AnnouncedAddr) :=
  if command = 0x0 then .ok none
  else if command ≠ 0x1 then .error (.malformed "unsupported v2 command")
  else if family = 0x00 then .ok none
  else if family = 0x11 then
    if body.length < 12 then .error (.malformed "v2 TCPv4 address block too short")
    else .ok (some ⟨.v4 (.ofNat 32 (ofBytes (body.take 4))),
      ofBytes ((body.drop 8).take 2)⟩)
  else if family = 0x21 then
    if body.length < 36 then .error (.malformed "v2 TCPv6 address block too short")
    else .ok (some ⟨.v6 (.ofNat 128 (ofBytes (body.take 16))),
      ofBytes ((body.drop 32).take 2)⟩)
  else .error (.malformed "unsupported v2 address family")

def readV2 (stream : ChunkStream UInt8) :
    Except ProxyProtocolError (Option AnnouncedAddr × ChunkStream UInt8) := do
  let (header, stream) ← readExact stream 16
  if header.take 12 ≠ v2Signature then .error (.malformed "bad v2 signature")
  else
    let verCmd := header.getD 12 0
    let len := ofBytes (header.drop 14)
    if verCmd >>> 4 ≠ 2 then .error (.malformed "unsupported v2 version")
    else if v2MaxLen < len then .error (.malformed "v2 length exceeds sanity bound")
    else do
      let (body, stream) ← readExact stream len
      let addr ← announcedV2 (verCmd &&& 0x0F) (header.getD 13 0) body
      return (addr, stream)

def endsLine (line : List UInt8) : Bool :=
  2 ≤ line.length && line.drop (line.length - 2) == [0x0D, 0x0A]

/-- The loop of `read_v1`.  There is `room` for another byte as long as the line is not longer than
`v1MaxLen`. -/
def readLine : ℕ → List UInt8 → ChunkStream UInt8 →
    Except ProxyProtocolError (List UInt8 × ChunkStream UInt8)
  | 0, _, _ => .error (.malformed "v1 header exceeds 107 bytes")
  | room + 1, line, stream => do
    let (byte, stream) ← readExact stream 1
    if endsLine (line ++ byte) then return (line ++ byte, stream)
    else readLine room (line ++ byte) stream

/-- `trim_end_matches("\r\n")`, of a text from its end to its front. -/
def dropCrLf : List Char → List Char
  | '\n' :: '\r' :: text => dropCrLf text
  | text => text

def trimEndCrLf (text : List Char) : List Char := (dropCrLf text.reverse).reverse

def announcedV1 : List (List Char) → Except ProxyProtocolError (Option AnnouncedAddr)
  | [] => .error (.malformed "v1 header missing PROXY keyword")
  | keyword :: parts =>
    if keyword ≠ "PROXY".toList then .error (.malformed "v1 header missing PROXY keyword")
    else
      match parts with
      | [] => .error (.malformed "v1 header missing protocol field")
      | protocol :: parts =>
        if protocol = "UNKNOWN".toList then .ok none
        else if protocol ≠ "TCP4".toList ∧ protocol ≠ "TCP6".toList then
          .error (.malformed "v1 header has an unsupported protocol")
        else
          match parts with
          | [] => .error (.malformed "v1 header missing source address")
          | [_] => .error (.malformed "v1 header missing destination address")
          | [_, _] => .error (.malformed "v1 header missing source port")
          | [_, _, _] => .error (.malformed "v1 header missing destination port")
          | srcIp :: _ :: srcPort :: _ :: _ =>
            match IpAddr.parse srcIp, Text.parseUnsigned (2 ^ 16) srcPort with
            | none, _ => .error (.malformed "v1 header has an unparseable source address")
            | some _, none => .error (.malformed "v1 header has an unparseable source port")
            | some ip, some port => .ok (some ⟨ip, port⟩)

def readV1 (stream : ChunkStream UInt8) :
    Except ProxyProtocolError (Option AnnouncedAddr × ChunkStream UInt8) := do
  let (line, stream) ← readLine (v1MaxLen + 1) [] stream
  match Utf8.decode line with
  | none => .error (.malformed "v1 header is not valid utf-8")
  | some text => do
    let addr ← announcedV1 ((trimEndCrLf text).splitOn ' ')
    return (addr, stream)

/-- `read_header`.  The first byte is peeked at: it stays on the stream. -/
def readHeader (stream : ChunkStream UInt8) :
    Except ProxyProtocolError (Option AnnouncedAddr × ChunkStream UInt8) :=
  match stream.content with
  | [] => .error (.malformed "connection closed before any header")
  | first :: _ => if first = 0x0D then readV2 stream else readV1 stream

/-! ## Bytes -/

lemma readExact_eq_ok_iff {stream rest : ChunkStream UInt8} {n : ℕ} {bytes : List UInt8} :
    readExact stream n = .ok (bytes, rest) ↔ stream.readExact n = some (bytes, rest) := by
  unfold readExact
  cases stream.readExact n <;> simp

lemma exists_readExact {stream : ChunkStream UInt8} {bytes rest : List UInt8}
    (h : stream.content = bytes ++ rest) :
    ∃ stream', readExact stream bytes.length = .ok (bytes, stream') ∧ stream'.content = rest := by
  obtain ⟨stream', hr, hre⟩ := ChunkStream.exists_readExact h
  exact ⟨stream', readExact_eq_ok_iff.mpr hr, hre⟩

/-! ## Headers of version 2 -/

/-- A v2 header that announces an address: the command PROXY over TCP, with a body that has at
least the two addresses and ports. -/
def IsV2Header (bytes : List UInt8) : Prop :=
  ∃ family hi lo body, bytes = v2Signature ++ [0x21, family, hi, lo] ++ body ∧
    body.length = ofBytes [hi, lo] ∧
    ((family = 0x11 ∧ 12 ≤ body.length) ∨ (family = 0x21 ∧ 36 ≤ body.length))

lemma verCmd_eq {b : UInt8} (hv : b >>> 4 = 2) (hc : b &&& 0x0F = 1) : b = 0x21 := by
  have hv' := congrArg UInt8.toNat hv
  have hc' := congrArg UInt8.toNat hc
  have hm : b.toNat &&& 15 = b.toNat % 16 := Nat.and_two_pow_sub_one_eq_mod b.toNat 4
  rw [UInt8.toNat_shiftRight] at hv'
  rw [UInt8.toNat_and] at hc'
  simp only [UInt8.reduceToNat, Nat.reduceMod]
    at hv' hc'
  rw [← UInt8.toNat_inj]
  simp only [UInt8.reduceToNat]
  omega

lemma announcedV2_eq_some {command family : UInt8} {body : List UInt8} {addr : AnnouncedAddr}
    (h : announcedV2 command family body = .ok (some addr)) :
    command = 1 ∧ ((family = 0x11 ∧ 12 ≤ body.length) ∨ (family = 0x21 ∧ 36 ≤ body.length)) := by
  unfold announcedV2 at h
  split_ifs at h with hl hp hu ht hs htc hs
  · cases h
  · cases h
  · exact ⟨not_not.mp hp, .inl ⟨ht, by omega⟩⟩
  · exact ⟨not_not.mp hp, .inr ⟨htc, by omega⟩⟩

lemma readV2_eq_ok {stream rest : ChunkStream UInt8} {addr : Option AnnouncedAddr}
    (h : readV2 stream = .ok (addr, rest)) :
    ∃ verCmd family hi lo body,
      stream.content = v2Signature ++ [verCmd, family, hi, lo] ++ body ++ rest.content ∧
      body.length = ofBytes [hi, lo] ∧ verCmd >>> 4 = 2 ∧
      announcedV2 (verCmd &&& 0x0F) family body = .ok addr := by
  obtain ⟨⟨header, stream₁⟩, hh, h⟩ := bind_eq_ok_iff.mp h
  obtain ⟨hl, hc⟩ := ChunkStream.readExact_spec (readExact_eq_ok_iff.mp hh)
  rw [ite_error_eq_ok_iff] at h
  obtain ⟨hs, h⟩ := h
  rw [ite_error_eq_ok_iff, ite_error_eq_ok_iff, bind_eq_ok_iff] at h
  obtain ⟨hv, -, ⟨⟨body, stream₂⟩, hbo, h⟩⟩ := h
  obtain ⟨hb, hc₁⟩ := ChunkStream.readExact_spec (readExact_eq_ok_iff.mp hbo)
  obtain ⟨addr', ha, h⟩ := bind_eq_ok_iff.mp h
  cases Except.ok.inj h
  -- The header is the signature and four bytes.
  have hsp : header = v2Signature ++ header.drop 12 := by
    rw [← not_not.mp hs, take_append_drop]
  have hf : (header.drop 12).length = 4 := by
    rw [length_drop]
    omega
  obtain ⟨verCmd, family, hi, lo, hd⟩ := length_eq_four.mp hf
  rw [hd] at hsp
  subst hsp
  exact ⟨verCmd, family, hi, lo, body, by simp [hc, hc₁], hb.symm, not_not.mp hv, ha⟩

lemma isV2Header_of_readV2 {stream rest : ChunkStream UInt8} {addr : AnnouncedAddr}
    (h : readV2 stream = .ok (some addr, rest)) :
    ∃ header, stream.content = header ++ rest.content ∧ IsV2Header header := by
  obtain ⟨verCmd, family, hi, lo, body, hco, hb, hv, ha⟩ := readV2_eq_ok h
  obtain ⟨hc, hf⟩ := announcedV2_eq_some ha
  obtain rfl := verCmd_eq hv hc
  exact ⟨_, hco, family, hi, lo, body, rfl, hb, hf⟩

lemma readV2_of_content {stream : ChunkStream UInt8} {verCmd family hi lo : UInt8}
    {body rest : List UInt8} {addr : Option AnnouncedAddr}
    (hc : stream.content = v2Signature ++ [verCmd, family, hi, lo] ++ body ++ rest)
    (hv : verCmd >>> 4 = 2) (hl : body.length = ofBytes [hi, lo])
    (hm : body.length ≤ v2MaxLen)
    (ha : announcedV2 (verCmd &&& 0x0F) family body = .ok addr) :
    ∃ stream', readV2 stream = .ok (addr, stream') ∧ stream'.content = rest := by
  rw [append_assoc] at hc
  obtain ⟨stream₁, hh, hc₁⟩ := exists_readExact hc
  obtain ⟨stream₂, hb, hc₂⟩ := exists_readExact hc₁
  refine ⟨stream₂, ?_, hc₂⟩
  have hh' : readExact stream 16 =
      .ok (v2Signature ++ [verCmd, family, hi, lo], stream₁) := hh
  have hle : ofBytes ((v2Signature ++ [verCmd, family, hi, lo]).drop 14) = body.length := hl.symm
  rw [readV2, bind_eq_ok_iff]
  refine ⟨_, hh', ?_⟩
  dsimp only
  rw [hle, ite_error_eq_ok_iff, ite_error_eq_ok_iff, ite_error_eq_ok_iff, bind_eq_ok_iff]
  refine ⟨not_not.mpr rfl, not_not.mpr hv, Nat.not_lt.mpr hm, _, hb, ?_⟩
  rw [bind_eq_ok_iff]
  exact ⟨addr, ha, rfl⟩

/-! ## Lines -/

lemma endsLine_iff {line : List UInt8} :
    endsLine line = true ↔ ∃ front, line = front ++ [0x0D, 0x0A] := by
  rw [endsLine, Bool.and_eq_true, beq_iff_eq]
  constructor
  · rintro ⟨-, hd⟩
    exact ⟨line.take (line.length - 2), by rw [← hd, take_append_drop]⟩
  · rintro ⟨front, rfl⟩
    simp

def IsLine (line : List UInt8) : Prop :=
  endsLine line = true ∧ ∀ p, p <+: line → endsLine p = true → p = line

lemma readLine_eq_ok {room : ℕ} {line line' : List UInt8} {stream rest : ChunkStream UInt8}
    (h : readLine room line stream = .ok (line', rest)) :
    ∃ bytes, line' = line ++ bytes ∧ stream.content = bytes ++ rest.content ∧
      bytes.length ≤ room ∧ endsLine line' = true ∧
      ∀ p, line.length < p.length → p <+: line' → endsLine p = true → p = line' := by
  induction room generalizing line stream with
  | zero => cases h
  | succ room ih =>
    obtain ⟨⟨byte, stream₁⟩, hr, h⟩ := bind_eq_ok_iff.mp h
    obtain ⟨hlen, hc⟩ := ChunkStream.readExact_spec (readExact_eq_ok_iff.mp hr)
    dsimp only at h
    by_cases he : endsLine (line ++ byte) = true
    · rw [if_pos he] at h
      cases Except.ok.inj h
      refine ⟨byte, rfl, hc, by omega, he, fun p hp hle _ => hle.eq_of_length ?_⟩
      have := hle.length_le
      simp only [length_append] at this ⊢
      omega
    · rw [if_neg he] at h
      obtain ⟨bytes, rfl, hc₁, hro, he', hf⟩ := ih h
      refine ⟨byte ++ bytes, by simp, by rw [hc, hc₁, append_assoc], ?_, he',
        fun p hp hle hpe => ?_⟩
      · simp only [length_append]
        omega
      · by_cases hl : (line ++ byte).length < p.length
        · exact hf p hl hle hpe
        · -- The prefix is as long as what was read first, which does not end a line.
          have hle' : line ++ byte <+: line ++ byte ++ bytes := prefix_append _ _
          have hp' : p = line ++ byte := by
            refine (prefix_of_prefix_length_le hle hle' (by omega)).eq_of_length ?_
            simp only [length_append] at hl ⊢
            omega
          exact absurd (hp' ▸ hpe) he

lemma readLine_of_content {room : ℕ} {line bytes rest : List UInt8} {stream : ChunkStream UInt8}
    (hc : stream.content = bytes ++ rest) (hr : bytes.length ≤ room)
    (hb : bytes ≠ []) (he : endsLine (line ++ bytes) = true)
    (hf : ∀ p, line.length < p.length → p <+: line ++ bytes → endsLine p = true →
      p = line ++ bytes) :
    ∃ stream', readLine room line stream = .ok (line ++ bytes, stream') ∧
      stream'.content = rest := by
  induction room generalizing line bytes stream with
  | zero => exact absurd (length_eq_zero_iff.mp (Nat.le_zero.mp hr)) hb
  | succ room ih =>
    obtain ⟨byte, bytes, rfl⟩ := exists_cons_of_ne_nil hb
    obtain ⟨stream₁, hre, hc₁⟩ := exists_readExact
      (show stream.content = [byte] ++ (bytes ++ rest) from hc)
    have hr' : readExact stream 1 = .ok ([byte], stream₁) := hre
    unfold readLine
    simp only [bind_eq_ok_iff]
    have ha : line ++ byte :: bytes = line ++ [byte] ++ bytes := by simp
    rw [ha] at he hf ⊢
    by_cases he₁ : endsLine (line ++ [byte]) = true
    · have hal := hf (line ++ [byte]) (by simp) (prefix_append _ _) he₁
      obtain rfl : bytes = [] := by simpa using hal
      rw [append_nil]
      refine ⟨stream₁, ⟨_, hr', ?_⟩, hc₁⟩
      rw [if_pos he₁]
      rfl
    · have hb' : bytes ≠ [] := by
        rintro rfl
        exact he₁ (by simpa using he)
      obtain ⟨stream', hres, hc'⟩ := ih hc₁
        (by simpa using hr) hb' he (fun p hp => hf p (by
          simp only [length_append] at hp
          omega))
      refine ⟨stream', ⟨_, hr', ?_⟩, hc'⟩
      rw [if_neg he₁]
      exact hres

lemma endsLine_ne_nil {line : List UInt8} (h : endsLine line = true) : line ≠ [] := by
  obtain ⟨front, rfl⟩ := endsLine_iff.mp h
  simp

lemma readLine_eq_ok_iff {room : ℕ} {line rest : List UInt8} {stream : ChunkStream UInt8} :
    (∃ stream', readLine room [] stream = .ok (line, stream') ∧ stream'.content = rest) ↔
      stream.content = line ++ rest ∧ line.length ≤ room ∧ IsLine line := by
  constructor
  · rintro ⟨stream', hre, rfl⟩
    obtain ⟨bytes, hl, hc, hr, he, hf⟩ := readLine_eq_ok hre
    obtain rfl : line = bytes := hl
    refine ⟨hc, hr, he, fun p hp hpe => ?_⟩
    exact hf p (length_pos_iff.mpr (endsLine_ne_nil hpe)) hp hpe
  · rintro ⟨hc, hr, he, hf⟩
    exact readLine_of_content hc hr (endsLine_ne_nil he) he
      fun p _ hp hpe => hf p hp hpe

/-- A line that is a text is the text without its end, and CR LF. -/
lemma IsLine.text {text : List Char} (h : IsLine (Utf8.encode text)) :
    ∃ front, text = front ++ ['\r', '\n'] ∧ trimEndCrLf text = front := by
  obtain ⟨hen, hf⟩ := h
  obtain ⟨front, hfr⟩ := endsLine_iff.mp hen
  have hlf : Utf8.encode text = (front ++ [0x0D]) ++ 0x0A :: [] := by simp [hfr]
  obtain ⟨text₁, back, rfl, ht₁, hb⟩ := Utf8.encode_eq_append_cons (by decide) hlf
  obtain rfl : back = [] := Utf8.encode_inj.mp hb
  have hcr : Utf8.encode text₁ = front ++ 0x0D :: [] := ht₁
  obtain ⟨text₂, back, rfl, ht₂, hb⟩ := Utf8.encode_eq_append_cons (by decide) hcr
  obtain rfl : back = [] := Utf8.encode_inj.mp hb
  have hc : text₂ ++ Char.ofNat (0x0D : UInt8).toNat :: [] ++
      Char.ofNat (0x0A : UInt8).toNat :: [] = text₂ ++ ['\r', '\n'] := by simp
  rw [hc] at hf hfr ⊢
  refine ⟨text₂, rfl, ?_⟩
  -- What is in front does not end in CR LF, which would be an earlier end of the line.
  rw [trimEndCrLf, reverse_append]
  have hr : dropCrLf text₂.reverse = text₂.reverse := by
    unfold dropCrLf
    split
    · next earlier he =>
      have ht : text₂ = earlier.reverse ++ ['\r', '\n'] := by
        rw [← reverse_reverse text₂, he]
        simp
      have hs := hf (Utf8.encode text₂)
        (by rw [Utf8.encode_append]; exact prefix_append _ _)
        (endsLine_iff.mpr ⟨Utf8.encode earlier.reverse, by rw [ht, Utf8.encode_append]; rfl⟩)
      exact absurd (Utf8.encode_inj.mp hs) (by simp)
    · rfl
  change (dropCrLf ('\n' :: '\r' :: text₂.reverse)).reverse = text₂
  rw [dropCrLf, hr, reverse_reverse]

lemma isLine_encode {text : List Char} (h : ¬ ['\r', '\n'] <:+: text) :
    IsLine (Utf8.encode (text ++ ['\r', '\n'])) := by
  constructor
  · exact endsLine_iff.mpr ⟨Utf8.encode text, Utf8.encode_append _ _⟩
  · rintro p ⟨later, hli⟩ he
    obtain ⟨front, rfl⟩ := endsLine_iff.mp he
    have hcr : Utf8.encode (text ++ ['\r', '\n']) = front ++ 0x0D :: (0x0A :: later) := by
      simp [← hli]
    obtain ⟨text₁, back, ht, -, hb⟩ := Utf8.encode_eq_append_cons (by decide) hcr
    have hlf : Utf8.encode back = [] ++ 0x0A :: later := hb
    obtain ⟨text₂, back, rfl, ht₂, rfl⟩ := Utf8.encode_eq_append_cons (by decide) hlf
    obtain rfl : text₂ = [] := Utf8.encode_inj.mp ht₂
    have hs : text ++ ['\r', '\n'] = text₁ ++ '\r' :: '\n' :: back := ht
    -- The CR LF that was found is the one at the end.
    rcases eq_nil_or_concat back with rfl | ⟨back, c, rfl⟩
    · simpa [Utf8.encode] using hli
    · exfalso
      have hl : text ++ ['\r'] = text₁ ++ '\r' :: '\n' :: back := by
        have := congrArg List.dropLast hs
        simpa [dropLast_cons_of_ne_nil] using this
      rcases eq_nil_or_concat back with rfl | ⟨back, d, rfl⟩
      · have := congrArg List.getLast? hl
        simp at this
      · rw [concat_eq_append] at hl
        have ht : text = text₁ ++ '\r' :: '\n' :: back := by
          have := congrArg List.dropLast hl
          simpa [dropLast_cons_of_ne_nil] using this
        exact h ⟨text₁, back, by simp [ht]⟩

lemma readV1_eq_ok_iff {stream : ChunkStream UInt8} {addr : Option AnnouncedAddr}
    {rest : List UInt8} :
    (∃ stream', readV1 stream = .ok (addr, stream') ∧ stream'.content = rest) ↔
      ∃ text, stream.content = Utf8.encode (text ++ ['\r', '\n']) ++ rest ∧
        IsLine (Utf8.encode (text ++ ['\r', '\n'])) ∧
        (Utf8.encode (text ++ ['\r', '\n'])).length ≤ v1MaxLen + 1 ∧
        announcedV1 (text.splitOn ' ') = .ok addr := by
  constructor
  · rintro ⟨stream', hr, rfl⟩
    obtain ⟨⟨line, stream₁⟩, hli, hr⟩ := bind_eq_ok_iff.mp hr
    obtain ⟨hc, hl, his⟩ := readLine_eq_ok_iff.mp ⟨stream₁, hli, rfl⟩
    dsimp only at hr
    cases hd : Utf8.decode line with
    | none =>
      rw [hd] at hr
      cases hr
    | some text =>
      rw [hd] at hr
      obtain ⟨addr', ha, hr⟩ := bind_eq_ok_iff.mp hr
      cases Except.ok.inj hr
      obtain rfl := Utf8.decode_eq_some_iff.mp hd
      obtain ⟨front, rfl, ht⟩ := his.text
      rw [ht] at ha
      exact ⟨front, hc, his, hl, ha⟩
  · rintro ⟨text, hc, his, hl, ha⟩
    obtain ⟨stream', hli, hre⟩ := readLine_eq_ok_iff.mpr ⟨hc, hl, his⟩
    obtain ⟨front, hf, ht⟩ := his.text
    obtain rfl : text = front := append_cancel_right hf
    refine ⟨stream', ?_, hre⟩
    rw [readV1, bind_eq_ok_iff]
    refine ⟨_, hli, ?_⟩
    dsimp only
    rw [Utf8.decode_encode]
    dsimp only
    rw [ht, bind_eq_ok_iff]
    exact ⟨addr, ha, rfl⟩

/-! ## Every header is read back -/

/-- A v1 header: the fields with spaces between them, and CR LF. -/
def v1Header (fields : List (List Char)) : List UInt8 :=
  Utf8.encode ([' '].intercalate fields ++ ['\r', '\n'])

/-- A v2 header: the signature, version and command, the family, the length and the body. -/
def v2Header (verCmd family : UInt8) (body : List UInt8) : List UInt8 :=
  v2Signature ++ [verCmd, family] ++ toBytes 2 body.length ++ body

/-- A port in decimal digits. -/
def IsPort (text : List Char) : Prop :=
  text ≠ [] ∧ text.all Char.isDigit = true ∧ Nat.ofDigitChars 10 text 0 < 2 ^ 16

/-- The headers of the protocol, with the address that they announce.  A line may have any text of
an address, not only the one that `display` prints. -/
inductive Header : List UInt8 → Option AnnouncedAddr → Prop
  | tcp4 {src dst : BitVec 32} {srcIp dstIp srcPort dstPort : List Char}
      (hsrc : parseV4 srcIp = some src) (hdst : parseV4 dstIp = some dst)
      (hsrcPort : IsPort srcPort) (hdstPort : IsPort dstPort) {line : List UInt8}
      (hline : line =
        v1Header ["PROXY".toList, "TCP4".toList, srcIp, dstIp, srcPort, dstPort])
      (hlength : line.length ≤ v1MaxLen) :
      Header line (some ⟨.v4 src, Nat.ofDigitChars 10 srcPort 0⟩)
  | tcp6 {src dst : BitVec 128} {srcIp dstIp srcPort dstPort : List Char}
      (hsrc : parseV6 srcIp = some src) (hdst : parseV6 dstIp = some dst)
      (hsrcPort : IsPort srcPort) (hdstPort : IsPort dstPort) {line : List UInt8}
      (hline : line =
        v1Header ["PROXY".toList, "TCP6".toList, srcIp, dstIp, srcPort, dstPort])
      (hlength : line.length ≤ v1MaxLen) :
      Header line (some ⟨.v6 src, Nat.ofDigitChars 10 srcPort 0⟩)
  /-- What stands after `UNKNOWN` and a space may be anything. -/
  | unknown {ignored : List Char} (hignored : ignored = [] ∨ ∃ more, ignored = ' ' :: more)
      (hcrlf : ¬ ['\r', '\n'] <:+: ignored) {line : List UInt8}
      (hline : line = Utf8.encode ("PROXY UNKNOWN".toList ++ ignored ++ ['\r', '\n']))
      (hlength : line.length ≤ v1MaxLen) : Header line none
  | v2Tcp4 (src dst : BitVec 32) {srcPort dstPort : ℕ} (hsrc : srcPort < 2 ^ 16)
      (hdst : dstPort < 2 ^ 16) (tlvs : List UInt8) {body : List UInt8}
      (hbody : body = toBytes 4 src.toNat ++ toBytes 4 dst.toNat ++ toBytes 2 srcPort ++
        toBytes 2 dstPort ++ tlvs) (hlength : body.length ≤ v2MaxLen) :
      Header (v2Header 0x21 0x11 body) (some ⟨.v4 src, srcPort⟩)
  | v2Tcp6 (src dst : BitVec 128) {srcPort dstPort : ℕ} (hsrc : srcPort < 2 ^ 16)
      (hdst : dstPort < 2 ^ 16) (tlvs : List UInt8) {body : List UInt8}
      (hbody : body = toBytes 16 src.toNat ++ toBytes 16 dst.toNat ++ toBytes 2 srcPort ++
        toBytes 2 dstPort ++ tlvs) (hlength : body.length ≤ v2MaxLen) :
      Header (v2Header 0x21 0x21 body) (some ⟨.v6 src, srcPort⟩)
  | v2Local (family : UInt8) {body : List UInt8} (hlength : body.length ≤ v2MaxLen) :
      Header (v2Header 0x20 family body) none
  | v2Unspec {body : List UInt8} (hlength : body.length ≤ v2MaxLen) :
      Header (v2Header 0x21 0x00 body) none

lemma readHeader_v2 {stream : ChunkStream UInt8} {verCmd family : UInt8}
    {body rest : List UInt8} {addr : Option AnnouncedAddr}
    (hc : stream.content = v2Header verCmd family body ++ rest)
    (hv : verCmd >>> 4 = 2) (hm : body.length ≤ v2MaxLen)
    (ha : announcedV2 (verCmd &&& 0x0F) family body = .ok addr) :
    ∃ stream', readHeader stream = .ok (addr, stream') ∧ stream'.content = rest := by
  have ht : (toBytes 2 body.length).length = 2 := length_toBytes
  obtain ⟨hi, lo, hb⟩ := length_eq_two.mp ht
  have hl : body.length = ofBytes [hi, lo] := by
    rw [← hb, ofBytes_toBytes (by rw [v2MaxLen] at hm; omega)]
  have hc' : stream.content = v2Signature ++ [verCmd, family, hi, lo] ++ body ++ rest := by
    rw [hc, v2Header, hb]
    simp
  obtain ⟨stream', hr, hre⟩ := readV2_of_content hc' hv hl hm ha
  refine ⟨stream', ?_, hre⟩
  rw [readHeader, hc']
  exact hr

lemma exists_cons_of_announcedV1 {text : List Char} {addr : Option AnnouncedAddr}
    (h : announcedV1 (text.splitOn ' ') = .ok addr) : ∃ more, text = 'P' :: more := by
  have hj : [' '].intercalate (text.splitOn ' ') = text := intercalate_splitOn ' '
  cases hf : text.splitOn ' ' with
  | nil =>
    rw [hf] at h
    cases h
  | cons keyword parts =>
    rw [hf] at h
    unfold announcedV1 at h
    rw [ite_error_eq_ok_iff, not_not] at h
    rw [hf, h.1] at hj
    cases parts with
    | nil => exact ⟨"ROXY".toList, by rw [← hj]; rfl⟩
    | cons field parts =>
      exact ⟨_, hj.symm⟩

lemma readHeader_eq_readV1 {stream : ChunkStream UInt8} {more : List Char}
    {rest : List UInt8} (hc : stream.content = Utf8.encode ('P' :: more) ++ rest) :
    readHeader stream = readV1 stream := by
  have hf : stream.content = 0x50 :: (Utf8.encode more ++ rest) := hc
  rw [readHeader, hf]
  exact if_neg (by decide)

lemma readHeader_v1 {stream : ChunkStream UInt8} {text : List Char}
    {rest : List UInt8} {addr : Option AnnouncedAddr}
    (hc : stream.content = Utf8.encode (text ++ ['\r', '\n']) ++ rest)
    (hcr : ¬ ['\r', '\n'] <:+: text)
    (hl : (Utf8.encode (text ++ ['\r', '\n'])).length ≤ v1MaxLen)
    (ha : announcedV1 (text.splitOn ' ') = .ok addr) :
    ∃ stream', readHeader stream = .ok (addr, stream') ∧ stream'.content = rest := by
  obtain ⟨stream', hr, hre⟩ := readV1_eq_ok_iff.mpr
    ⟨text, hc, isLine_encode hcr, by omega, ha⟩
  obtain ⟨more, rfl⟩ := exists_cons_of_announcedV1 ha
  exact ⟨stream', (readHeader_eq_readV1 hc).trans hr, hre⟩

section

def isFieldChar (c : Char) : Bool := c ≠ ' ' && c ≠ '\r'

lemma isFieldChar_of_isDigit {c : Char} (h : c.isDigit = true) : isFieldChar c = true := by
  have hs : c ≠ ' ' := by
    rintro rfl
    exact absurd h (by decide)
  have hcr : c ≠ '\r' := by
    rintro rfl
    exact absurd h (by decide)
  simp [isFieldChar, hs, hcr]

lemma isFieldChar_of_parse {text : List Char} {ip : IpAddr} (h : IpAddr.parse text = some ip)
    {c : Char} (hc : c ∈ text) : isFieldChar c = true := by
  have hb := (isAddrChar_of_parse h hc).toNat_bounds
  have hs : c ≠ ' ' := by
    rintro rfl
    exact absurd hb.1 (by decide)
  have hcr : c ≠ '\r' := by
    rintro rfl
    exact absurd hb.1 (by decide)
  simp [isFieldChar, hs, hcr]

lemma readHeader_fields {stream : ChunkStream UInt8} {fields : List (List Char)}
    {rest : List UInt8} {addr : Option AnnouncedAddr}
    (hco : stream.content = v1Header fields ++ rest) (hfi : fields ≠ [])
    (hc : ∀ field ∈ fields, ∀ c ∈ field, isFieldChar c = true)
    (hl : (v1Header fields).length ≤ v1MaxLen)
    (ha : announcedV1 fields = .ok addr) :
    ∃ stream', readHeader stream = .ok (addr, stream') ∧ stream'.content = rest := by
  have hs : ∀ field ∈ fields, ' ' ∉ field := fun field hf hsp =>
    absurd (hc field hf ' ' hsp) (by decide)
  have hspl : ([' '].intercalate fields).splitOn ' ' = fields := splitOn_intercalate ' ' hs hfi
  -- A carriage return would be in a field, or be the space between two.
  have hcr : '\r' ∉ [' '].intercalate fields := by
    intro hm
    rcases Text.mem_of_mem_intercalate hm with heq | ⟨field, hf, hcr⟩
    · exact absurd heq (by decide)
    · exact absurd (hc field hf '\r' hcr) (by decide)
  refine readHeader_v1 hco (fun hw => hcr (hw.subset (by simp))) hl ?_
  rw [hspl]
  exact ha

lemma IsPort.parseUnsigned {text : List Char} (h : IsPort text) :
    Text.parseUnsigned (2 ^ 16) text = some (Nat.ofDigitChars 10 text 0) := by
  have hp : text.head? ≠ some '+' := fun hh =>
    absurd (all_eq_true.mp h.2.1 '+' (mem_of_mem_head? hh)) (by decide)
  rw [Text.parseUnsigned, if_neg hp]
  exact if_pos h

lemma addressBlock (width src dst srcPort dstPort : ℕ) (tlvs : List UInt8) :
    let body := toBytes width src ++ toBytes width dst ++ toBytes 2 srcPort ++
      toBytes 2 dstPort ++ tlvs
    body.take width = toBytes width src ∧
      (body.drop (width + width)).take 2 = toBytes 2 srcPort ∧
      ¬ body.length < width + width + 4 := by
  refine ⟨?_, ?_, ?_⟩
  · rw [append_assoc, append_assoc, append_assoc]
    exact take_left' length_toBytes
  · rw [append_assoc, append_assoc, drop_left' (by simp)]
    exact take_left' length_toBytes
  · simp only [length_append, length_toBytes]
    omega

lemma announcedV2_tcp4 (src dst : BitVec 32) {srcPort : ℕ} (hs : srcPort < 2 ^ 16)
    (dstPort : ℕ) (tlvs : List UInt8) :
    announcedV2 (0x21 &&& 0x0F) 0x11 (toBytes 4 src.toNat ++ toBytes 4 dst.toNat ++
      toBytes 2 srcPort ++ toBytes 2 dstPort ++ tlvs) = .ok (some ⟨.v4 src, srcPort⟩) := by
  obtain ⟨hip, hp, hl⟩ := addressBlock 4 src.toNat dst.toNat srcPort dstPort tlvs
  unfold announcedV2
  rw [if_neg (by decide), if_neg (by decide), if_neg (by decide), if_pos rfl, if_neg hl, hip,
    hp, ofBytes_toBytes (by have := src.isLt; omega), ofBytes_toBytes (by omega),
    BitVec.ofNat_toNat, BitVec.setWidth_eq]

lemma announcedV2_tcp6 (src dst : BitVec 128) {srcPort : ℕ} (hs : srcPort < 2 ^ 16)
    (dstPort : ℕ) (tlvs : List UInt8) :
    announcedV2 (0x21 &&& 0x0F) 0x21 (toBytes 16 src.toNat ++ toBytes 16 dst.toNat ++
      toBytes 2 srcPort ++ toBytes 2 dstPort ++ tlvs) = .ok (some ⟨.v6 src, srcPort⟩) := by
  obtain ⟨hip, hp, hl⟩ := addressBlock 16 src.toNat dst.toNat srcPort dstPort tlvs
  unfold announcedV2
  rw [if_neg (by decide), if_neg (by decide), if_neg (by decide), if_neg (by decide), if_pos rfl,
    if_neg hl, hip, hp, ofBytes_toBytes (by have := src.isLt; omega),
    ofBytes_toBytes (by omega), BitVec.ofNat_toNat, BitVec.setWidth_eq]

lemma announcedV1_unknown {ignored : List Char}
    (hig : ignored = [] ∨ ∃ more, ignored = ' ' :: more) :
    announcedV1 (("PROXY UNKNOWN".toList ++ ignored).splitOn ' ') = .ok none := by
  have hs : ' ' ∉ "PROXY".toList := by decide
  have hk : ("PROXY".toList ++ ' ' :: ("UNKNOWN".toList ++ ignored)).splitOn ' ' =
      "PROXY".toList :: ("UNKNOWN".toList ++ ignored).splitOn ' ' :=
    splitOn_append_cons_self_of_not_mem hs _
  have hu : ∃ fields, ("UNKNOWN".toList ++ ignored).splitOn ' ' =
      "UNKNOWN".toList :: fields := by
    rcases hig with rfl | ⟨more, rfl⟩
    · exact ⟨[], splitOn_eq_singleton (by decide)⟩
    · exact ⟨_, splitOn_append_cons_self_of_not_mem (by decide) more⟩
  obtain ⟨fields, hu⟩ := hu
  rw [hu] at hk
  have ht : "PROXY UNKNOWN".toList ++ ignored =
      "PROXY".toList ++ ' ' :: ("UNKNOWN".toList ++ ignored) := by simp
  rw [ht, hk]
  rfl

lemma infix_of_append {front back : List Char} (hf : '\r' ∉ front)
    (h : ['\r', '\n'] <:+: front ++ back) : ['\r', '\n'] <:+: back := by
  obtain ⟨before, after, h⟩ := h
  rw [append_assoc] at h
  rcases append_eq_append_iff.mp h with ⟨u, rfl, hu⟩ | ⟨u, rfl, rfl⟩
  · cases u with
    | nil => exact ⟨[], after, by simpa using hu⟩
    | cons c u =>
      obtain ⟨rfl, -⟩ := List.cons.inj hu
      exact absurd hf (by simp)
  · exact ⟨u, after, by simp⟩

lemma readHeader_tcp {stream : ChunkStream UInt8} {rest : List UInt8} {src dst : IpAddr}
    {protocol srcIp dstIp srcPort dstPort : List Char}
    (hp : protocol = "TCP4".toList ∨ protocol = "TCP6".toList)
    (hsr : IpAddr.parse srcIp = some src) (hds : IpAddr.parse dstIp = some dst)
    (hs : IsPort srcPort) (hd : IsPort dstPort)
    (hco : stream.content =
      v1Header ["PROXY".toList, protocol, srcIp, dstIp, srcPort, dstPort] ++ rest)
    (hl : (v1Header ["PROXY".toList, protocol, srcIp, dstIp, srcPort, dstPort]).length ≤
      v1MaxLen) :
    ∃ stream', readHeader stream =
        .ok (some ⟨src, Nat.ofDigitChars 10 srcPort 0⟩, stream') ∧ stream'.content = rest := by
  have hk : "PROXY".toList.all isFieldChar = true := by decide
  have hp' : protocol.all isFieldChar = true := by
    rcases hp with rfl | rfl <;> decide
  have hpo : ∀ {text}, IsPort text → ∀ c ∈ text, isFieldChar c = true := fun h c hc =>
    isFieldChar_of_isDigit (all_eq_true.mp h.2.1 c hc)
  refine readHeader_fields hco (by simp) ?_ hl ?_
  · simp only [forall_mem_cons, not_mem_nil, false_imp_iff, implies_true, and_true]
    exact ⟨all_eq_true.mp hk, all_eq_true.mp hp', fun c => isFieldChar_of_parse hsr,
      fun c => isFieldChar_of_parse hds, hpo hs, hpo hd⟩
  · have hpa := hs.parseUnsigned
    unfold announcedV1
    rcases hp with rfl | rfl <;> dsimp only <;> rw [hsr, hpa] <;> rfl

/-- Every header of the protocol, followed by anything and delivered in any chunks, is read back:
its source address and port, or no address, and what follows is left. -/
theorem header_round_trip {header : List UInt8} {addr : Option AnnouncedAddr}
    (hheader : Header header addr) {stream : ChunkStream UInt8} {rest : List UInt8}
    (hcontent : stream.content = header ++ rest) :
    ∃ stream', readHeader stream = .ok (addr, stream') ∧ stream'.content = rest := by
  cases hheader with
  | tcp4 hsr hds hs hd hli hl =>
    subst hli
    exact readHeader_tcp (.inl rfl) (parse_eq_v4 hsr) (parse_eq_v4 hds) hs hd
      hcontent hl
  | tcp6 hsr hds hs hd hli hl =>
    subst hli
    exact readHeader_tcp (.inr rfl) (parse_eq_v6 hsr) (parse_eq_v6 hds) hs hd
      hcontent hl
  | unknown hig hc hli hl =>
    subst hli
    exact readHeader_v1 hcontent (fun h => hc (infix_of_append (by decide) h)) hl
      (announcedV1_unknown hig)
  | @v2Tcp4 src dst srcPort dstPort hsr hds tlvs body hb hl =>
    refine readHeader_v2 hcontent (by decide) hl ?_
    rw [hb]
    exact announcedV2_tcp4 src dst hsr dstPort tlvs
  | @v2Tcp6 src dst srcPort dstPort hsr hds tlvs body hb hl =>
    refine readHeader_v2 hcontent (by decide) hl ?_
    rw [hb]
    exact announcedV2_tcp6 src dst hsr dstPort tlvs
  | v2Local family hl => exact readHeader_v2 hcontent (by decide) hl rfl
  | v2Unspec hl => exact readHeader_v2 hcontent (by decide) hl rfl

end

/-- The line of a client at `2001:db8::7`, written with a zero in front, delivered in two chunks
with the request behind it. -/
theorem header_round_trip_line :
    ∃ stream', readHeader
        ⟨["PROXY TCP6 2001:0DB8::7 ::ffff:10.0.".toList.map fun c => UInt8.ofNat c.toNat,
          "0.1 56324 443\r\nGET /".toList.map fun c => UInt8.ofNat c.toNat], by decide⟩ =
      .ok (some ⟨.v6 0x20010DB8000000000000000000000007, 56324⟩, stream') ∧
      stream'.content = "GET /".toList.map fun c => UInt8.ofNat c.toNat := by
  have hsr : parseV6 "2001:0DB8::7".toList = some 0x20010DB8000000000000000000000007 := by decide
  have hds : parseV6 "::ffff:10.0.0.1".toList = some 0x0000FFFF0A000001 := by decide
  have hs : IsPort "56324".toList := by unfold IsPort; decide
  have hd : IsPort "443".toList := by unfold IsPort; decide
  refine header_round_trip (.tcp6 hsr hds hs hd rfl ?_) ?_
  · decide
  · decide

/-! ## What is accepted -/

section

/-- An address of the family that the protocol announces. -/
def OfFamily (protocol text : List Char) : Prop :=
  (protocol = "TCP4".toList ∧ (parseV4 text).isSome = true) ∨
    (protocol = "TCP6".toList ∧ (parseV6 text).isSome = true)

def IsV1Header (bytes : List UInt8) : Prop :=
  bytes.length ≤ v1MaxLen ∧ ∃ text protocol srcIp dstIp srcPort dstPort,
    bytes = Utf8.encode (text ++ ['\r', '\n']) ∧
    text.splitOn ' ' = ["PROXY".toList, protocol, srcIp, dstIp, srcPort, dstPort] ∧
    OfFamily protocol srcIp ∧ OfFamily protocol dstIp ∧ IsPort srcPort ∧ IsPort dstPort

def AcceptedOnlyIfHeader (stream : ChunkStream UInt8) : Prop :=
  ∀ addr stream', readHeader stream = .ok (some addr, stream') →
    ∃ header, stream.content = header ++ stream'.content ∧
      (IsV1Header header ∨ IsV2Header header)

/-- A line that passes the checks of `read_v1` and is no header: it is too long, has more than six
fields, an address that is not of the announced family, or a port that is not one. -/
def IsLooseLine (line : List UInt8) : Prop :=
  ∃ text protocol srcIp dstIp srcPort dstPort extra,
    line = Utf8.encode (text ++ ['\r', '\n']) ∧
    text.splitOn ' ' =
      "PROXY".toList :: protocol :: srcIp :: dstIp :: srcPort :: dstPort :: extra ∧
    (protocol = "TCP4".toList ∨ protocol = "TCP6".toList) ∧
    (IpAddr.parse srcIp).isSome = true ∧
    (Text.parseUnsigned (2 ^ 16) srcPort).isSome = true ∧
    (v1MaxLen < line.length ∨ extra ≠ [] ∨ ¬ OfFamily protocol srcIp ∨
      ¬ OfFamily protocol dstIp ∨ ¬ IsPort srcPort ∨ ¬ IsPort dstPort)

lemma announcedV1_eq_some {fields : List (List Char)} {addr : AnnouncedAddr}
    (h : announcedV1 fields = .ok (some addr)) :
    ∃ protocol srcIp dstIp srcPort dstPort extra,
      fields = "PROXY".toList :: protocol :: srcIp :: dstIp :: srcPort :: dstPort :: extra ∧
      (protocol = "TCP4".toList ∨ protocol = "TCP6".toList) ∧
      IpAddr.parse srcIp = some addr.ip ∧
      Text.parseUnsigned (2 ^ 16) srcPort = some addr.port := by
  unfold announcedV1 at h
  match fields with
  | [] => cases h
  | keyword :: parts =>
    rw [ite_error_eq_ok_iff, not_not] at h
    obtain ⟨rfl, h⟩ := h
    match parts with
    | [] => cases h
    | protocol :: parts =>
      dsimp only at h
      by_cases hu : protocol = "UNKNOWN".toList
      · rw [if_pos hu] at h
        cases h
      · rw [if_neg hu, ite_error_eq_ok_iff, not_and_or, not_not, not_not] at h
        obtain ⟨hpr, h⟩ := h
        match parts with
        | [] => cases h
        | [_] => cases h
        | [_, _] => cases h
        | [_, _, _] => cases h
        | srcIp :: dstIp :: srcPort :: dstPort :: extra =>
          dsimp only at h
          cases hip : IpAddr.parse srcIp with
          | none => rw [hip] at h; cases h
          | some ip =>
            cases hp : Text.parseUnsigned (2 ^ 16) srcPort with
            | none => rw [hip, hp] at h; cases h
            | some port =>
              rw [hip, hp] at h
              cases Except.ok.inj h
              exact ⟨protocol, srcIp, dstIp, srcPort, dstPort, extra, rfl, hpr, hip, hp⟩

lemma isV1Header_or_isLooseLine {text : List Char} {addr : AnnouncedAddr}
    (h : announcedV1 (text.splitOn ' ') = .ok (some addr)) :
    IsV1Header (Utf8.encode (text ++ ['\r', '\n'])) ∨
      IsLooseLine (Utf8.encode (text ++ ['\r', '\n'])) := by
  obtain ⟨protocol, srcIp, dstIp, srcPort, dstPort, extra, hf, hp, hip, hpo⟩ :=
    announcedV1_eq_some h
  by_cases hl : v1MaxLen < (Utf8.encode (text ++ ['\r', '\n'])).length ∨ extra ≠ [] ∨
      ¬ OfFamily protocol srcIp ∨ ¬ OfFamily protocol dstIp ∨ ¬ IsPort srcPort ∨
      ¬ IsPort dstPort
  · exact .inr ⟨text, protocol, srcIp, dstIp, srcPort, dstPort, extra, rfl, hf, hp,
      by rw [hip]; rfl, by rw [hpo]; rfl, hl⟩
  · simp only [not_or, not_lt, not_not] at hl
    obtain ⟨hle, rfl, hsr, hds, hs, hd⟩ := hl
    exact .inl ⟨hle, text, protocol, srcIp, dstIp, srcPort, dstPort, rfl, hf, hsr, hds, hs, hd⟩

lemma IsLooseLine.announced {line : List UInt8} (h : IsLooseLine line) :
    ∃ text addr, line = Utf8.encode (text ++ ['\r', '\n']) ∧
      announcedV1 (text.splitOn ' ') = .ok (some addr) := by
  obtain ⟨text, protocol, srcIp, dstIp, srcPort, dstPort, extra, hl, hf, hpr, hip, hp, -⟩ := h
  obtain ⟨ip, hip⟩ := Option.isSome_iff_exists.mp hip
  obtain ⟨port, hp⟩ := Option.isSome_iff_exists.mp hp
  refine ⟨text, ⟨ip, port⟩, hl, ?_⟩
  rw [hf]
  unfold announcedV1
  rcases hpr with rfl | rfl <;> dsimp only <;> rw [hip, hp] <;> rfl

lemma IsLooseLine.not_header {line : List UInt8} (h : IsLooseLine line) :
    ¬ (IsV1Header line ∨ IsV2Header line) := by
  obtain ⟨text', addr, hl', ha⟩ := h.announced
  obtain ⟨text, protocol, srcIp, dstIp, srcPort, dstPort, extra, hli, hf, -, -, -, hl⟩ := h
  rintro (⟨hle, text₁, protocol₁, srcIp₁, dstIp₁, srcPort₁, dstPort₁, hl₁, hf₁, hsr,
    hds, hs, hd⟩ | ⟨family, hi, lo, body, hh, -⟩)
  · obtain rfl : text = text₁ := append_cancel_right (Utf8.encode_inj.mp (hli.symm.trans hl₁))
    rw [hf] at hf₁
    obtain ⟨-, rfl, rfl, rfl, rfl, rfl, rfl⟩ := hf₁
    rcases hl with h | h | h | h | h | h
    · omega
    · exact h rfl
    · exact h hsr
    · exact h hds
    · exact h hs
    · exact h hd
  · -- A line begins with the keyword, and a v2 header with the signature.
    obtain ⟨more, rfl⟩ := exists_cons_of_announcedV1 ha
    rw [hh] at hl'
    have hfi : (0x0D : UInt8) = 0x50 := (List.cons.inj hl').1
    exact absurd hfi (by decide)

lemma not_acceptedOnlyIfHeader {stream : ChunkStream UInt8} {line rest : List UInt8}
    (hc : stream.content = line ++ rest) (hli : IsLine line)
    (hle : line.length ≤ v1MaxLen + 1) (hl : IsLooseLine line) :
    ¬ AcceptedOnlyIfHeader stream := by
  intro hac
  obtain ⟨text, addr, rfl, ha⟩ := hl.announced
  obtain ⟨stream', hr, rfl⟩ := readV1_eq_ok_iff.mpr
    ⟨text, hc, hli, hle, ha⟩
  obtain ⟨more, hm⟩ := exists_cons_of_announcedV1 ha
  have hf : stream.content =
      Utf8.encode ('P' :: (more ++ ['\r', '\n'])) ++ stream'.content := by
    rw [hc, hm, cons_append]
  obtain ⟨header, hh, hw⟩ := hac addr stream' ((readHeader_eq_readV1 hf).trans hr)
  obtain rfl := append_cancel_right (hc.symm.trans hh)
  exact hl.not_header hw

/-- A header is accepted only if it is one, exactly if the stream does not begin with a loose
line. -/
theorem accepted_only_if_header_iff {stream : ChunkStream UInt8} :
    AcceptedOnlyIfHeader stream ↔
      ¬ ∃ line rest, stream.content = line ++ rest ∧ IsLine line ∧
        line.length ≤ v1MaxLen + 1 ∧ IsLooseLine line := by
  constructor
  · rintro hac ⟨line, rest, hc, hli, hl, hlo⟩
    exact not_acceptedOnlyIfHeader hc hli hl hlo hac
  · intro hs addr stream' hr
    unfold readHeader at hr
    split at hr
    · cases hr
    · split_ifs at hr
      · obtain ⟨header, hc, hh⟩ := isV2Header_of_readV2 hr
        exact ⟨header, hc, .inr hh⟩
      · obtain ⟨text, hc, hli, hl, ha⟩ := readV1_eq_ok_iff.mp ⟨stream', hr, rfl⟩
        refine ⟨_, hc, .inl ?_⟩
        refine (isV1Header_or_isLooseLine ha).resolve_right fun hlo => hs ?_
        exact ⟨_, stream'.content, hc, hli, hl, hlo⟩

end

/-- A line with no destination address and no destination port announces 203.0.113.7. -/
theorem loose_line_accepted :
    ¬ AcceptedOnlyIfHeader
      ⟨["PROXY TCP4 203.0.113.7 nowhere 80 none\r\n".toList.map fun c => UInt8.ofNat c.toNat],
        by decide⟩ := by
  have hl : IsLooseLine
      (Utf8.encode ("PROXY TCP4 203.0.113.7 nowhere 80 none".toList ++ ['\r', '\n'])) := by
    refine ⟨_, "TCP4".toList, "203.0.113.7".toList, "nowhere".toList, "80".toList, "none".toList,
      [], rfl, by decide, .inl rfl, by decide, by decide, ?_⟩
    simp [IsPort]
  have hc : (⟨["PROXY TCP4 203.0.113.7 nowhere 80 none\r\n".toList.map fun c =>
      UInt8.ofNat c.toNat], by decide⟩ : ChunkStream UInt8).content =
      Utf8.encode ("PROXY TCP4 203.0.113.7 nowhere 80 none".toList ++ ['\r', '\n']) ++ [] := by
    decide
  exact not_acceptedOnlyIfHeader hc (isLine_encode (by decide)) (by decide) hl

end LoadBalancer.Server
