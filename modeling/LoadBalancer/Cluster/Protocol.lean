import LoadBalancer.Lib.BigEndian
import LoadBalancer.Lib.Fallible
import LoadBalancer.Lib.Json
import LoadBalancer.Lib.Stream

/-!
# Gossip frames

Peers exchange `SyncMessage`s as frames `[4-byte length][32-byte tag][JSON payload]`, the length
covering tag and payload (`crates/lb-cluster/src/protocol.rs`).  This file models the printer
`encode` and the parser `readMessage` over a chunked byte stream.

JSON and HMAC are crates: they enter as the fields of `WireCrates`, and the one thing that is
assumed of them — decoding inverts encoding — is a hypothesis of the theorem, stated for the
messages at hand.
-/

namespace LoadBalancer.Cluster

open Except
open BigEndian (toBytes ofBytes length_toBytes ofBytes_toBytes toBytes_ofBytes)

abbrev Bytes := List UInt8

structure KeyEntry where
  key : String
  buckets : List (ℕ × ℕ)
  deriving DecidableEq

structure SyncMessage where
  nodeId : String
  incarnation : ℕ
  entries : List KeyEntry
  deriving DecidableEq

/-- What the derived `Serialize` prints. -/
def KeyEntry.toJson (entry : KeyEntry) : List Char :=
  Json.obj [("key", Json.str entry.key),
    ("buckets", Json.arr (entry.buckets.map fun b => Json.arr [Json.nat b.1, Json.nat b.2]))]

def SyncMessage.toJson (msg : SyncMessage) : List Char :=
  Json.obj [("node_id", Json.str msg.nodeId), ("incarnation", Json.nat msg.incarnation),
    ("entries", Json.arr (msg.entries.map KeyEntry.toJson))]

def hmacTagLen : ℕ := 32

def maxMessageBytes : ℕ := 4 * 1024 * 1024

/-- The two crates the protocol is written against: `serde_json` and `hmac` over SHA-256. -/
structure WireCrates where
  toVec : SyncMessage → Except String Bytes
  fromSlice : Bytes → Except String SyncMessage
  tagFor : Bytes → Bytes → Vector UInt8 hmacTagLen

inductive ErrorKind
  | unexpectedEof
  | invalidData
  | permissionDenied
  deriving DecidableEq, Repr

structure IoError where
  kind : ErrorKind
  message : String
  deriving DecidableEq, Repr

/-! ## Printing and parsing -/

variable (W : WireCrates)

def encode (msg : SyncMessage) (secret : Bytes) : Except String Bytes := do
  let payload ← W.toVec msg
  let tag := W.tagFor secret payload
  let len := (hmacTagLen + payload.length) % 2 ^ 32
  return toBytes 4 len ++ tag.toList ++ payload

/-- `AsyncReadExt::read_exact`, with the error it reports at the end of the stream. -/
def readExact (reader : ChunkStream UInt8) (n : ℕ) : Except IoError (Bytes × ChunkStream UInt8) :=
  match reader.readExact n with
  | some r => .ok r
  | none => .error ⟨.unexpectedEof, "early eof"⟩

/-- What is left to do with the bytes of a frame: check the tag, then parse the payload.
Unauthenticated bytes do not reach the deserialiser. -/
def openFrame (secret framed : Bytes) : Except IoError SyncMessage :=
  let (tag, payload) := framed.splitAt hmacTagLen
  if (W.tagFor secret payload).toList ≠ tag then
    .error ⟨.permissionDenied, "peer message failed authentication"⟩
  else match W.fromSlice payload with
  | .ok msg => .ok msg
  | .error e => .error ⟨.invalidData, "malformed sync message: " ++ e⟩

def readMessage (reader : ChunkStream UInt8) (secret : Bytes) :
    Except IoError (SyncMessage × ChunkStream UInt8) := do
  let (lenBytes, reader) ← readExact reader 4
  let len := ofBytes lenBytes
  if maxMessageBytes < len then
    .error ⟨.invalidData, "peer announced " ++ toString len ++ " byte message, over the " ++
      toString maxMessageBytes ++ " limit"⟩
  else if len < hmacTagLen then
    .error ⟨.invalidData, "message too short to contain an authentication tag"⟩
  else do
    let (framed, reader) ← readExact reader len
    let msg ← openFrame W secret framed
    .ok (msg, reader)

def readMessages (secret : Bytes) : ℕ → ChunkStream UInt8 →
    Except IoError (List SyncMessage × ChunkStream UInt8)
  | 0, reader => .ok ([], reader)
  | n + 1, reader => do
    let (msg, reader) ← readMessage W reader secret
    let (msgs, reader) ← readMessages secret n reader
    .ok (msg :: msgs, reader)

/-! ## The frame a message is read from -/

variable {secret : Bytes} {reader : ChunkStream UInt8} {msg : SyncMessage}
  {reader' : ChunkStream UInt8}

lemma readExact_eq_ok {n : ℕ} {buf : Bytes} (h : readExact reader n = .ok (buf, reader')) :
    n = buf.length ∧ reader.content = buf ++ reader'.content := by
  unfold readExact at h
  split at h
  · rename_i r hr
    cases h
    exact ChunkStream.readExact_spec hr
  · cases h

lemma exists_readExact_eq_ok {buf rest : Bytes} (h : reader.content = buf ++ rest) :
    ∃ reader', readExact reader buf.length = .ok (buf, reader') ∧ reader'.content = rest := by
  obtain ⟨reader', hr, hre⟩ := ChunkStream.exists_readExact h
  exact ⟨reader', by rw [readExact, hr], hre⟩

/-- A frame at the front of the stream: its payload, with the tag of the payload and the length
of both before it. -/
def frame (secret payload : Bytes) : Bytes :=
  toBytes 4 (hmacTagLen + payload.length) ++ ((W.tagFor secret payload).toList ++ payload)

lemma lt_u32_of_le_maxMessageBytes {n : ℕ} (h : n ≤ maxMessageBytes) : n < 256 ^ 4 :=
  h.trans_lt (by decide)

lemma encode_eq_frame {payload : Bytes} (hp : W.toVec msg = .ok payload)
    (hl : hmacTagLen + payload.length ≤ maxMessageBytes) :
    encode W msg secret = .ok (frame W secret payload) := by
  have hm : (hmacTagLen + payload.length) % 2 ^ 32 = hmacTagLen + payload.length :=
    Nat.mod_eq_of_lt (lt_u32_of_le_maxMessageBytes hl)
  rw [encode, bind_eq_ok_iff]
  refine ⟨payload, hp, ?_⟩
  dsimp only
  rw [hm, List.append_assoc]
  rfl

lemma openFrame_eq_ok_iff {framed : Bytes} :
    openFrame W secret framed = .ok msg ↔
      (W.tagFor secret (framed.drop hmacTagLen)).toList = framed.take hmacTagLen ∧
        W.fromSlice (framed.drop hmacTagLen) = .ok msg := by
  unfold openFrame
  rw [List.splitAt_eq]
  dsimp only
  rw [ite_error_eq_ok_iff, not_not]
  refine and_congr_right fun _ => ?_
  cases W.fromSlice (framed.drop hmacTagLen) <;> simp

lemma readMessage_eq_ok_iff :
    readMessage W reader secret = .ok (msg, reader') ↔
      ∃ lenBytes r, readExact reader 4 = .ok (lenBytes, r) ∧
        ofBytes lenBytes ≤ maxMessageBytes ∧ hmacTagLen ≤ ofBytes lenBytes ∧
        ∃ framed, readExact r (ofBytes lenBytes) = .ok (framed, reader') ∧
          openFrame W secret framed = .ok msg := by
  simp only [readMessage, bind_eq_ok_iff, ite_error_eq_ok_iff, Prod.exists, not_lt]
  constructor
  · rintro ⟨lenBytes, r, hr, hma, hmi, framed, r', hr', m, hm, h⟩
    cases Except.ok.inj h
    exact ⟨lenBytes, r, hr, hma, hmi, framed, hr', hm⟩
  · rintro ⟨lenBytes, r, hr, hma, hmi, framed, hr', hm⟩
    exact ⟨lenBytes, r, hr, hma, hmi, framed, reader', hr', msg, hm, rfl⟩

lemma readMessage_of_announced {lenBytes : Bytes}
    (hr : readExact reader 4 = .ok (lenBytes, reader'))
    (h : maxMessageBytes < ofBytes lenBytes) :
    readMessage W reader secret = .error ⟨.invalidData, "peer announced " ++
      toString (ofBytes lenBytes) ++ " byte message, over the " ++
      toString maxMessageBytes ++ " limit"⟩ := by
  unfold readMessage
  rw [hr]
  exact if_pos h

/-- **Whatever is read was framed and authenticated.** -/
lemma readMessage_eq_ok (h : readMessage W reader secret = .ok (msg, reader')) :
    ∃ payload, reader.content = frame W secret payload ++ reader'.content ∧
      hmacTagLen + payload.length ≤ maxMessageBytes ∧ W.fromSlice payload = .ok msg := by
  obtain ⟨lenBytes, r, hr, hma, hmi, framed, hr', ho⟩ := (readMessage_eq_ok_iff W).mp h
  obtain ⟨hl1, hc1⟩ := readExact_eq_ok hr
  obtain ⟨hl2, hc2⟩ := readExact_eq_ok hr'
  obtain ⟨ht, hm⟩ := (openFrame_eq_ok_iff W).mp ho
  have hl : hmacTagLen + (framed.drop hmacTagLen).length = ofBytes lenBytes := by
    rw [List.length_drop]
    omega
  refine ⟨framed.drop hmacTagLen, ?_, by omega, hm⟩
  rw [frame, hl, hl1, toBytes_ofBytes, ht, List.take_append_drop, hc1, hc2, List.append_assoc]

/-- **A frame is read back**, and nothing after it is touched. -/
lemma exists_readMessage_eq_ok {payload rest : Bytes}
    (hc : reader.content = frame W secret payload ++ rest)
    (hl : hmacTagLen + payload.length ≤ maxMessageBytes) (hm : W.fromSlice payload = .ok msg) :
    ∃ reader', readMessage W reader secret = .ok (msg, reader') ∧ reader'.content = rest := by
  have ha := ofBytes_toBytes (lt_u32_of_le_maxMessageBytes hl)
  rw [frame, List.append_assoc] at hc
  obtain ⟨r1, hr1, hc1⟩ := exists_readExact_eq_ok hc
  obtain ⟨r2, hr2, hc2⟩ := exists_readExact_eq_ok hc1
  refine ⟨r2, (readMessage_eq_ok_iff W).mpr ?_, hc2⟩
  refine ⟨_, r1, hr1, ?_, ?_, (W.tagFor secret payload).toList ++ payload, ?_, ?_⟩
  · rw [ha]
    exact hl
  · rw [ha]
    exact Nat.le_add_right _ _
  · rw [ha, ← hr2]
    simp
  · rw [openFrame_eq_ok_iff, List.take_left' (by simp), List.drop_left' (by simp)]
    exact ⟨rfl, hm⟩

lemma exists_readMessages_eq_ok (secret rest : Bytes) :
    ∀ (msgs : List (SyncMessage × Bytes)) (reader : ChunkStream UInt8),
      reader.content = (msgs.map fun m => frame W secret m.2).flatten ++ rest →
      (∀ m ∈ msgs, hmacTagLen + m.2.length ≤ maxMessageBytes ∧ W.fromSlice m.2 = .ok m.1) →
      ∃ reader', readMessages W secret msgs.length reader = .ok (msgs.map (·.1), reader') ∧
        reader'.content = rest
  | [], reader, hc, _ => ⟨reader, rfl, by simpa using hc⟩
  | m :: msgs, reader, hc, hm => by
      rw [List.map_cons, List.flatten_cons, List.append_assoc] at hc
      obtain ⟨hl, hms⟩ := hm m (List.mem_cons_self ..)
      obtain ⟨r1, hr1, hc1⟩ := exists_readMessage_eq_ok W hc hl hms
      obtain ⟨r2, hr2, hc2⟩ := exists_readMessages_eq_ok secret rest msgs r1 hc1
        fun m' hm' => hm m' (List.mem_cons_of_mem _ hm')
      refine ⟨r2, ?_, hc2⟩
      rw [List.length_cons, readMessages, bind_eq_ok_iff]
      refine ⟨_, hr1, ?_⟩
      rw [bind_eq_ok_iff]
      exact ⟨_, hr2, rfl⟩

/-- **Gossip framing round-trips and authenticates.**  Frames of messages that fit the limit,
followed by anything and chunked in any way, are read back as exactly those messages with exactly
the rest left unread.  And whatever the bytes, a message is only ever returned for a frame whose
tag is that of its payload under the secret and whose announced length is within the limit. -/
theorem readMessages_encode (secret : Bytes) :
    (∀ msgs : List SyncMessage,
      (∀ m ∈ msgs, ∀ payload, W.toVec m = .ok payload → W.fromSlice payload = .ok m) →
      (∀ m ∈ msgs, ∃ payload, W.toVec m = .ok payload ∧
        hmacTagLen + payload.length ≤ maxMessageBytes) →
      ∃ frames, msgs.mapM (fun m => encode W m secret) = .ok frames ∧
        ∀ (rest : Bytes) (reader : ChunkStream UInt8),
          reader.content = frames.flatten ++ rest →
          ∃ reader', readMessages W secret msgs.length reader = .ok (msgs, reader') ∧
            reader'.content = rest) ∧
    (∀ (reader reader' : ChunkStream UInt8) (msg : SyncMessage),
      readMessage W reader secret = .ok (msg, reader') →
      ∃ lenBytes tag payload, reader.content = lenBytes ++ (tag ++ payload) ++ reader'.content ∧
        lenBytes.length = 4 ∧ ofBytes lenBytes = (tag ++ payload).length ∧
        ofBytes lenBytes ≤ maxMessageBytes ∧
        tag = (W.tagFor secret payload).toList ∧ W.fromSlice payload = .ok msg) := by
  constructor
  · intro msgs hj hf
    choose! payload hpa using hf
    refine ⟨msgs.map fun m => frame W secret (payload m), mapM_eq_ok_map fun m hm => ?_, ?_⟩
    · exact encode_eq_frame W (hpa m hm).1 (hpa m hm).2
    · intro rest reader hc
      have hr := exists_readMessages_eq_ok W secret rest
        (msgs.map fun m => (m, payload m)) reader (by simpa [Function.comp_def] using hc)
        (by
          intro p hp
          obtain ⟨m, hm, rfl⟩ := List.mem_map.mp hp
          exact ⟨(hpa m hm).2, hj m hm _ (hpa m hm).1⟩)
      simpa [Function.comp_def] using hr
  · intro reader reader' msg h
    obtain ⟨payload, hc, hl, hms⟩ := readMessage_eq_ok W h
    have ha := ofBytes_toBytes (lt_u32_of_le_maxMessageBytes hl)
    refine ⟨toBytes 4 (hmacTagLen + payload.length), (W.tagFor secret payload).toList, payload,
      hc, length_toBytes, ?_, ?_, rfl, hms⟩
    · rw [ha]
      simp
    · rw [ha]
      exact hl

/-- The same message twice, with its JSON text and its HMAC-SHA256 tag under
`shared-test-secret`. -/
theorem readMessages_encode_twice :
    let msg : SyncMessage := ⟨"b", 1, [⟨"k", [(100, 2)]⟩]⟩
    let tag : Vector UInt8 hmacTagLen := #v[157, 177, 106, 54, 145, 217, 169, 134, 241, 108, 40,
      44, 81, 69, 74, 202, 151, 84, 9, 57, 136, 204, 130, 56, 103, 248, 47, 200, 169, 149, 140, 174]
    let W : WireCrates :=
      { toVec := fun m => .ok (Json.toUtf8 m.toJson)
        fromSlice := fun b =>
          if b = Json.toUtf8 msg.toJson then .ok msg else .error "expected value"
        tagFor := fun _ _ => tag }
    let secret := Json.toUtf8 "shared-test-secret".toList
    ∃ frames, [msg, msg].mapM (fun m => encode W m secret) = .ok frames ∧
      ∀ (rest : Bytes) (reader : ChunkStream UInt8), reader.content = frames.flatten ++ rest →
        ∃ reader', readMessages W secret 2 reader = .ok ([msg, msg], reader') ∧
          reader'.content = rest := by
  intro msg tag W secret
  refine (readMessages_encode W secret).1 [msg, msg] ?_ ?_
  · intro m hm payload hp
    obtain rfl : m = msg := by simpa using hm
    cases hp
    exact if_pos rfl
  · intro m hm
    obtain rfl : m = msg := by simpa using hm
    exact ⟨_, rfl, by decide⟩

end LoadBalancer.Cluster
