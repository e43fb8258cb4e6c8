import LoadBalancer.Core.ListenerConfig
import LoadBalancer.Lib.MultiMap
import LoadBalancer.Proxy.Attempts

/-!
# Headers

The header maps of requests and responses, and the passes over them that both directions share: the
removal of hop-by-hop headers (`strip_hop_by_hop` in `crates/lb-proxy/src/service.rs`) and the
configured edits (`crates/lb-proxy/src/headers.rs`).  A pass is described by what it leaves of the
lines of each name.

Names are in lower case, as the `http` crate keeps them.  Texts are lists of characters; a header
value is a list of bytes, each written as the character of that number, and it is a text only if
these are visible ASCII characters.
-/

namespace LoadBalancer.Proxy

open LoadBalancer.Core List

/-! ## Texts -/

def trim (text : List Char) : List Char := (text.dropWhile isWhitespace).rdropWhile isWhitespace

def lowercase (text : List Char) : List Char := text.map Char.toLower

/-! ## Header values -/

def isHeaderByte (c : Char) : Bool :=
  (32 ≤ c.toNat && c.toNat < 256 && c.toNat ≠ 127) || c = '\t'

def isVisibleAscii (c : Char) : Bool := (32 ≤ c.toNat && c.toNat < 127) || c = '\t'

structure HeaderValue where
  bytes : List Char
  valid : bytes.all isHeaderByte = true
  deriving DecidableEq

namespace HeaderValue

def encode (c : Char) : List Char := (String.utf8EncodeChar c).map fun b => Char.ofNat b.toNat

def fromStr (text : List Char) : Option HeaderValue :=
  if h : (text.flatMap encode).all isHeaderByte = true then some ⟨text.flatMap encode, h⟩ else none

def empty : HeaderValue := ⟨[], rfl⟩

def fromStatic (text : String) : HeaderValue := (fromStr text.toList).getD empty

def toStr (v : HeaderValue) : Option (List Char) :=
  if v.bytes.all isVisibleAscii then some v.bytes else none

variable {c : Char} {text : List Char} {v : HeaderValue}

lemma toNat_of_visible (h : isVisibleAscii c = true) : c.toNat ≤ 127 := by
  simp only [isVisibleAscii, Bool.or_eq_true, Bool.and_eq_true, decide_eq_true_eq] at h
  rcases h with h | rfl
  · exact h.2.le
  · decide

lemma encode_of_ascii (h : c.toNat ≤ 127) : encode c = [c] := by
  have hv : c.val.toNat ≤ 127 := h
  rw [encode, String.utf8EncodeChar, if_pos hv]
  simp only [map_cons, map_nil, UInt8.toNat_ofNat']
  rw [Nat.mod_eq_of_lt (by omega)]
  exact congrArg (fun c => [c]) (Char.ofNat_toNat c)

lemma ascii_of_encode_visible (h : (encode c).all isVisibleAscii = true) : c.toNat ≤ 127 := by
  by_contra hl
  have hv : ¬ c.val.toNat ≤ 127 := hl
  have hla : Char.ofNat (UInt8.ofNat (c.val.toNat % 64 + 128)).toNat ∈ encode c := by
    rw [encode, String.utf8EncodeChar, if_neg hv]
    split_ifs <;> simp
  have hs := toNat_of_visible (all_eq_true.mp h _ hla)
  rw [UInt8.toNat_ofNat', Nat.mod_eq_of_lt (by omega), Char.toNat_ofNat, if_pos] at hs
  · omega
  · exact Or.inl (by omega)

lemma isHeaderByte_of_visible (h : isVisibleAscii c = true) : isHeaderByte c = true := by
  simp only [isVisibleAscii, isHeaderByte, Bool.or_eq_true, Bool.and_eq_true, decide_eq_true_eq]
    at h ⊢
  exact h.imp_left fun h => by omega

lemma fromStr_of_visible (h : text.all isVisibleAscii = true) :
    ∃ v, fromStr text = some v ∧ v.toStr = some text := by
  have hv := all_eq_true.mp h
  have he : text.flatMap encode = text := by
    rw [flatMap_congr fun c hc => encode_of_ascii (toNat_of_visible (hv c hc))]
    exact flatMap_singleton' text
  have hva : (text.flatMap encode).all isHeaderByte = true := by
    rw [he, all_eq_true]
    exact fun c hc => isHeaderByte_of_visible (hv c hc)
  refine ⟨⟨_, hva⟩, dif_pos hva, ?_⟩
  show (if (text.flatMap encode).all isVisibleAscii then some (text.flatMap encode) else none) = _
  rw [he, if_pos h]

lemma bytes_of_fromStr (h : fromStr text = some v) : v.bytes = text.flatMap encode := by
  unfold fromStr at h
  split_ifs at h
  exact (congrArg bytes (Option.some.inj h)).symm

lemma toStr_eq (h : v.toStr = some text) : text = v.bytes := by
  unfold toStr at h
  split_ifs at h
  exact (Option.some.inj h).symm

/-- A text that a value was made of is the only one that can be read from it. -/
lemma eq_of_toStr_fromStr {text' : List Char} (h : fromStr text = some v)
    (hr : v.toStr = some text') : text' = text := by
  unfold toStr at hr
  split_ifs at hr with hv
  cases hr
  rw [bytes_of_fromStr h] at hv ⊢
  rw [flatMap_congr fun c hc => encode_of_ascii (ascii_of_encode_visible ?_)]
  · exact flatMap_singleton' text
  · rw [all_flatMap, all_eq_true] at hv
    exact hv c hc

lemma fromStr_of_toStr (h : v.toStr = some text) : fromStr text = some v := by
  unfold toStr at h
  split_ifs at h with hv
  cases h
  obtain ⟨w, hw, hr⟩ := fromStr_of_visible hv
  have hb : w.bytes = v.bytes := (toStr_eq hr).symm
  rw [hw]
  cases w
  cases v
  cases hb
  rfl

lemma fromStr_isSome_iff :
    (fromStr text).isSome = true ↔ ∀ c ∈ text, (encode c).all isHeaderByte = true := by
  unfold fromStr
  rw [← all_eq_true, ← all_flatMap]
  split_ifs with h <;> simp [h]

lemma fromStr_append_isSome_iff {text' : List Char} :
    (fromStr (text ++ text')).isSome = true ↔
      (fromStr text).isSome = true ∧ (fromStr text').isSome = true := by
  simp only [fromStr_isSome_iff, forall_mem_append]

end HeaderValue

/-! ## Header maps -/

abbrev HeaderName := String

abbrev HeaderMap := MultiMap HeaderName HeaderValue

/-- The elements of a header whose lines are comma-separated lists; lines that are not text are
passed over. -/
def listElements (headers : HeaderMap) (name : HeaderName) : List (List Char) :=
  ((headers.getAll name).filterMap HeaderValue.toStr).flatMap (List.splitOn ',')

/-! ### Hop-by-hop headers -/

def alwaysHopByHop : List HeaderName :=
  ["connection", "keep-alive", "proxy-authenticate", "proxy-authorization", "proxy-connection",
    "te", "trailer", "transfer-encoding"]

def connectionNames (headers : HeaderMap) : List HeaderName :=
  (((listElements headers "connection").map fun name => lowercase (trim name)).filter
    (· ≠ [])).map String.ofList

def stripHopByHop (headers : HeaderMap) : HeaderMap :=
  ((headers.removeAll alwaysHopByHop).remove "upgrade").removeAll (connectionNames headers)

/-- The header describes the connection that the message came over. -/
def IsHopByHop (headers : HeaderMap) (name : HeaderName) : Prop :=
  name ∈ alwaysHopByHop ∨ name = "upgrade" ∨ name ∈ connectionNames headers

instance (headers : HeaderMap) (name : HeaderName) : Decidable (IsHopByHop headers name) :=
  inferInstanceAs (Decidable (_ ∨ _ ∨ _))

lemma connectionNames_congr {headers headers' : HeaderMap}
    (h : headers.getAll "connection" = headers'.getAll "connection") :
    connectionNames headers = connectionNames headers' := by
  unfold connectionNames listElements
  rw [h]

lemma getAll_stripHopByHop (headers : HeaderMap) (name : HeaderName) :
    (stripHopByHop headers).getAll name
      = if IsHopByHop headers name then [] else headers.getAll name := by
  rw [stripHopByHop, MultiMap.getAll_removeAll, MultiMap.getAll_remove, MultiMap.getAll_removeAll]
  unfold IsHopByHop
  by_cases hn : name ∈ connectionNames headers
  · simp [hn]
  by_cases hu : name = "upgrade"
  · simp [hu]
  by_cases ha : name ∈ alwaysHopByHop <;> simp [hn, hu, ha]

/-! ### Configured edits -/

structure HeaderEdits where
  set : List (HeaderName × HeaderValue)
  remove : List HeaderName

namespace HeaderEdits

/-- The edits of a configuration; what is no name or no value is passed over. -/
def new (crates : ConfigCrates) (set : List (String × String)) (remove : List String) :
    HeaderEdits where
  set := set.filterMap fun (name, value) => do
    return (← crates.headerName name, ← HeaderValue.fromStr value.toList)
  remove := remove.filterMap crates.headerName

variable (edits : HeaderEdits)

def apply (headers : HeaderMap) : HeaderMap :=
  (headers.removeAll edits.remove).insertAll edits.set

def setValue (name : HeaderName) : Option HeaderValue :=
  (edits.set.filter fun e => e.1 = name).getLast?.map Prod.snd

lemma getAll_apply (headers : HeaderMap) (name : HeaderName) :
    (edits.apply headers).getAll name =
      match edits.setValue name with
      | some value => [value]
      | none => if name ∈ edits.remove then [] else headers.getAll name := by
  rw [apply, MultiMap.getAll_insertAll, MultiMap.getAll_removeAll, setValue]
  cases (edits.set.filter fun e => e.1 = name).getLast? <;> rfl

lemma setValue_isSome_iff {name : HeaderName} :
    (edits.setValue name).isSome = true ↔ name ∈ edits.set.map Prod.fst := by
  rw [setValue, Option.isSome_map, List.getLast?_isSome, Ne, filter_eq_nil_iff]
  simp

lemma getAll_apply_of_notMem {headers : HeaderMap} {name : HeaderName}
    (hs : name ∉ edits.set.map Prod.fst) (hr : name ∉ edits.remove) :
    (edits.apply headers).getAll name = headers.getAll name := by
  have hn : edits.setValue name = none := by
    rwa [← Option.not_isSome_iff_eq_none, setValue_isSome_iff]
  rw [getAll_apply, hn]
  exact if_neg hr

end HeaderEdits

/-! ## Requests -/

inductive Version
  | http10
  | http11
  | http2
  deriving DecidableEq

structure Uri where
  authority : Option (List Char)
  pathAndQuery : Option (List Char)
  deriving DecidableEq

structure RequestHead where
  method : Method
  uri : Uri
  version : Version
  headers : HeaderMap
  deriving DecidableEq

/-- Refuses requests without a host or with more than one, and gives precedence to the authority
of the request's target. -/
def normalizeHost (crates : ConfigCrates) (req : RequestHead) : Option RequestHead := do
  let hosts := req.headers.getAll "host"
  guard (hosts.length ≤ 1)
  guard (hosts.all fun value => value.toStr.any fun text => crates.isAuthority (String.ofList text))
  match req.uri.authority with
  | some authority =>
    return { req with headers := req.headers.insert "host" (← HeaderValue.fromStr authority) }
  | none => do
    guard (!(hosts.isEmpty && req.version = .http11))
    return req

variable {crates : ConfigCrates} {req r : RequestHead} (h : normalizeHost crates req = some r)

include h

lemma normalizeHost_cases :
    (∃ authority value, req.uri.authority = some authority ∧
        HeaderValue.fromStr authority = some value ∧
        r = { req with headers := req.headers.insert "host" value }) ∨
      (req.uri.authority = none ∧ r = req ∧
        ∀ value, req.headers.get "host" = some value →
          ∃ text, value.toStr = some text ∧ crates.isAuthority (String.ofList text) = true) := by
  unfold normalizeHost at h
  obtain ⟨-, -, h⟩ := Option.bind_eq_some_iff.mp h
  obtain ⟨_, hal, h⟩ := Option.bind_eq_some_iff.mp h
  cases ha : req.uri.authority with
  | some authority =>
    rw [ha] at h
    obtain ⟨value, hv, h⟩ := Option.bind_eq_some_iff.mp h
    exact Or.inl ⟨authority, value, rfl, hv, (Option.some.inj h).symm⟩
  | none =>
    rw [ha] at h
    obtain ⟨-, -, h⟩ := Option.bind_eq_some_iff.mp h
    refine Or.inr ⟨rfl, (Option.some.inj h).symm, fun value hv => ?_⟩
    rw [Option.guard_eq_some', all_eq_true] at hal
    exact Option.any_eq_true _ _ |>.mp (hal value (mem_of_head? hv))

lemma getAll_of_normalizeHost {name : HeaderName} (hn : name ≠ "host") :
    r.headers.getAll name = req.headers.getAll name := by
  obtain ⟨authority, value, -, -, rfl⟩ | ⟨-, rfl, -⟩ := normalizeHost_cases h
  · exact (MultiMap.getAll_insert _ _ _ _).trans (if_neg hn)
  · rfl

def RequestHead.host (req : RequestHead) : Option (List Char) :=
  ((req.headers.get "host").bind HeaderValue.toStr).or req.uri.authority

/-- After normalisation the host is the authority of the target, if there is one, and otherwise what
the only `Host` line says. -/
lemma host_of_normalizeHost {text : List Char} (ht : r.host = some text) :
    (HeaderValue.fromStr text).isSome = true ∧
      (req.uri.authority = some text ∨ crates.isAuthority (String.ofList text) = true) := by
  unfold RequestHead.host at ht
  obtain ⟨authority, value, ha, hv, rfl⟩ | ⟨ha, rfl, hh⟩ := normalizeHost_cases h
  · have hg : (req.headers.insert "host" value).get "host" = some value := by
      rw [MultiMap.get, MultiMap.getAll_insert, if_pos rfl]
      rfl
    rw [hg, Option.bind_some] at ht
    obtain rfl : text = authority := by
      cases hr : value.toStr with
      | some read =>
        rw [hr] at ht
        exact (Option.some.inj ht).symm.trans (HeaderValue.eq_of_toStr_fromStr hv hr)
      | none =>
        rw [hr] at ht
        exact Option.some.inj (ht.symm.trans ha)
    exact ⟨Option.isSome_of_eq_some hv, Or.inl ha⟩
  · rw [ha, Option.or_none] at ht
    obtain ⟨value, hv, hr⟩ := Option.bind_eq_some_iff.mp ht
    obtain ⟨read, hr', hok⟩ := hh value hv
    cases hr.symm.trans hr'
    exact ⟨Option.isSome_of_eq_some (HeaderValue.fromStr_of_toStr hr), Or.inr hok⟩

def isUpgradeRequest (headers : HeaderMap) : Bool :=
  let hasUpgradeToken := ((headers.get "connection").bind HeaderValue.toStr).any fun v =>
    (v.splitOn ',').any fun token => lowercase (trim token) = "upgrade".toList
  let hasUpgradeHeader := ((headers.get "upgrade").bind HeaderValue.toStr).any fun v => trim v ≠ []
  hasUpgradeToken && hasUpgradeHeader

end LoadBalancer.Proxy
