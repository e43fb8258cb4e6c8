import LoadBalancer.Lib.PercentCode
import LoadBalancer.Lib.Utf8
import LoadBalancer.Proxy.HopByHop
import LoadBalancer.Proxy.ResponseHeaders

/-!
# The sticky cookie

A response pins its client to the backend that answered, by a cookie whose value is the backend's
id in percent coding, and the next request is read for it (`crates/lb-proxy/src/sticky.rs`).

`read_sticky_backend` looks at the first `Cookie` line only, and not at all if some byte of it is
not visible ASCII.  A client may spread its cookies over several lines, as HTTP/2 clients do;
`stickyCookie` reads all lines as bytes, as if they were one.

`String::from_utf8_lossy`, which is applied to what is no text, is a parameter.
-/

namespace LoadBalancer.Proxy

open LoadBalancer.Core List

/-! ## Reading -/

def hexValue (b : UInt8) : Option ℕ :=
  if 48 ≤ b.toNat ∧ b.toNat ≤ 57 then some (b.toNat - 48)
  else if 65 ≤ b.toNat ∧ b.toNat ≤ 70 then some (b.toNat - 55)
  else if 97 ≤ b.toNat ∧ b.toNat ≤ 102 then some (b.toNat - 87)
  else none

/-- `u8::from_str_radix` to base 16, of two bytes.  The first may be a plus sign. -/
def hexByte (hi lo : UInt8) : Option UInt8 :=
  if hi.toNat = 43 then (hexValue lo).map UInt8.ofNat
  else do return UInt8.ofNat (16 * (← hexValue hi) + (← hexValue lo))

section

variable (lossy : List UInt8 → List Char)

def percentDecodeBytes (bytes : List UInt8) : String :=
  let out := PercentCode.decode hexByte bytes
  String.ofList ((Utf8.decode out).getD (lossy out))

def percentDecode (text : List Char) : String := percentDecodeBytes lossy (Utf8.encode text)

def cookiePair (pair : List Char) : Option (List Char × List Char) :=
  (Text.splitOnce '=' (trim pair)).map fun parts => (trim parts.1, trim parts.2)

/-- The backend that the pair names, if it is the sticky cookie. -/
def pinnedBy (cookieName : String) (pair : List Char) : Option BackendId :=
  match cookiePair pair with
  | none => none
  | some (name, value) =>
    if name = cookieName.toList then some (percentDecode lossy value) else none

def readStickyBackend (headers : HeaderMap) (cookieName : String) : Option BackendId := do
  let value ← headers.get "cookie"
  let raw ← value.toStr
  (raw.splitOn ';').findSome? (pinnedBy lossy cookieName)

end

/-! ## Whitespace around names and values -/

variable {c : Char} {text : List Char} {sticky : StickyRuntime} (b : UInt8)

lemma trim_append_of_white {white : List Char} (h : ∀ c ∈ white, isWhitespace c = true) :
    trim (text ++ white) = trim text := by
  have hcu : ∀ front : List Char,
      (front ++ white).rdropWhile isWhitespace = front.rdropWhile isWhitespace := by
    intro front
    rw [List.rdropWhile, List.rdropWhile, reverse_append,
      dropWhile_append_of_pos fun c hc => h c (mem_reverse.mp hc)]
  unfold trim
  by_cases hb : text.dropWhile isWhitespace = []
  · have ht := dropWhile_eq_nil_iff.mp hb
    rw [dropWhile_append_of_pos ht, hb, dropWhile_eq_nil_iff.mpr h]
  · have hr : (text ++ white).dropWhile isWhitespace = text.dropWhile isWhitespace ++ white := by
      rw [dropWhile_append, if_neg (by simpa using hb)]
    rw [hr, hcu]

lemma trim_white_append {white : List Char} (h : ∀ c ∈ white, isWhitespace c = true) :
    trim (white ++ text) = trim text := by
  rw [trim, dropWhile_append_of_pos h, trim]

lemma trim_pair (name value : List Char) :
    trim (name ++ '=' :: value)
      = name.dropWhile isWhitespace ++ '=' :: value.rdropWhile isWhitespace := by
  have hf : (name ++ '=' :: value).dropWhile isWhitespace
      = name.dropWhile isWhitespace ++ '=' :: value := by
    rw [dropWhile_append]
    split_ifs with hn
    · rw [isEmpty_iff.mp hn, nil_append, dropWhile_cons_of_neg (by decide)]
    · rfl
  rw [trim, hf, List.rdropWhile, reverse_append, reverse_cons, append_assoc, dropWhile_append]
  split_ifs with hn
  · have hv : value.rdropWhile isWhitespace = [] := by
      rw [List.rdropWhile, isEmpty_iff.mp hn, reverse_nil]
    rw [hv, singleton_append, dropWhile_cons_of_neg (by decide)]
    simp
  · simp [List.rdropWhile]

lemma cookiePair_eq {name : List Char} (hn : '=' ∉ name) (value : List Char) :
    cookiePair (name ++ '=' :: value) = some (trim name, trim value) := by
  have hf : '=' ∉ name.dropWhile isWhitespace := fun h =>
    hn ((dropWhile_suffix _).subset h)
  have hl : trim (name.dropWhile isWhitespace) = trim name := by
    have hs := takeWhile_append_dropWhile (p := isWhitespace) (l := name)
    rw [← trim_white_append fun c hc => mem_takeWhile_imp hc, hs]
  have hr : trim (value.rdropWhile isWhitespace) = trim value := by
    have hs := rdropWhile_append_rtakeWhile (p := isWhitespace) (l := value)
    rw [← trim_append_of_white fun c hc => mem_rtakeWhile_imp hc, hs]
  rw [cookiePair, trim_pair, Text.splitOnce_field hf, Option.map_some, hl, hr]

lemma mem_of_mem_trim {c : Char} {text : List Char} (h : c ∈ trim text) : c ∈ text := by
  refine (dropWhile_suffix isWhitespace).subset (IsPrefix.subset ?_ h)
  exact rdropWhile_prefix _ _

lemma cookiePair_of_notMem {pair : List Char} (h : '=' ∉ pair) : cookiePair pair = none := by
  have ht : '=' ∉ trim pair := fun hm => h (mem_of_mem_trim hm)
  rw [cookiePair, Text.splitOnce_of_notMem ht, Option.map_none]

/-! ## The coding of ids -/

def isCookieOctet (c : Char) : Bool :=
  c.toNat = 0x21 || (0x23 ≤ c.toNat && c.toNat ≤ 0x2b) || (0x2d ≤ c.toNat && c.toNat ≤ 0x3a) ||
    (0x3c ≤ c.toNat && c.toNat ≤ 0x5b) || (0x5d ≤ c.toNat && c.toNat ≤ 0x7e)

/-- The characters that the names of headers and cookies are made of: letters, digits and
``!#$%&'*+-.^_`|~``. -/
def isTokenChar (c : Char) : Bool :=
  c.isAlphanum || c.toNat ∈ [0x21, 0x23, 0x24, 0x25, 0x26, 0x27, 0x2a, 0x2b, 0x2d, 0x2e, 0x5e, 0x5f,
    0x60, 0x7c, 0x7e]

def IsToken (name : String) : Prop := name ≠ "" ∧ ∀ c ∈ name.toList, isTokenChar c = true

lemma toNat_of_isAlphanum (h : c.isAlphanum = true) :
    (65 ≤ c.toNat ∧ c.toNat ≤ 90) ∨ (97 ≤ c.toNat ∧ c.toNat ≤ 122) ∨
      (48 ≤ c.toNat ∧ c.toNat ≤ 57) := by
  simp only [Char.isAlphanum, Char.isAlpha, Char.isUpper, Char.isLower, Char.isDigit,
    Bool.or_eq_true, Bool.and_eq_true, decide_eq_true_eq, UInt32.le_iff_toNat_le, ge_iff_le] at h
  exact or_assoc.mp h

lemma isCookieOctet_of_isTokenChar (h : isTokenChar c = true) : isCookieOctet c = true := by
  rw [isTokenChar, Bool.or_eq_true, decide_eq_true_iff] at h
  simp only [isCookieOctet, Bool.or_eq_true, Bool.and_eq_true, decide_eq_true_eq]
  rcases h with h | h
  · have hr := toNat_of_isAlphanum h
    omega
  · simp only [mem_cons, not_mem_nil, or_false] at h
    omega

lemma facts_of_isCookieOctet (h : isCookieOctet c = true) :
    isVisibleAscii c = true ∧ isWhitespace c = false ∧ c ≠ ';' := by
  have hs : c = ';' → c.toNat = 59 := fun heq => congrArg Char.toNat heq
  simp only [isCookieOctet, Bool.or_eq_true, Bool.and_eq_true, decide_eq_true_eq] at h
  have hn : ¬ (isWhitespace c = true) := by
    simp only [isWhitespace, Bool.or_eq_true, Bool.and_eq_true, decide_eq_true_eq]
    omega
  refine ⟨?_, by simpa using hn, fun heq => ?_⟩
  · simp only [isVisibleAscii, Bool.or_eq_true, Bool.and_eq_true, decide_eq_true_eq]
    omega
  · have := hs heq
    omega

lemma isTokenChar_of_isUnreserved (h : isUnreserved c = true) : isTokenChar c = true := by
  rw [isUnreserved, Bool.or_eq_true, decide_eq_true_iff] at h
  rcases h with h | h
  · rw [isTokenChar, h, Bool.true_or]
  · simp only [mem_cons, not_mem_nil, or_false] at h
    rcases h with rfl | rfl | rfl | rfl <;> rfl

lemma isTokenChar_hexDigit (n : ℕ) : isTokenChar (hexDigit n) = true := by
  by_cases hn : n < 16
  · have ha : ∀ n < 16, isTokenChar (hexDigit n) = true := by decide
    exact ha n hn
  · have hl : "0123456789ABCDEF".toList.length ≤ n := Nat.not_lt.mp hn
    rw [hexDigit, getD_eq_default _ _ hl]
    decide

lemma isTokenChar_of_mem_percentEncode {id : BackendId} (h : c ∈ percentEncode id) :
    isTokenChar c = true := by
  obtain ⟨b, -, hc⟩ := mem_flatMap.mp h
  split_ifs at hc with hk
  · obtain rfl := mem_singleton.mp hc
    exact isTokenChar_of_isUnreserved hk
  · simp only [mem_cons, not_mem_nil, or_false] at hc
    rcases hc with rfl | rfl | rfl
    · decide
    · exact isTokenChar_hexDigit _
    · exact isTokenChar_hexDigit _

/-! ### Round trip -/

def byteOf (c : Char) : UInt8 := UInt8.ofNat c.toNat

def charOf (b : UInt8) : Char := Char.ofNat b.toNat

lemma toNat_charOf : (charOf b).toNat = b.toNat := by
  have hlt := b.toNat_lt
  rw [charOf, Char.toNat_ofNat, if_pos (Or.inl (by omega))]

lemma byteOf_charOf : byteOf (charOf b) = b := by
  rw [byteOf, toNat_charOf, UInt8.ofNat_toNat]

lemma flatMap_encode (text : List Char) :
    text.flatMap HeaderValue.encode = (Utf8.encode text).map charOf :=
  (map_flatMap ..).symm

lemma encode_of_isTokenChar (h : ∀ c ∈ text, isTokenChar c = true) :
    Utf8.encode text = text.map byteOf :=
  Utf8.encode_of_ascii fun c hc => HeaderValue.toNat_of_visible
    (facts_of_isCookieOctet (isCookieOctet_of_isTokenChar (h c hc))).1

lemma encode_percentEncode (id : BackendId) :
    Utf8.encode (percentEncode id) = PercentCode.encode (fun b => isUnreserved (charOf b))
      (fun n => byteOf (hexDigit n)) (Utf8.encode id.toList) := by
  rw [encode_of_isTokenChar fun c => isTokenChar_of_mem_percentEncode, percentEncode,
    flatMap_encode, flatMap_map, map_flatMap, PercentCode.encode]
  refine flatMap_congr fun b _ => ?_
  rw [PercentCode.encodeByte, toNat_charOf]
  split_ifs
  · rw [map_singleton, byteOf_charOf]
  · rfl

lemma hexValue_hexDigit {n : ℕ} (h : n < 16) : hexValue (byteOf (hexDigit n)) = some n := by
  have ha : ∀ n < 16, hexValue (byteOf (hexDigit n)) = some n := by decide
  exact ha n h

lemma hexByte_digits :
    hexByte (byteOf (hexDigit (b.toNat / 16))) (byteOf (hexDigit (b.toNat % 16))) = some b := by
  have hlt := b.toNat_lt
  have hh : b.toNat / 16 < 16 := by omega
  have hp : ∀ n < 16, (byteOf (hexDigit n)).toNat ≠ 43 := by decide
  rw [hexByte, if_neg (hp _ hh), hexValue_hexDigit hh, hexValue_hexDigit (Nat.mod_lt _ (by omega))]
  have hs : 16 * (b.toNat / 16) + b.toNat % 16 = b.toNat := by omega
  exact congrArg some (by rw [hs, UInt8.ofNat_toNat])

lemma percentDecode_percentEncode (lossy : List UInt8 → List Char) (id : BackendId) :
    percentDecode lossy (percentEncode id) = id := by
  have hd : PercentCode.decode hexByte (PercentCode.encode (fun b => isUnreserved (charOf b))
      (fun n => byteOf (hexDigit n)) (Utf8.encode id.toList)) = Utf8.encode id.toList :=
    PercentCode.decode_encode (by decide) hexByte_digits _
  rw [percentDecode, percentDecodeBytes, encode_percentEncode, hd, Utf8.decode_encode,
    Option.getD_some, String.ofList_toList]

/-! ## The cookie that is set and the cookie that is read -/

def cookieAttributes (sticky : StickyRuntime) : List (List Char) :=
  [" Path=/".toList, " HttpOnly".toList, " SameSite=Lax".toList] ++
    (if sticky.secure then [" Secure".toList] else []) ++
    sticky.maxAgeSecs.elim [] fun maxAge => [" Max-Age=".toList ++ Nat.toDigits 10 maxAge]

def isFieldChar (c : Char) : Bool := isVisibleAscii c && c ≠ ';'

lemma isFieldChar_of_isTokenChar (h : isTokenChar c = true) : isFieldChar c = true := by
  obtain ⟨hv, -, hne⟩ := facts_of_isCookieOctet (isCookieOctet_of_isTokenChar h)
  rw [isFieldChar, hv, Bool.true_and]
  exact decide_eq_true hne

lemma isFieldChar_of_attribute {field : List Char} (h : field ∈ cookieAttributes sticky) :
    field.all isFieldChar = true := by
  unfold cookieAttributes at h
  rw [mem_append, mem_append] at h
  rcases h with (h | h) | h
  · have hal : ∀ field ∈ [" Path=/".toList, " HttpOnly".toList, " SameSite=Lax".toList],
        field.all isFieldChar = true := by decide
    exact hal field h
  · split_ifs at h
    · obtain rfl := mem_singleton.mp h
      decide
    · cases h
  · cases ha : sticky.maxAgeSecs with
    | none =>
      rw [ha] at h
      cases h
    | some maxAge =>
      rw [ha] at h
      obtain rfl := mem_singleton.mp h
      rw [all_append, Bool.and_eq_true]
      refine ⟨by decide, all_eq_true.mpr fun c hc => isFieldChar_of_isTokenChar ?_⟩
      have hd : c.isDigit = true := Nat.isDigit_of_mem_toDigits (by decide) (by decide) hc
      rw [isTokenChar, Char.isAlphanum, hd, Bool.or_true, Bool.true_or]

lemma setCookieHeader_eq (sticky : StickyRuntime) (id : BackendId) :
    setCookieHeader sticky id = (HeaderValue.fromStr ([';'].intercalate
      ((sticky.cookieName.toList ++ '=' :: percentEncode id) :: cookieAttributes sticky))).getD
        .empty := by
  unfold setCookieHeader cookieAttributes
  rw [Text.intercalate_cons, flatMap_append, flatMap_append]
  have hf : [" Path=/".toList, " HttpOnly".toList, " SameSite=Lax".toList].flatMap (';' :: ·)
      = "; Path=/; HttpOnly; SameSite=Lax".toList := by decide
  rw [hf]
  cases sticky.secure <;> cases sticky.maxAgeSecs <;> simp

lemma exists_setCookieHeader (hn : IsToken sticky.cookieName) (id : BackendId) :
    ∃ text, (setCookieHeader sticky id).toStr = some text ∧ text.splitOn ';' =
      (sticky.cookieName.toList ++ '=' :: percentEncode id) :: cookieAttributes sticky := by
  have hfi : ∀ field ∈ (sticky.cookieName.toList ++ '=' :: percentEncode id) ::
      cookieAttributes sticky, field.all isFieldChar = true := by
    rw [forall_mem_cons]
    refine ⟨all_eq_true.mpr fun c hc => ?_, fun field => isFieldChar_of_attribute⟩
    rcases mem_append.mp hc with hc | hc
    · exact isFieldChar_of_isTokenChar (hn.2 c hc)
    · rcases mem_cons.mp hc with rfl | hc
      · decide
      · exact isFieldChar_of_isTokenChar (isTokenChar_of_mem_percentEncode hc)
  have hv : ([';'].intercalate ((sticky.cookieName.toList ++ '=' :: percentEncode id) ::
      cookieAttributes sticky)).all isVisibleAscii = true := by
    refine all_eq_true.mpr fun c hc => ?_
    rcases Text.mem_of_mem_intercalate hc with rfl | ⟨field, hf, hc⟩
    · decide
    · exact (Bool.and_eq_true_iff.mp (all_eq_true.mp (hfi field hf) c hc)).1
  obtain ⟨value, hva, ht⟩ := HeaderValue.fromStr_of_visible hv
  refine ⟨_, ?_, splitOn_intercalate ';' (fun field hf hm => ?_) (by simp)⟩
  · rw [setCookieHeader_eq, hva, Option.getD_some, ht]
  · exact absurd (all_eq_true.mp (hfi field hf) ';' hm) (by decide)

lemma pinnedBy_eq_none (lossy : List UInt8 → List Char) {cookieName : String} {pair : List Char}
    (h : ∀ name value, pair = name ++ '=' :: value → '=' ∉ name → trim name ≠ cookieName.toList) :
    pinnedBy lossy cookieName pair = none := by
  unfold pinnedBy
  by_cases hs : '=' ∈ pair
  · obtain ⟨name, value, rfl, hf⟩ := eq_append_cons_of_mem hs
    rw [cookiePair_eq hf]
    exact if_neg (h name value rfl hf)
  · rw [cookiePair_of_notMem hs]

/-- **Sticky cookies are safe and reversible.**  What is set is the cookie and its attributes,
whatever the id, and the value of the cookie is legal.  From a `Cookie` line that is a text and has
the cookie once, the id is read back. -/
theorem sticky_cookie_round_trip (lossy : List UInt8 → List Char) {sticky : StickyRuntime}
    (hname : IsToken sticky.cookieName) (id : BackendId) :
    (∃ text, (setCookieHeader sticky id).toStr = some text ∧ text.splitOn ';' =
      (sticky.cookieName.toList ++ '=' :: percentEncode id) :: cookieAttributes sticky) ∧
    Text.splitOnce '=' (sticky.cookieName.toList ++ '=' :: percentEncode id)
      = some (sticky.cookieName.toList, percentEncode id) ∧
    (percentEncode id).all isCookieOctet = true ∧
    ∀ (headers : HeaderMap) (line : HeaderValue) (raw name value : List Char)
      (before after : List (List Char)), headers.getAll "cookie" = [line] →
      line.toStr = some raw → raw.splitOn ';' = before ++ (name ++ '=' :: value) :: after →
      '=' ∉ name → trim name = sticky.cookieName.toList → trim value = percentEncode id →
      (∀ pair ∈ before ++ after, ∀ name' value', pair = name' ++ '=' :: value' → '=' ∉ name' →
        trim name' ≠ sticky.cookieName.toList) →
      readStickyBackend lossy headers sticky.cookieName = some id := by
  have hf : '=' ∉ sticky.cookieName.toList := fun h => absurd (hname.2 '=' h) (by decide)
  refine ⟨exists_setCookieHeader hname id, Text.splitOnce_field hf _, ?_, ?_⟩
  · exact all_eq_true.mpr fun c hc =>
      isCookieOctet_of_isTokenChar (isTokenChar_of_mem_percentEncode hc)
  · intro headers line raw name value before after hl hr hp hs ht hv ho
    have hpi : pinnedBy lossy sticky.cookieName (name ++ '=' :: value) = some id := by
      unfold pinnedBy
      rw [cookiePair_eq hs, ht, hv]
      exact (if_pos rfl).trans (congrArg some (percentDecode_percentEncode lossy id))
    have hb : before.findSome? (pinnedBy lossy sticky.cookieName) = none :=
      List.findSome?_eq_none_iff.mpr fun pair hpa =>
        pinnedBy_eq_none lossy (ho pair (mem_append_left _ hpa))
    have hg : headers.get "cookie" = some line := by rw [MultiMap.get, hl, List.head?_cons]
    rw [readStickyBackend, hg, Option.bind_eq_bind, Option.bind_some, hr, Option.bind_eq_bind,
      Option.bind_some, hp, List.findSome?_append, hb, Option.none_or,
      List.findSome?_cons_of_isSome (Option.isSome_of_eq_some hpi), hpi]

/-- The id `b;1` behind another cookie. -/
theorem sticky_cookie_round_trip_semicolon :
    IsToken "lb" ∧ readStickyBackend (fun _ => [])
      ⟨[("cookie", .fromStatic "theme=dark;  lb = b%3B1 ")]⟩ "lb" = some "b;1" := by
  have hn : IsToken (⟨"lb", none, false⟩ : StickyRuntime).cookieName :=
    ⟨by decide, all_eq_true.mp rfl⟩
  refine ⟨hn, (sticky_cookie_round_trip (fun _ => []) hn "b;1").2.2.2 _
    (.fromStatic "theme=dark;  lb = b%3B1 ") "theme=dark;  lb = b%3B1 ".toList "  lb ".toList
    " b%3B1 ".toList ["theme=dark".toList] [] rfl (by decide) (by decide) (by decide) (by decide)
    (by decide) ?_⟩
  intro pair hp name value hs hf
  obtain rfl := mem_singleton.mp hp
  have ho : "theme".toList ++ '=' :: "dark".toList = name ++ '=' :: value := hs
  obtain ⟨rfl, -⟩ := (Text.append_cons_inj (by decide) hf).mp ho
  decide

/-! ## Cookies on several lines -/

/-- The pairs of all `Cookie` lines, taken in order and joined with semicolons. -/
def cookiePairs (headers : HeaderMap) : List (List Char) :=
  ([';'].intercalate ((headers.getAll "cookie").map HeaderValue.bytes)).splitOn ';'

section

variable (lossy : List UInt8 → List Char) (cookieName : String)

/-- The backend that a pair names as bytes, if it is the sticky cookie. -/
def pinnedByBytes (pair : List Char) : Option BackendId :=
  match Text.splitOnce '=' pair with
  | none => none
  | some (name, value) =>
    if (name.dropWhile isListSpace).rdropWhile isListSpace
        = cookieName.toList.flatMap HeaderValue.encode then
      some (percentDecodeBytes lossy
        (((value.dropWhile isListSpace).rdropWhile isListSpace).map byteOf))
    else none

/-- The backend that the first sticky cookie among all cookies names. -/
def stickyCookie (headers : HeaderMap) : Option BackendId :=
  (cookiePairs headers).findSome? (pinnedByBytes lossy cookieName)

/-- The first line is a text and has the sticky cookie. -/
def OnFirstLine (headers : HeaderMap) : Prop :=
  ∃ line ∈ headers.get "cookie", line.toStr.isSome = true ∧
    ((line.bytes.splitOn ';').findSome? (pinnedByBytes lossy cookieName)).isSome = true

lemma eq_name_iff {text : List Char} (h : ∀ c ∈ text, isVisibleAscii c = true) :
    text = cookieName.toList ↔ text = cookieName.toList.flatMap HeaderValue.encode := by
  have hf : (∀ c ∈ cookieName.toList, c.toNat ≤ 127) →
      cookieName.toList.flatMap HeaderValue.encode = cookieName.toList := fun ha => by
    rw [flatMap_congr fun c hc => HeaderValue.encode_of_ascii (ha c hc)]
    exact flatMap_singleton' _
  constructor
  · rintro rfl
    exact (hf fun c hc => HeaderValue.toNat_of_visible (h c hc)).symm
  · rintro rfl
    refine hf fun c hc => HeaderValue.ascii_of_encode_visible ?_
    exact all_eq_true.mpr fun d hd => h d (mem_flatMap.mpr ⟨c, hc, hd⟩)

lemma pinnedBy_of_visible {pair : List Char} (h : ∀ c ∈ pair, isVisibleAscii c = true) :
    pinnedBy lossy cookieName pair = pinnedByBytes lossy cookieName pair := by
  unfold pinnedBy pinnedByBytes
  by_cases hs : '=' ∈ pair
  · obtain ⟨name, value, rfl, hf⟩ := eq_append_cons_of_mem hs
    have hn : ∀ c ∈ name, isVisibleAscii c = true := fun c hc =>
      h c (mem_append_left _ hc)
    have hv : ∀ c ∈ value, isVisibleAscii c = true := fun c hc =>
      h c (mem_append_right _ (mem_cons_of_mem _ hc))
    have hp : ∀ {text : List Char}, (∀ c ∈ text, isVisibleAscii c = true) →
        ∀ c ∈ trim text, isVisibleAscii c = true := fun ht c hc => ht c (mem_of_mem_trim hc)
    have hb : Utf8.encode (trim value) = (trim value).map byteOf :=
      Utf8.encode_of_ascii fun c hc => HeaderValue.toNat_of_visible (hp hv c hc)
    rw [cookiePair_eq hf, Text.splitOnce_field hf]
    dsimp only
    rw [← trim_of_visible hn, ← trim_of_visible hv, percentDecode, hb]
    exact if_congr (eq_name_iff cookieName (hp hn)) rfl rfl
  · rw [cookiePair_of_notMem hs, Text.splitOnce_of_notMem hs]

lemma readStickyBackend_eq {headers : HeaderMap} {line : HeaderValue}
    (hg : headers.get "cookie" = some line) :
    readStickyBackend lossy headers cookieName = if line.toStr.isSome then
      (line.bytes.splitOn ';').findSome? (pinnedByBytes lossy cookieName) else none := by
  rw [readStickyBackend, hg, Option.bind_eq_bind, Option.bind_some]
  cases hr : line.toStr with
  | none => rfl
  | some raw =>
    have hv := hr
    rw [HeaderValue.toStr] at hv
    split_ifs at hv with ha
    rw [Option.bind_eq_bind, Option.bind_some, HeaderValue.toStr_eq hr, Option.isSome_some,
      if_pos rfl]
    rw [← List.head?_filterMap, ← List.head?_filterMap]
    refine congrArg List.head? (filterMap_congr fun pair hp => ?_)
    exact pinnedBy_of_visible lossy cookieName fun c hc =>
      all_eq_true.mp ha c (Text.mem_of_mem_splitOn hp hc)

lemma stickyCookie_eq {headers : HeaderMap} {line : HeaderValue}
    (hg : headers.get "cookie" = some line) :
    ∃ later, stickyCookie lossy cookieName headers
      = ((line.bytes.splitOn ';').findSome? (pinnedByBytes lossy cookieName)).or later := by
  obtain ⟨lines, hl⟩ := List.head?_eq_some_iff.mp hg
  refine ⟨((lines.map HeaderValue.bytes).flatMap (List.splitOn ';')).findSome?
    (pinnedByBytes lossy cookieName), ?_⟩
  rw [stickyCookie, cookiePairs, hl, Text.splitOn_intercalate_lines (by simp), map_cons,
    flatMap_cons, List.findSome?_append]

lemma readStickyBackend_of_onFirstLine {headers : HeaderMap}
    (h : OnFirstLine lossy cookieName headers) :
    readStickyBackend lossy headers cookieName = stickyCookie lossy cookieName headers := by
  obtain ⟨line, hg, ht, hf⟩ := h
  obtain ⟨later, hl⟩ := stickyCookie_eq lossy cookieName hg
  obtain ⟨id, hid⟩ := Option.isSome_iff_exists.mp hf
  rw [readStickyBackend_eq lossy cookieName hg, if_pos ht, hl, hid, Option.some_or]

/-- How the cookies are distributed over lines does not matter, as long as the sticky cookie stays
on the first line and this line is a text. -/
theorem readStickyBackend_congr {headers headers' : HeaderMap}
    (hp : cookiePairs headers = cookiePairs headers')
    (h : OnFirstLine lossy cookieName headers) (h' : OnFirstLine lossy cookieName headers') :
    readStickyBackend lossy headers cookieName = readStickyBackend lossy headers' cookieName := by
  rw [readStickyBackend_of_onFirstLine lossy cookieName h,
    readStickyBackend_of_onFirstLine lossy cookieName h', stickyCookie, hp, stickyCookie]

/-- **When session affinity is kept.**  The backend that the sticky cookie names, wherever it stands
among the cookies of the request, is found if the cookie is on the first `Cookie` line and this line
is a text, and only then. -/
theorem readStickyBackend_exact_iff {headers : HeaderMap}
    (h : (stickyCookie lossy cookieName headers).isSome = true) :
    readStickyBackend lossy headers cookieName = stickyCookie lossy cookieName headers ↔
      OnFirstLine lossy cookieName headers := by
  refine ⟨fun heq => ?_, readStickyBackend_of_onFirstLine lossy cookieName⟩
  rw [← heq] at h
  cases hg : headers.get "cookie" with
  | none =>
    rw [readStickyBackend, hg] at h
    cases h
  | some line =>
    rw [readStickyBackend_eq lossy cookieName hg] at h
    split_ifs at h with ht
    · exact ⟨line, hg, ht, h⟩
    · cases h

end

/-- The cookie is on the first of two lines. -/
theorem readStickyBackend_exact_first :
    (stickyCookie (fun _ => []) "lb" ⟨[("cookie", .fromStatic "lb=b1"),
        ("cookie", .fromStatic "a=1")]⟩).isSome = true ∧
      readStickyBackend (fun _ => []) ⟨[("cookie", .fromStatic "lb=b1"),
        ("cookie", .fromStatic "a=1")]⟩ "lb" = stickyCookie (fun _ => []) "lb"
          ⟨[("cookie", .fromStatic "lb=b1"), ("cookie", .fromStatic "a=1")]⟩ := by
  have hs : (stickyCookie (fun _ => []) "lb" ⟨[("cookie", .fromStatic "lb=b1"),
      ("cookie", .fromStatic "a=1")]⟩).isSome = true := by decide
  refine ⟨hs, (readStickyBackend_exact_iff _ _ hs).mpr ?_⟩
  exact ⟨.fromStatic "lb=b1", by decide, by decide, by decide⟩

/-- The cookies `a=1` and `lb=b1` pin the client if they come on one line, and not on two; nor does
`lb=b1` on a line on which another cookie has the byte 0xe9. -/
theorem affinity_lost_over_lines :
    let one : HeaderMap := ⟨[("cookie", .fromStatic "a=1;lb=b1")]⟩
    let two : HeaderMap := ⟨[("cookie", .fromStatic "a=1"), ("cookie", .fromStatic "lb=b1")]⟩
    let foreign : HeaderMap := ⟨[("cookie", ⟨"a=é;lb=b1".toList, by decide⟩)]⟩
    cookiePairs one = cookiePairs two ∧
      stickyCookie (fun _ => []) "lb" two = some "b1" ∧
      readStickyBackend (fun _ => []) one "lb" = some "b1" ∧
      readStickyBackend (fun _ => []) two "lb" = none ∧
      stickyCookie (fun _ => []) "lb" foreign = some "b1" ∧
      readStickyBackend (fun _ => []) foreign "lb" = none := by
  decide

end LoadBalancer.Proxy
