import LoadBalancer.Lib.Text
import LoadBalancer.Proxy.Headers

/-!
# What `strip_hop_by_hop` leaves

A `Connection` header is a list of tokens over any number of lines, and each token names a header
that is meant for this hop only.  `strip_hop_by_hop` reads the lines through `to_str`, which fails
on a line that has a byte from 0x80 on, so that all tokens of that line are passed over.

`connectionTokens` splits a line as bytes, and is what the line names whether or not it is a text.

`is_upgrade_request` (`crates/lb-proxy/src/upgrade.rs`) reads the same header for the token
`upgrade`, but no line of it beyond the first, and of `Upgrade` too only the first line.
-/

namespace LoadBalancer.Proxy

open LoadBalancer.Core List

/-- The whitespace that may stand around the elements of a header list. -/
def isListSpace (c : Char) : Bool := c = ' ' || c = '\t'

/-- The header names in one `Connection` line. -/
def connectionTokens (value : HeaderValue) : List HeaderName :=
  (((value.bytes.splitOn ',').map fun token =>
    lowercase ((token.dropWhile isListSpace).rdropWhile isListSpace)).filter (· ≠ [])).map
      String.ofList

/-- The header is for one hop only: it always is, or some `Connection` line names it. -/
def ConnectionSpecific (headers : HeaderMap) (name : HeaderName) : Prop :=
  name ∈ alwaysHopByHop ∨ name = "upgrade" ∨
    ∃ value ∈ headers.getAll "connection", name ∈ connectionTokens value

/-- The header is for one hop only as far as the `Connection` lines that are texts tell. -/
def TextNamed (headers : HeaderMap) (name : HeaderName) : Prop :=
  name ∈ alwaysHopByHop ∨ name = "upgrade" ∨
    ∃ value ∈ headers.getAll "connection", value.toStr.isSome = true ∧ name ∈ connectionTokens value

/-! ## Lines that are texts -/

lemma isWhitespace_of_visible {c : Char} (h : isVisibleAscii c = true) :
    isWhitespace c = isListSpace c := by
  have hs : c.toNat = 32 ↔ c = ' ' := Char.toNat_inj (c := c) (d := ' ')
  have ht : c.toNat = 9 ↔ c = '\t' := Char.toNat_inj (c := c) (d := '\t')
  rw [Bool.eq_iff_iff]
  simp only [isVisibleAscii, isWhitespace, isListSpace, Bool.or_eq_true, Bool.and_eq_true,
    decide_eq_true_eq, ← hs, ← ht] at h ⊢
  omega

lemma dropWhile_congr_of_mem {p q : Char → Bool} : ∀ {text : List Char},
    (∀ c ∈ text, p c = q c) → text.dropWhile p = text.dropWhile q
  | [], _ => rfl
  | c :: text, h => by
      rw [dropWhile_cons, dropWhile_cons, h c mem_cons_self,
        dropWhile_congr_of_mem fun d hd => h d (mem_cons_of_mem c hd)]

variable {text : List Char} {value : HeaderValue} (h : value.toStr = some text)

/-- On a text `str::trim` takes off what may stand around list elements and no more. -/
lemma trim_of_visible (h : ∀ c ∈ text, isVisibleAscii c = true) :
    trim text = (text.dropWhile isListSpace).rdropWhile isListSpace := by
  have hs : ∀ c ∈ text, isWhitespace c = isListSpace c := fun c hc =>
    isWhitespace_of_visible (h c hc)
  rw [trim, dropWhile_congr_of_mem hs, List.rdropWhile, List.rdropWhile,
    dropWhile_congr_of_mem fun c hc => hs c ?_]
  exact (dropWhile_suffix _).subset (mem_reverse.mp hc)

include h

lemma tokens_of_toStr :
    ((((text.splitOn ',').map fun name => lowercase (trim name)).filter (· ≠ [])).map
      String.ofList) = connectionTokens value := by
  unfold HeaderValue.toStr at h
  split_ifs at h with hv
  cases h
  have hm : (value.bytes.splitOn ',').map (fun name => lowercase (trim name))
      = (value.bytes.splitOn ',').map fun token =>
        lowercase ((token.dropWhile isListSpace).rdropWhile isListSpace) := by
    refine map_congr_left fun token ht => congrArg lowercase ?_
    exact trim_of_visible fun c hc =>
      all_eq_true.mp hv c (Text.mem_of_mem_splitOn ht hc)
  rw [connectionTokens, hm]

omit h

lemma mem_connectionNames {headers : HeaderMap} {name : HeaderName} :
    name ∈ connectionNames headers ↔ ∃ value ∈ headers.getAll "connection",
      value.toStr.isSome = true ∧ name ∈ connectionTokens value := by
  have hf : connectionNames headers = (((headers.getAll "connection").filterMap
      HeaderValue.toStr).map fun text => (((text.splitOn ',').map fun name =>
        lowercase (trim name)).filter (· ≠ [])).map String.ofList).flatten := by
    rw [connectionNames, listElements, map_flatMap, filter_flatMap, map_flatMap]
    rfl
  rw [hf, mem_flatten]
  simp only [mem_map, mem_filterMap]
  constructor
  · rintro ⟨_, ⟨text, ⟨value, hv, ht⟩, rfl⟩, hn⟩
    rw [tokens_of_toStr ht] at hn
    exact ⟨value, hv, Option.isSome_of_eq_some ht, hn⟩
  · rintro ⟨value, hv, hs, hn⟩
    obtain ⟨text, ht⟩ := Option.isSome_iff_exists.mp hs
    rw [← tokens_of_toStr ht] at hn
    exact ⟨_, ⟨text, ⟨value, hv, ht⟩, rfl⟩, hn⟩

lemma isHopByHop_iff_textNamed {headers : HeaderMap} {name : HeaderName} :
    IsHopByHop headers name ↔ TextNamed headers name := by
  rw [IsHopByHop, TextNamed, mem_connectionNames]

/-! ## The headers that are left -/

section

variable (headers : HeaderMap)

variable {name : HeaderName}

lemma getAll_stripHopByHop_of_always (h : name ∈ alwaysHopByHop ∨ name = "upgrade") :
    (stripHopByHop headers).getAll name = [] := by
  have hh : IsHopByHop headers name := h.imp_right Or.inl
  rw [getAll_stripHopByHop, if_pos hh]

/-- The second pass finds no `Connection` line, and nothing else that it removes. -/
lemma stripHopByHop_idempotent :
    stripHopByHop (stripHopByHop headers) = stripHopByHop headers := by
  have hn : connectionNames (stripHopByHop headers) = [] := by
    have hno : (stripHopByHop headers).getAll "connection" = (MultiMap.empty : HeaderMap).getAll
        "connection" := getAll_stripHopByHop_of_always headers (Or.inl (by decide))
    rw [connectionNames_congr hno]
    rfl
  have ha : (stripHopByHop headers).removeAll alwaysHopByHop = stripHopByHop headers :=
    MultiMap.removeAll_of_getAll_eq_nil _ fun name hna =>
      getAll_stripHopByHop_of_always headers (Or.inl hna)
  have hu : (stripHopByHop headers).remove "upgrade" = stripHopByHop headers :=
    MultiMap.remove_of_getAll_eq_nil _ (getAll_stripHopByHop_of_always headers (Or.inr rfl))
  rw [stripHopByHop, hn, ha, hu]
  rfl

lemma getAll_stripHopByHop_of_not_connectionSpecific (h : ¬ ConnectionSpecific headers name) :
    (stripHopByHop headers).getAll name = headers.getAll name := by
  rw [getAll_stripHopByHop, if_neg]
  exact fun hh => h ((isHopByHop_iff_textNamed.mp hh).imp_right fun hn =>
    hn.imp_right fun ⟨value, hv, _, hna⟩ => ⟨value, hv, hna⟩)

lemma getAll_stripHopByHop_eq_nil_iff :
    (stripHopByHop headers).getAll name = [] ↔
      (headers.getAll name ≠ [] → TextNamed headers name) := by
  rw [getAll_stripHopByHop, ← isHopByHop_iff_textNamed]
  split_ifs with h
  · exact iff_of_true rfl fun _ => h
  · exact ⟨fun hn hne => absurd hn hne, fun him => by_contra fun hne => h (him hne)⟩

/-- **When hop-by-hop stripping is complete.**  What it keeps is kept as it was, and a second pass
changes nothing.  It removes every header that is for one hop only exactly when each `Connection`
line that is not a text names no header of the map but those that are removed anyway. -/
theorem stripHopByHop_exact_iff :
    ((∀ name, ConnectionSpecific headers name → (stripHopByHop headers).getAll name = []) ∧
      (∀ name, ¬ ConnectionSpecific headers name →
        (stripHopByHop headers).getAll name = headers.getAll name) ∧
      stripHopByHop (stripHopByHop headers) = stripHopByHop headers) ↔
    ∀ value ∈ headers.getAll "connection", value.toStr = none →
      ∀ name ∈ connectionTokens value, headers.getAll name ≠ [] → TextNamed headers name := by
  constructor
  · rintro ⟨hc, -, -⟩ value hv - name hn hp
    have hs : ConnectionSpecific headers name := Or.inr (Or.inr ⟨value, hv, hn⟩)
    exact (getAll_stripHopByHop_eq_nil_iff headers).mp (hc name hs) hp
  · intro hl
    refine ⟨fun name hs => ?_, fun name =>
      getAll_stripHopByHop_of_not_connectionSpecific headers, stripHopByHop_idempotent headers⟩
    rw [getAll_stripHopByHop_eq_nil_iff]
    intro hp
    rcases hs with ha | hu | ⟨value, hv, hn⟩
    · exact Or.inl ha
    · exact Or.inr (Or.inl hu)
    · cases ht : value.toStr with
      | some text =>
        exact Or.inr (Or.inr ⟨value, hv, Option.isSome_of_eq_some ht, hn⟩)
      | none => exact hl value hv ht name hn hp

end

/-- `Connection: X-Internal, caf\xe9`: the line is not a text, and the header it names goes on. -/
theorem stripHopByHop_keeps_named :
    let connection : HeaderValue := ⟨"X-Internal, café".toList, by decide⟩
    let secret : HeaderValue := ⟨"1".toList, by decide⟩
    let headers : HeaderMap := ⟨[("connection", connection), ("x-internal", secret)]⟩
    ConnectionSpecific headers "x-internal" ∧
      (stripHopByHop headers).getAll "x-internal" = [secret] := by
  intro connection secret headers
  refine ⟨Or.inr (Or.inr ⟨connection, by decide, by decide⟩), by decide⟩

/-! ## Requests to upgrade -/

def HeaderValue.NotBlank (value : HeaderValue) : Prop := ∃ c ∈ value.bytes, isListSpace c = false

/-- By all its lines, the request asks to switch protocols. -/
def AsksToUpgrade (headers : HeaderMap) : Prop :=
  "upgrade" ∈ connectionNames headers ∧ ∃ value ∈ headers.getAll "upgrade", value.NotBlank

/-- The first lines ask to switch protocols, and both are texts. -/
def FirstLinesAsk (headers : HeaderMap) : Prop :=
  (∃ value ∈ headers.get "connection", value.toStr.isSome = true ∧
      "upgrade" ∈ connectionTokens value) ∧
    ∃ value ∈ headers.get "upgrade", value.toStr.isSome = true ∧ value.NotBlank

lemma trim_ne_nil_iff : trim text ≠ [] ↔ ∃ c ∈ text, isWhitespace c = false := by
  constructor
  · intro h
    by_contra hb
    push Not at hb
    have hn : text.dropWhile isWhitespace = [] :=
      dropWhile_eq_nil_iff.mpr fun c hc => by simpa using hb c hc
    exact h (by rw [trim, hn, rdropWhile_nil])
  · rintro ⟨c, hc, hbl⟩ hn
    -- what is left after the leading whitespace begins with something else
    rw [trim, rdropWhile_eq_nil_iff] at hn
    cases hr : text.dropWhile isWhitespace with
    | nil =>
      have hw := dropWhile_eq_nil_iff.mp hr c hc
      rw [hbl] at hw
      cases hw
    | cons d rest =>
      have hf := List.head?_dropWhile_not isWhitespace text
      rw [hr] at hf
      have hb' : isWhitespace d = false := hf
      rw [hn d (by rw [hr]; exact mem_cons_self)] at hb'
      cases hb'

include h

lemma notBlank_of_toStr : trim text ≠ [] ↔ value.NotBlank := by
  have hv : ∀ c ∈ text, isVisibleAscii c = true := by
    unfold HeaderValue.toStr at h
    split_ifs at h with ha
    cases h
    exact all_eq_true.mp ha
  rw [trim_ne_nil_iff, HeaderValue.NotBlank, ← HeaderValue.toStr_eq h]
  exact exists_congr fun c => and_congr_right fun hc => by
    rw [isWhitespace_of_visible (hv c hc)]

/-- The token is looked for as `strip_hop_by_hop` reads the names. -/
lemma upgradeToken_iff :
    ((text.splitOn ',').any fun token => lowercase (trim token) = "upgrade".toList) = true ↔
      "upgrade" ∈ connectionTokens value := by
  rw [← tokens_of_toStr h, any_eq_true]
  simp only [mem_map, mem_filter, decide_eq_true_eq]
  constructor
  · rintro ⟨token, ht, hu⟩
    exact ⟨_, ⟨⟨token, ht, hu⟩, by decide⟩, rfl⟩
  · rintro ⟨name, ⟨⟨token, ht, rfl⟩, -⟩, hn⟩
    exact ⟨token, ht, by rw [← hn, String.toList_ofList]⟩

omit h

lemma isUpgradeRequest_iff (headers : HeaderMap) :
    isUpgradeRequest headers = true ↔ FirstLinesAsk headers := by
  have hr : ∀ (first : Option HeaderValue) {test : List Char → Bool} {P : HeaderValue → Prop},
      (∀ value text, value.toStr = some text → (test text = true ↔ P value)) →
      ((first.bind HeaderValue.toStr).any test = true ↔
        ∃ value ∈ first, value.toStr.isSome = true ∧ P value) := by
    intro first test P hte
    cases first with
    | none => simp
    | some value =>
      rw [Option.bind_some, Option.any_eq_true]
      constructor
      · rintro ⟨text, ht, hp⟩
        exact ⟨value, rfl, Option.isSome_of_eq_some ht, (hte value text ht).mp hp⟩
      · rintro ⟨first, hf, hs, hP⟩
        cases hf
        obtain ⟨text, ht⟩ := Option.isSome_iff_exists.mp hs
        exact ⟨text, ht, (hte value text ht).mpr hP⟩
  unfold isUpgradeRequest FirstLinesAsk
  rw [Bool.and_eq_true]
  refine and_congr (hr _ fun value text ht => upgradeToken_iff ht)
    (hr _ fun value text ht => ?_)
  rw [decide_eq_true_iff]
  exact notBlank_of_toStr ht

lemma FirstLinesAsk.asksToUpgrade {headers : HeaderMap} (h : FirstLinesAsk headers) :
    AsksToUpgrade headers := by
  obtain ⟨⟨value, hv, hte, ht⟩, name, hn, -, hb⟩ := h
  exact ⟨mem_connectionNames.mpr ⟨value, mem_of_mem_head? hv, hte, ht⟩,
    name, mem_of_mem_head? hn, hb⟩

/-! ### Rearranged lines -/

/-- A `Connection` line is split at one of its commas, or lines are reordered. -/
inductive RearrangeStep : HeaderMap → HeaderMap → Prop
  | reorder {lines lines' : List (HeaderName × HeaderValue)} (h : lines.Perm lines') :
      RearrangeStep ⟨lines⟩ ⟨lines'⟩
  | split {before after : List (HeaderName × HeaderValue)} {line first rest : HeaderValue}
      (h : line.bytes = first.bytes ++ ',' :: rest.bytes) :
      RearrangeStep ⟨before ++ ("connection", line) :: after⟩
        ⟨before ++ ("connection", first) :: ("connection", rest) :: after⟩

/-- The lines can be split and reordered to the others. -/
abbrev Rearranges : HeaderMap → HeaderMap → Prop := Relation.ReflTransGen RearrangeStep

/-- What stands between the commas of all `Connection` lines. -/
def connectionElements (headers : HeaderMap) : List (List Char) :=
  (headers.getAll "connection").flatMap fun value => value.bytes.splitOn ','

def IsUpgradeToken (element : List Char) : Prop :=
  lowercase ((element.dropWhile isListSpace).rdropWhile isListSpace) = "upgrade".toList

/-- The lines speak with one voice.  Either no element of `Connection` asks to upgrade, or no
`Upgrade` line names a protocol; or else all elements ask and all `Upgrade` lines are texts that
name one. -/
def Unanimous (headers : HeaderMap) : Prop :=
  (∀ element ∈ connectionElements headers, ¬ IsUpgradeToken element) ∨
    (∀ value ∈ headers.getAll "upgrade", ¬ value.NotBlank) ∨
    ((∀ element ∈ connectionElements headers, IsUpgradeToken element) ∧
      ∀ value ∈ headers.getAll "upgrade", value.toStr.isSome = true ∧ value.NotBlank)

lemma upgrade_mem_connectionTokens_iff :
    "upgrade" ∈ connectionTokens value ↔ ∃ element ∈ value.bytes.splitOn ',',
      IsUpgradeToken element := by
  simp only [connectionTokens, mem_map, mem_filter, decide_eq_true_eq]
  constructor
  · rintro ⟨name, ⟨⟨element, hm, rfl⟩, -⟩, hn⟩
    exact ⟨element, hm, by rw [IsUpgradeToken, ← hn, String.toList_ofList]⟩
  · rintro ⟨element, hm, ht⟩
    exact ⟨_, ⟨⟨element, hm, ht⟩, by decide⟩, rfl⟩

lemma isVisibleAscii_of_toLower {c : Char} (h : c.toLower ∈ "upgrade".toList) :
    isVisibleAscii c = true := by
  unfold Char.toLower at h
  split_ifs at h with hu
  · have hl : 65 ≤ c.toNat := hu.1
    have hh : c.toNat ≤ 90 := hu.2
    simp only [isVisibleAscii, Bool.or_eq_true, Bool.and_eq_true, decide_eq_true_eq]
    omega
  · exact all_eq_true.mp (by decide : "upgrade".toList.all isVisibleAscii = true) c h

/-- The token is a text, with nothing but whitespace around it. -/
lemma IsUpgradeToken.visible (h : IsUpgradeToken text) : text.all isVisibleAscii = true := by
  have hk : ∀ {c : Char} {text : List Char}, c ∈ text → isListSpace c = false →
      c ∈ text.dropWhile isListSpace := by
    intro c text hc hb
    rw [← takeWhile_append_dropWhile (p := isListSpace) (l := text), mem_append] at hc
    exact hc.resolve_left fun ht => by simp [mem_takeWhile_imp ht] at hb
  rw [all_eq_true]
  intro c hc
  cases hs : isListSpace c with
  | true =>
    rcases (by simpa [isListSpace] using hs : c = ' ' ∨ c = '\t') with rfl | rfl <;> decide
  | false =>
    refine isVisibleAscii_of_toLower ?_
    rw [← h]
    exact mem_map_of_mem (mem_reverse.mpr
      (hk (mem_reverse.mpr (hk hc hs)) hs))

lemma toStr_isSome_iff : value.toStr.isSome = true ↔ value.bytes.all isVisibleAscii = true := by
  unfold HeaderValue.toStr
  split_ifs with ha <;> simp [ha]

/-- A line of which every element is the token is read, and has it. -/
lemma upgrade_line {value : HeaderValue}
    (h : ∀ element ∈ value.bytes.splitOn ',', IsUpgradeToken element) :
    value.toStr.isSome = true ∧ "upgrade" ∈ connectionTokens value := by
  obtain ⟨element, hm⟩ := exists_mem_of_ne_nil _ (splitOn_ne_nil ',' value.bytes)
  refine ⟨toStr_isSome_iff.mpr (all_eq_true.mpr fun c hc => ?_),
    upgrade_mem_connectionTokens_iff.mpr ⟨element, hm, h element hm⟩⟩
  have hj : c ∈ [','].intercalate (value.bytes.splitOn ',') := by rwa [intercalate_splitOn]
  rcases Text.mem_of_mem_intercalate hj with rfl | ⟨element, he, hc⟩
  · decide
  · exact all_eq_true.mp (h element he).visible c hc

lemma Unanimous.asksToUpgrade_iff {headers : HeaderMap} (h : Unanimous headers) :
    AsksToUpgrade headers ↔ (∃ element ∈ connectionElements headers, IsUpgradeToken element) ∧
      ∃ value ∈ headers.getAll "upgrade", value.NotBlank := by
  refine and_congr_left fun ⟨upgrade, hu, hb⟩ => ?_
  rw [mem_connectionNames]
  constructor
  · rintro ⟨value, hv, -, ht⟩
    obtain ⟨element, he, ha⟩ := upgrade_mem_connectionTokens_iff.mp ht
    exact ⟨element, mem_flatMap.mpr ⟨value, hv, he⟩, ha⟩
  · rintro ⟨element, he, ha⟩
    rcases h with hn | hbl | ⟨hal, -⟩
    · exact absurd ha (hn element he)
    · exact absurd hb (hbl upgrade hu)
    · obtain ⟨value, hv, -⟩ := mem_flatMap.mp he
      exact ⟨value, hv, upgrade_line fun element hm =>
        hal element (mem_flatMap.mpr ⟨value, hv, hm⟩)⟩

lemma Unanimous.exact {headers : HeaderMap} (h : Unanimous headers) :
    isUpgradeRequest headers = true ↔ AsksToUpgrade headers := by
  rw [isUpgradeRequest_iff]
  refine ⟨FirstLinesAsk.asksToUpgrade, fun ha => ?_⟩
  obtain ⟨⟨element, he, hto⟩, upgrade, hu, hb⟩ := h.asksToUpgrade_iff.mp ha
  rcases h with hn | hbl | ⟨hal, ht⟩
  · exact absurd hto (hn element he)
  · exact absurd hb (hbl upgrade hu)
  · obtain ⟨value, hv, -⟩ := mem_flatMap.mp he
    obtain ⟨first, hf⟩ := Option.isSome_iff_exists.mp
      (List.isSome_head?.mpr (ne_nil_of_mem hv))
    obtain ⟨protocol, hp⟩ := Option.isSome_iff_exists.mp
      (List.isSome_head?.mpr (ne_nil_of_mem hu))
    refine ⟨⟨first, hf, upgrade_line fun element hm => hal element ?_⟩, protocol, hp,
      ht protocol (mem_of_mem_head? hp)⟩
    exact mem_flatMap.mpr ⟨first, mem_of_mem_head? hf, hm⟩

lemma RearrangeStep.perm {headers headers' : HeaderMap} (h : RearrangeStep headers headers') :
    (connectionElements headers).Perm (connectionElements headers') ∧
      (headers.getAll "upgrade").Perm (headers'.getAll "upgrade") := by
  cases h with
  | reorder h =>
    exact ⟨(MultiMap.getAll_perm h "connection").flatMap_right _, MultiMap.getAll_perm h "upgrade"⟩
  | split h =>
    refine ⟨.of_eq ?_, .of_eq ?_⟩
    · simp [connectionElements, MultiMap.getAll, h, splitOn_append_cons_self]
    · simp [MultiMap.getAll]

lemma Rearranges.perm {headers headers' : HeaderMap} (h : Rearranges headers headers') :
    (connectionElements headers).Perm (connectionElements headers') ∧
      (headers.getAll "upgrade").Perm (headers'.getAll "upgrade") := by
  induction h with
  | refl => exact ⟨.refl _, .refl _⟩
  | tail _ hs ih => exact ⟨ih.1.trans hs.perm.1, ih.2.trans hs.perm.2⟩

lemma Rearranges.unanimous_iff {headers headers' : HeaderMap} (h : Rearranges headers headers') :
    Unanimous headers ↔ Unanimous headers' := by
  unfold Unanimous
  simp only [h.perm.1.mem_iff, h.perm.2.mem_iff]

/-- Each line can be split at all its commas. -/
lemma exists_rearranges_split (value : HeaderValue)
    (before after : List (HeaderName × HeaderValue)) :
    ∃ values : List HeaderValue, (∀ v ∈ values, ',' ∉ v.bytes) ∧
      Rearranges ⟨before ++ ("connection", value) :: after⟩
        ⟨before ++ (values.map fun v => ("connection", v)) ++ after⟩ := by
  induction hl : value.bytes.length using Nat.strongRecOn generalizing value before with
  | ind n ih =>
    by_cases hc : ',' ∈ value.bytes
    · obtain ⟨first, rest, hs, hn⟩ := eq_append_cons_of_mem hc
      have hv := value.valid
      rw [hs, all_append, all_cons, Bool.and_eq_true, Bool.and_eq_true] at hv
      have hsh : rest.length < n := by rw [← hl, hs]; simp; omega
      obtain ⟨values, hva, hr⟩ := ih _ hsh ⟨rest, hv.2.2⟩
        (before ++ [("connection", ⟨first, hv.1⟩)]) rfl
      refine ⟨⟨first, hv.1⟩ :: values, forall_mem_cons.mpr ⟨hn, hva⟩,
        .head (.split hs) (by simpa using hr)⟩
    · exact ⟨[value], by simpa using hc, by simpa using .refl⟩

lemma exists_rearranges_single (headers : HeaderMap) : ∃ headers', Rearranges headers headers' ∧
    ∀ value ∈ headers'.getAll "connection", ',' ∉ value.bytes := by
  suffices hl : ∀ lines before : List (HeaderName × HeaderValue), ∃ lines',
      Rearranges ⟨before ++ lines⟩ ⟨before ++ lines'⟩ ∧
        ∀ line ∈ lines', line.1 = "connection" → ',' ∉ line.2.bytes by
    obtain ⟨lines', hr, hs⟩ := hl headers.lines []
    refine ⟨⟨lines'⟩, hr, fun value hva => ?_⟩
    obtain ⟨line, hli, rfl⟩ := mem_map.mp hva
    obtain ⟨hm, hn⟩ := mem_filter.mp hli
    exact hs line hm (by simpa using hn)
  intro lines
  induction lines with
  | nil => exact fun before => ⟨[], .refl, by simp⟩
  | cons line lines ih =>
    intro before
    obtain ⟨name, value⟩ := line
    by_cases hn : name = "connection"
    · subst hn
      obtain ⟨values, hv, hsp⟩ := exists_rearranges_split value before lines
      obtain ⟨lines', hre, hs⟩ := ih (before ++ values.map fun v => ("connection", v))
      refine ⟨values.map (fun v => ("connection", v)) ++ lines', ?_, ?_⟩
      · exact hsp.trans (by simpa using hre)
      · simpa [or_imp, forall_and] using ⟨hv, fun a b h => hs (a, b) h⟩
    · obtain ⟨lines', hre, hs⟩ := ih (before ++ [(name, value)])
      refine ⟨(name, value) :: lines', by simpa using hre, ?_⟩
      exact forall_mem_cons.mpr ⟨fun h => absurd h hn, hs⟩

/-- Any line of a header can be put first. -/
lemma exists_rearranges_first {headers : HeaderMap} {name : HeaderName} {value : HeaderValue}
    (h : value ∈ headers.getAll name) :
    ∃ headers', Rearranges headers headers' ∧ headers'.get name = some value ∧
      ∀ other, (headers.getAll other).Perm (headers'.getAll other) := by
  obtain ⟨⟨_, _⟩, hl, rfl⟩ := mem_map.mp h
  obtain ⟨hm, hn⟩ := mem_filter.mp hl
  obtain rfl : _ = name := by simpa using hn
  have hp := perm_cons_erase hm
  refine ⟨⟨_⟩, .single (.reorder hp), ?_, MultiMap.getAll_perm hp⟩
  simp [MultiMap.get, MultiMap.getAll]

/-- If one element asks and another does not, or one `Upgrade` line names a protocol and another is
none that is read, the lines can be rearranged so that the first ones do not ask. -/
lemma exists_rearranges_missed {headers : HeaderMap} (h : ¬ Unanimous headers) :
    ∃ headers', Rearranges headers headers' ∧ AsksToUpgrade headers' ∧
      isUpgradeRequest headers' = false := by
  obtain ⟨single, hs, hc⟩ := exists_rearranges_single headers
  rw [hs.unanimous_iff] at h
  -- every element stands on a line of its own
  have hli : ∀ element ∈ connectionElements single, ∃ value ∈ single.getAll "connection",
      value.bytes = element := by
    intro element he
    obtain ⟨value, hv, hm⟩ := mem_flatMap.mp he
    rw [splitOn_eq_singleton (hc value hv), mem_singleton] at hm
    exact ⟨value, hv, hm.symm⟩
  unfold Unanimous at h
  push Not at h
  obtain ⟨⟨element, he, ha⟩, ⟨upgrade, hup, hb⟩, hd⟩ := h
  obtain ⟨value, hv, rfl⟩ := hli element he
  have hn : ∀ {headers' : HeaderMap}, (single.getAll "connection").Perm
      (headers'.getAll "connection") → (single.getAll "upgrade").Perm (headers'.getAll "upgrade") →
      AsksToUpgrade headers' := by
    intro headers' hco hu
    refine ⟨mem_connectionNames.mpr ⟨value, hco.mem_iff.mp hv,
      toStr_isSome_iff.mpr ha.visible, upgrade_mem_connectionTokens_iff.mpr ⟨value.bytes, ?_,
        ha⟩⟩, upgrade, hu.mem_iff.mp hup, hb⟩
    rw [splitOn_eq_singleton (hc value hv)]
    exact mem_singleton.mpr rfl
  by_cases hal : ∀ element ∈ connectionElements single, IsUpgradeToken element
  · obtain ⟨protocol, hpr, hun⟩ := hd hal
    obtain ⟨headers', hf, hg, hp⟩ := exists_rearranges_first hpr
    refine ⟨headers', hs.trans hf, hn (hp _) (hp _), ?_⟩
    rw [← Bool.not_eq_true, isUpgradeRequest_iff]
    rintro ⟨-, value', hv', hte, hb'⟩
    cases hg.symm.trans hv'
    exact hun hte hb'
  · push Not at hal
    obtain ⟨other, ho, hsi⟩ := hal
    obtain ⟨line, hl, rfl⟩ := hli other ho
    obtain ⟨headers', hf, hg, hp⟩ := exists_rearranges_first hl
    refine ⟨headers', hs.trans hf, hn (hp _) (hp _), ?_⟩
    rw [← Bool.not_eq_true, isUpgradeRequest_iff]
    rintro ⟨⟨line', hli', -, ht⟩, -⟩
    cases hg.symm.trans hli'
    rw [upgrade_mem_connectionTokens_iff, splitOn_eq_singleton (hc line hl)] at ht
    simp [hsi] at ht

/-- **When upgrades are detected.**  However the lines are split and reordered, a request is treated
as an upgrade exactly when its lines ask for one, if they speak with one voice, and only then.  The
lines then still do so, and whether the request is an upgrade does not change. -/
theorem upgrade_detection_steady_iff (headers : HeaderMap) :
    ((∀ headers', Rearranges headers headers' →
        (isUpgradeRequest headers' = true ↔ AsksToUpgrade headers')) ↔ Unanimous headers) ∧
      (Unanimous headers → ∀ headers', Rearranges headers headers' →
        Unanimous headers' ∧ isUpgradeRequest headers' = isUpgradeRequest headers) := by
  refine ⟨⟨fun he => ?_, fun h headers' hr => (hr.unanimous_iff.mp h).exact⟩,
    fun h headers' hr => ⟨hr.unanimous_iff.mp h, ?_⟩⟩
  · by_contra hd
    obtain ⟨headers', hr, ha, hm⟩ := exists_rearranges_missed hd
    exact absurd ((he headers' hr).mpr ha) (by simp [hm])
  · have h' := hr.unanimous_iff.mp h
    rw [Bool.eq_iff_iff, h.exact, h'.exact, h.asksToUpgrade_iff, h'.asksToUpgrade_iff]
    simp only [hr.perm.1.mem_iff, hr.perm.2.mem_iff]

/-- `Connection: keep-alive` and `Connection: Upgrade` on lines of their own are no upgrade, and in
the other order they are one. -/
theorem upgrade_on_second_line_missed :
    let keepAlive : HeaderMap := ⟨[("connection", .fromStatic "keep-alive"),
      ("connection", .fromStatic "Upgrade"), ("upgrade", .fromStatic "websocket")]⟩
    let upgrade : HeaderMap := ⟨[("connection", .fromStatic "Upgrade"),
      ("connection", .fromStatic "keep-alive"), ("upgrade", .fromStatic "websocket")]⟩
    AsksToUpgrade keepAlive ∧ isUpgradeRequest keepAlive = false ∧
      keepAlive.lines.Perm upgrade.lines ∧ isUpgradeRequest upgrade = true := by
  intro keepAlive upgrade
  refine ⟨⟨by decide, .fromStatic "websocket", by decide, 'w', by decide, by decide⟩, by decide,
    List.Perm.swap _ _ _, by decide⟩

end LoadBalancer.Proxy
