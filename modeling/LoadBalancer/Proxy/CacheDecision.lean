import LoadBalancer.Proxy.Cache

/-!
# Which responses may be stored, and for how long

`cacheable_ttl` reads the directives of all `Cache-Control` lines one by one, stops at the first
that forbids to store the response, and keeps the last age of either kind.

A directive is what stands between two commas of a line.  A line that is not visible ASCII text is
not read at all, and the response is then not stored.
-/

namespace LoadBalancer.Proxy

open List

/-! ## Directives -/

def directiveText (directive : List Char) : List Char := lowercase (trim directive)

def directiveName (directive : List Char) : List Char :=
  trim ((directiveText directive).takeWhile (· ≠ '='))

def Forbids (directive : List Char) : Prop :=
  directiveName directive ∈ ["no-store".toList, "private".toList, "no-cache".toList]

instance : DecidablePred Forbids := fun _ => inferInstanceAs (Decidable (_ ∈ _))

/-- The value of an age directive, `name` ending in the equals sign. -/
def ageValue (name : String) (directive : List Char) : Option (List Char) :=
  (directiveText directive).dropPrefix? name.toList

def ageValues (name : String) (directives : List (List Char)) : List (List Char) :=
  directives.filterMap (ageValue name)

/-- The value that decides: the last `s-maxage` if there is one, else the last `max-age`. -/
def decidingAge (directives : List (List Char)) : Option (List Char) :=
  (ageValues "s-maxage=" directives).getLast?.or (ageValues "max-age=" directives).getLast?

/-- How long a response is stored whose directives do not forbid it. -/
def ttlOf (defaultTtl : Duration) (age : Option (List Char)) : Option Duration :=
  match age with
  | none => some defaultTtl
  | some value =>
    match parseSeconds value with
    | none => none
    | some 0 => none
    | some secs => some (.fromSecs secs)

def directives (headers : HeaderMap) : List (List Char) :=
  (headers.getAll "cache-control").flatMap fun value => value.bytes.splitOn ','

/-! ## Reading them one by one -/

lemma ageValue_maxAge_of_sMaxage {directive value : List Char}
    (h : ageValue "s-maxage=" directive = some value) : ageValue "max-age=" directive = none := by
  obtain ⟨start, ht, hs⟩ := List.dropPrefix?_eq_some_iff.mp h
  rw [ageValue, ht, eq_of_beq hs]
  rfl

lemma CacheAges.read_eq (ages : CacheAges) (directive : List Char) :
    ages.read directive =
      if Forbids directive then none
      else some ⟨((ageValue "max-age=" directive).map parseSeconds).or ages.maxAge,
        ((ageValue "s-maxage=" directive).map parseSeconds).or ages.sMaxage⟩ := by
  have hs : (lowercase (trim directive)).dropPrefix? "s-maxage=".toList
      = ageValue "s-maxage=" directive := rfl
  have hm : (lowercase (trim directive)).dropPrefix? "max-age=".toList
      = ageValue "max-age=" directive := rfl
  unfold CacheAges.read
  dsimp only
  rw [hs, hm]
  refine if_congr Iff.rfl rfl ?_
  cases hsh : ageValue "s-maxage=" directive with
  | some secs =>
    rw [ageValue_maxAge_of_sMaxage hsh]
    rfl
  | none => cases ageValue "max-age=" directive <;> rfl

lemma getLast?_ageValues_append (name : String) (directives : List (List Char))
    (directive : List Char) :
    (ageValues name (directives ++ [directive])).getLast?
      = (ageValue name directive).or (ageValues name directives).getLast? := by
  rw [ageValues, ageValues, filterMap_append, List.getLast?_append]
  cases hv : ageValue name directive <;> simp [hv]

/-- **All directives.**  One that forbids is never missed, and the last age of each kind is kept. -/
lemma foldlM_read (directives : List (List Char)) :
    directives.foldlM CacheAges.read ⟨none, none⟩ =
      if ∃ directive ∈ directives, Forbids directive then none
      else some ⟨(ageValues "max-age=" directives).getLast?.map parseSeconds,
        (ageValues "s-maxage=" directives).getLast?.map parseSeconds⟩ := by
  induction directives using List.reverseRecOn with
  | nil => simp [ageValues]
  | append_singleton directives directive ih =>
    rw [foldlM_append, ih, getLast?_ageValues_append, getLast?_ageValues_append,
      Option.map_or, Option.map_or]
    by_cases hb : ∃ directive ∈ directives, Forbids directive
    · obtain ⟨found, hm, hf⟩ := hb
      rw [if_pos ⟨found, hm, hf⟩, if_pos ⟨found, mem_append_left _ hm, hf⟩]
      rfl
    · rw [if_neg hb, Option.bind_eq_bind, Option.bind_some, foldlM_cons, CacheAges.read_eq]
      by_cases hf : Forbids directive
      · rw [if_pos hf, if_pos ⟨directive, by simp, hf⟩]
        rfl
      · have hn : ¬ ∃ d ∈ directives ++ [directive], Forbids d := by
          rintro ⟨d, hd, hd'⟩
          rcases mem_append.mp hd with hm | hm
          · exact hb ⟨d, hm, hd'⟩
          · exact hf (mem_singleton.mp hm ▸ hd')
        rw [if_neg hf, if_neg hn]
        rfl

/-! ## The decision -/

/-- What a response must be for a time to be given. -/
structure Shareable (method : Method) (status : ℕ) (headers : HeaderMap) (maxEntryBytes : ℕ) :
    Prop where
  get : method = .get
  ok : status = 200
  length : ∃ n, ((headers.get "content-length").bind HeaderValue.toStr).bind
    (Text.parseUnsigned (2 ^ 64)) = some n ∧ n ≤ maxEntryBytes
  no_cookie : headers.containsKey "set-cookie" = false
  varies : ∀ value ∈ headers.getAll "vary", ∃ text, value.toStr = some text ∧
    ∀ field ∈ text.splitOn ',', trim field ≠ [] → lowercase (trim field) = "accept-encoding".toList
  allowed : ∀ directive ∈ directives headers, ¬ Forbids directive

def Readable (headers : HeaderMap) : Prop :=
  ∀ value ∈ headers.getAll "cache-control", value.toStr.isSome = true

lemma mapM_toStr (values : List HeaderValue) :
    values.mapM HeaderValue.toStr =
      if ∀ value ∈ values, value.toStr.isSome = true then some (values.map fun v => v.bytes)
      else none := by
  induction values with
  | nil => simp
  | cons value values ih =>
    rw [mapM_cons, ih]
    cases hv : value.toStr with
    | none => simp [hv]
    | some text =>
      obtain rfl := HeaderValue.toStr_eq hv
      by_cases hr : ∀ v ∈ values, v.toStr.isSome = true
      · rw [if_pos hr, if_pos (forall_mem_cons.mpr ⟨by simp [hv], hr⟩)]
        rfl
      · rw [if_neg hr, if_neg fun ha => hr (forall_mem_cons.mp ha).2]
        rfl

lemma variesOnlyOnAcceptEncoding_iff {headers : HeaderMap} :
    variesOnlyOnAcceptEncoding headers = true ↔
      ∀ value ∈ headers.getAll "vary", ∃ text, value.toStr = some text ∧
        ∀ field ∈ text.splitOn ',', trim field ≠ [] →
          lowercase (trim field) = "accept-encoding".toList := by
  rw [variesOnlyOnAcceptEncoding, all_eq_true]
  refine forall₂_congr fun value _ => ?_
  rw [Option.any_eq_true]
  refine exists_congr fun text => and_congr_right fun _ => ?_
  rw [all_eq_true]
  constructor
  · intro h field hf hne
    refine of_decide_eq_true (h (trim field) (mem_filter.mpr ⟨?_, decide_eq_true hne⟩))
    exact mem_map_of_mem hf
  · intro h field hf
    obtain ⟨hm, hne⟩ := mem_filter.mp hf
    obtain ⟨field, hs, rfl⟩ := mem_map.mp hm
    exact decide_eq_true (h field hs (of_decide_eq_true hne))

section

variable {method : Method} {status : ℕ} {headers : HeaderMap} {maxEntryBytes : ℕ}
  {defaultTtl : Duration}

lemma ttl_of_ages (directives : List (List Char)) :
    (match ((ageValues "s-maxage=" directives).getLast?.map parseSeconds).or
        ((ageValues "max-age=" directives).getLast?.map parseSeconds) with
      | none => some defaultTtl
      | some none => none
      | some (some 0) => none
      | some (some secs) => some { secs := secs, nanos := 0 })
      = ttlOf defaultTtl (decidingAge directives) := by
  rw [← Option.map_or]
  unfold ttlOf decidingAge
  cases (ageValues "s-maxage=" directives).getLast?.or
    (ageValues "max-age=" directives).getLast? with
  | none => rfl
  | some value =>
    dsimp only [Option.map_some]
    cases parseSeconds value with
    | none => rfl
    | some secs => cases secs <;> rfl

lemma Shareable.cacheableTtl_eq (h : Shareable method status headers maxEntryBytes)
    (hr : Readable headers) :
    cacheableTtl method status headers maxEntryBytes defaultTtl
      = ttlOf defaultTtl (decidingAge (directives headers)) := by
  obtain ⟨n, hl, hle⟩ := h.length
  have hli : (headers.getAll "cache-control").mapM HeaderValue.toStr
      = some ((headers.getAll "cache-control").map fun v => v.bytes) := by
    rw [mapM_toStr]
    exact if_pos hr
  have hd : ((headers.getAll "cache-control").map fun v => v.bytes).flatMap
      (List.splitOn ',') = directives headers := by
    rw [flatMap_map]
    rfl
  have ha : ¬ ∃ directive ∈ directives headers, Forbids directive := by
    rintro ⟨directive, hm, hf⟩
    exact h.allowed directive hm hf
  have hag := foldlM_read (directives headers)
  rw [if_neg ha] at hag
  rw [← ttl_of_ages]
  unfold cacheableTtl
  simp only [h.get, h.ok, h.no_cookie, hl, hle, hli, hd, hag,
    variesOnlyOnAcceptEncoding_iff.mpr h.varies, Option.bind_eq_bind, Option.bind_some, guard_true]
  rfl

lemma shareable_of_cacheableTtl {ttl : Duration}
    (h : cacheableTtl method status headers maxEntryBytes defaultTtl = some ttl) :
    Shareable method status headers maxEntryBytes ∧ Readable headers := by
  unfold cacheableTtl at h
  simp only [Option.bind_eq_bind, Option.bind_eq_some_iff, Option.guard_eq_some'] at h
  obtain ⟨-, ⟨hg, hok⟩, n, hlen, -, hle, -, hre, lines, hl, ages, ha, -⟩ := h
  rw [mapM_toStr] at hl
  split_ifs at hl with hr
  cases hl
  rw [flatMap_map, foldlM_read] at ha
  split_ifs at ha with hf
  obtain ⟨hc, hv⟩ := Bool.and_eq_true_iff.mp hre
  have hn : ((headers.get "content-length").bind HeaderValue.toStr).bind
      (Text.parseUnsigned (2 ^ 64)) = some n := by
    simpa only [Option.bind_eq_some_iff] using hlen
  refine ⟨⟨hg, hok, ⟨n, hn, hle⟩, by simpa using hc,
    variesOnlyOnAcceptEncoding_iff.mp hv, fun directive hm hd => ?_⟩, hr⟩
  exact hf ⟨directive, hm, hd⟩

lemma cacheableTtl_eq_none
    (h : ¬ (Shareable method status headers maxEntryBytes ∧ Readable headers)) :
    cacheableTtl method status headers maxEntryBytes defaultTtl = none := by
  rw [Option.eq_none_iff_forall_ne_some]
  exact fun ttl ht => h (shareable_of_cacheableTtl ht)

/-- The same lines, `Cache-Control` in any order. -/
structure Reordered (headers headers' : HeaderMap) : Prop where
  lines : (headers.getAll "cache-control").Perm (headers'.getAll "cache-control")
  others : ∀ name, name ≠ "cache-control" → headers'.getAll name = headers.getAll name

lemma Reordered.directives {headers' : HeaderMap} (h : Reordered headers headers') :
    (directives headers).Perm (directives headers') :=
  h.lines.flatMap_right _

lemma Reordered.symm {headers' : HeaderMap} (h : Reordered headers headers') :
    Reordered headers' headers :=
  ⟨h.lines.symm, fun name hne => (h.others name hne).symm⟩

lemma Reordered.shareable {headers' : HeaderMap} (h : Reordered headers headers')
    (hs : Shareable method status headers maxEntryBytes ∧ Readable headers) :
    Shareable method status headers' maxEntryBytes ∧ Readable headers' := by
  obtain ⟨hs, hr⟩ := hs
  have hg : headers'.get "content-length" = headers.get "content-length" :=
    congrArg List.head? (h.others _ (by decide))
  have hc : headers'.containsKey "set-cookie" = headers.containsKey "set-cookie" := by
    rw [MultiMap.containsKey, MultiMap.containsKey, h.others "set-cookie" (by decide)]
  refine ⟨⟨hs.get, hs.ok, hg ▸ hs.length, hc ▸ hs.no_cookie, ?_, fun d hd => ?_⟩,
    fun value hv => hr value (h.lines.mem_iff.mpr hv)⟩
  · rw [h.others "vary" (by decide)]
    exact hs.varies
  · exact hs.allowed d (h.directives.mem_iff.mpr hd)

lemma decidingAge_perm {ds ds' : List (List Char)} (hp : ds.Perm ds')
    (hsh : (ageValues "s-maxage=" ds).length ≤ 1)
    (hm : (ageValues "max-age=" ds).length ≤ 1) : decidingAge ds' = decidingAge ds := by
  have hs : ∀ name, (ageValues name ds).length ≤ 1 → ageValues name ds' = ageValues name ds := by
    intro name hl
    have hv : (ageValues name ds).Perm (ageValues name ds') := hp.filterMap _
    rcases Nat.le_one_iff_eq_zero_or_eq_one.mp hl with hz | ho
    · rw [length_eq_zero_iff] at hz
      rw [hz] at hv ⊢
      exact hv.nil_eq.symm
    · obtain ⟨value, hva⟩ := length_eq_one_iff.mp ho
      rw [hva] at hv ⊢
      exact hv.singleton_eq.symm
  rw [decidingAge, decidingAge, hs _ hsh, hs _ hm]

end

/-- **Only shareable responses, for the right time.**  Nothing else is given a time; a shareable
response whose `Cache-Control` lines are texts gets the time of the deciding age; and the order of
these lines makes no difference if no age is given twice. -/
theorem cacheableTtl_exact (method : Method) (status : ℕ) (headers : HeaderMap)
    (maxEntryBytes : ℕ) (defaultTtl : Duration) :
    (∀ ttl, cacheableTtl method status headers maxEntryBytes defaultTtl = some ttl →
      Shareable method status headers maxEntryBytes) ∧
    (Shareable method status headers maxEntryBytes → Readable headers →
      cacheableTtl method status headers maxEntryBytes defaultTtl
        = ttlOf defaultTtl (decidingAge (directives headers))) ∧
    ∀ headers', Reordered headers headers' →
      (ageValues "s-maxage=" (directives headers)).length ≤ 1 →
      (ageValues "max-age=" (directives headers)).length ≤ 1 →
      cacheableTtl method status headers' maxEntryBytes defaultTtl
        = cacheableTtl method status headers maxEntryBytes defaultTtl := by
  refine ⟨fun ttl h => (shareable_of_cacheableTtl h).1, fun h hr => h.cacheableTtl_eq hr,
    fun headers' h hsh hm => ?_⟩
  by_cases hs : Shareable method status headers maxEntryBytes ∧ Readable headers
  · obtain ⟨hs', hr'⟩ := h.shareable hs
    rw [hs.1.cacheableTtl_eq hs.2, hs'.cacheableTtl_eq hr', decidingAge_perm h.directives hsh hm]
  · rw [cacheableTtl_eq_none hs, cacheableTtl_eq_none fun hs' => hs (h.symm.shareable hs')]

def agedTwice : HeaderMap :=
  ⟨[("content-length", .fromStatic "5"), ("vary", .fromStatic "Accept-Encoding"),
    ("cache-control", .fromStatic "public , S-MaxAge=60"),
    ("cache-control", .fromStatic "max-age=\"5\"")]⟩

theorem cacheableTtl_exact_aged_twice :
    Shareable .get 200 agedTwice 1024 ∧ Readable agedTwice ∧
      cacheableTtl .get 200 agedTwice 1024 ⟨10, 0, by decide⟩ = some ⟨60, 0, by decide⟩ := by
  have hr : Readable agedTwice := by
    unfold Readable
    decide +kernel
  obtain ⟨ho, ht, -⟩ := cacheableTtl_exact .get 200 agedTwice 1024 ⟨10, 0, by decide⟩
  have hs : Shareable .get 200 agedTwice 1024 := ho ⟨60, 0, by decide⟩ (by decide +kernel)
  refine ⟨hs, hr, (ht hs hr).trans ?_⟩
  decide +kernel

def oneForeignByte : HeaderMap :=
  ⟨[("content-length", .fromStatic "5"),
    ("cache-control", ⟨"max-age=60, note=\u00e9".toList, by decide⟩)]⟩

/-- No directive forbids to store the response, and one gives it a minute, but it is not stored. -/
theorem unreadable_line_not_stored :
    Shareable .get 200 oneForeignByte 1024 ∧
      directives oneForeignByte = ["max-age=60".toList, " note=\u00e9".toList] ∧
      ttlOf ⟨10, 0, by decide⟩ (decidingAge (directives oneForeignByte))
        = some ⟨60, 0, by decide⟩ ∧
      cacheableTtl .get 200 oneForeignByte 1024 ⟨10, 0, by decide⟩ = none := by
  refine ⟨⟨rfl, rfl, ⟨5, by decide +kernel, by decide⟩, by decide +kernel, ?_, ?_⟩,
    by decide +kernel, by decide +kernel, by decide +kernel⟩
  · intro value hv
    have hn : oneForeignByte.getAll "vary" = [] := by decide +kernel
    rw [hn] at hv
    cases hv
  · decide +kernel

end LoadBalancer.Proxy
