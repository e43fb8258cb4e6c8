import LoadBalancer.Proxy.PurgeRoutes
import LoadBalancer.Server.Contexts

/-!
# Path prefixes and path segments

The path prefix of a route or of a direct response stands for the segments it is made of: `/api`
claims `/api` and all below it, and not `/apiary`.  The code tests whether the path is the prefix
or goes on behind it with a slash (`prefix_and_host_match` in `crates/lb-proxy/src/direct.rs`).
This is the same as long as the prefix does not end in a slash itself.  Behind `/` or `/api/` the
test asks for a second slash, so that `/` claims no more than `/` and what begins with `//`.
-/

namespace LoadBalancer.Server

open LoadBalancer.Proxy

def CompiledRoute.matches (route : CompiledRoute) (path : List Char) (host : Option (List Char)) :
    Bool :=
  prefixAndHostMatch (route.pathPrefix.map String.toList) (route.host.map String.toList) path host

def DirectResponse.matches (direct : DirectResponse) (path : List Char)
    (host : Option (List Char)) : Bool :=
  prefixAndHostMatch (direct.pathPrefix.map String.toList) (direct.host.map String.toList) path host

end LoadBalancer.Server

namespace LoadBalancer.Proxy

open LoadBalancer.Server

/-! ## Segments -/

/-- What stands between the slashes behind the first, if the path begins with one. -/
def segments : List Char → Option (List (List Char))
  | '/' :: path => some (path.splitOn '/')
  | _ => none

/-- A last segment that is empty is none: `/api/` has the segments of `/api`, and `/` has none. -/
def prefixSegments (start : List Char) : Option (List (List Char)) :=
  (segments start).map fun all => if all.getLast? = some [] then all.dropLast else all

def BeginsWithSegments (start path : List Char) : Prop :=
  ∃ expected ∈ prefixSegments start, ∃ all ∈ segments path, expected <+: all

def HostAllowed (hostRule : Option String) (host : Option (List Char)) : Prop :=
  ∀ expected ∈ hostRule, ∃ name ∈ host, lowercase name = lowercase expected.toList

lemma prefixAndHostMatch_iff {start : String} {hostRule : Option String}
    {host : Option (List Char)} (hh : HostAllowed hostRule host) (path : List Char) :
    prefixAndHostMatch (some start.toList) (hostRule.map String.toList) path host = true ↔
      path = start.toList ∨ (start.toList ++ ['/']) <+: path := by
  have ha : (hostRule.map String.toList).all (fun expected =>
      host.any fun name => lowercase name = lowercase expected) = true := by
    rw [Option.all_map, Option.all_eq_true]
    intro expected he
    obtain ⟨name, hn, heq⟩ := hh expected he
    exact Option.any_eq_true _ _ |>.mpr ⟨name, hn, decide_eq_true heq⟩
  rw [prefixAndHostMatch, ha, Bool.and_true, Option.all_some, Bool.or_eq_true,
    decide_eq_true_iff, List.isPrefixOf_iff_prefix]

lemma prefixSegments_of_open {start : List Char} (ho : start.getLast? ≠ some '/') :
    prefixSegments start = segments start := by
  unfold prefixSegments
  cases start with
  | nil => rfl
  | cons c rest =>
    by_cases hc : c = '/'
    · subst hc
      have hl : (rest.splitOn '/').getLast? ≠ some [] := by
        rw [Ne, Text.getLast?_splitOn_eq_nil_iff]
        rintro (rfl | ⟨front, rfl⟩)
        · exact ho rfl
        · exact ho (List.getLast?_concat (l := '/' :: front))
      exact congrArg some (if_neg hl)
    · simp [segments, hc]

lemma beginsWithSegments_of_open {start : List Char} (hs : start.head? = some '/')
    (ho : start.getLast? ≠ some '/') (path : List Char) :
    BeginsWithSegments start path ↔ path = start ∨ (start ++ ['/']) <+: path := by
  obtain ⟨rest, rfl⟩ := List.head?_eq_some_iff.mp hs
  unfold BeginsWithSegments
  rw [prefixSegments_of_open ho]
  constructor
  · rintro ⟨_, ⟨⟩, all, ha, he⟩
    cases path with
    | nil => cases ha
    | cons c path =>
      by_cases hc : c = '/'
      · subst hc
        cases ha
        rcases Text.firstFields_iff.mp he with rfl | hb
        · exact Or.inl rfl
        · exact Or.inr ((List.prefix_cons_inj '/').mpr hb)
      · simp [segments, hc] at ha
  · intro h
    obtain ⟨path, rfl⟩ : ∃ more, path = '/' :: more := by
      rcases h with rfl | ⟨more, rfl⟩
      · exact ⟨rest, rfl⟩
      · exact ⟨rest ++ ['/'] ++ more, rfl⟩
    refine ⟨_, rfl, _, rfl, Text.firstFields_iff.mpr ?_⟩
    exact h.imp (fun heq => (List.cons.inj heq).2) (List.prefix_cons_inj '/').mp

lemma beginsWithSegments_below (front : List Char) (hs : (front ++ ['/']).head? = some '/') :
    BeginsWithSegments (front ++ ['/']) (front ++ ['/', 'x']) := by
  cases front with
  | nil => exact ⟨[], by decide, [['x']], by decide, by decide⟩
  | cons c rest =>
    obtain rfl : c = '/' := Option.some.inj hs
    have ha : segments ('/' :: rest ++ ['/']) = some (rest.splitOn '/' ++ [[]]) := by
      refine congrArg some ((List.splitOn_append_cons_self rest []).trans ?_)
      rw [List.splitOn_nil]
    have hp : prefixSegments ('/' :: rest ++ ['/']) = some (rest.splitOn '/') := by
      rw [prefixSegments, ha, Option.map_some, if_pos List.getLast?_concat, List.dropLast_concat]
    refine ⟨_, hp, (rest ++ ['/', 'x']).splitOn '/', rfl, ?_⟩
    exact Text.firstFields_iff.mpr (Or.inr ⟨['x'], by simp⟩)

/-! ## Routes and direct responses -/

/-- **Whole segments.**  Routes and direct responses with a prefix claim the paths that begin with
the segments of the prefix if the prefix does not end in a slash, and not otherwise. -/
theorem matches_whole_segments_iff {start : String} (hslash : start.toList.head? = some '/') :
    (∀ (path : List Char) (host : Option (List Char)),
      (∀ route : CompiledRoute, route.pathPrefix = some start → HostAllowed route.host host →
        (route.matches path host = true ↔ BeginsWithSegments start.toList path)) ∧
      (∀ direct : DirectResponse, direct.pathPrefix = some start → HostAllowed direct.host host →
        (direct.matches path host = true ↔ BeginsWithSegments start.toList path))) ↔
    start.toList.getLast? ≠ some '/' := by
  constructor
  · intro h hc
    obtain ⟨front, hf⟩ := List.getLast?_eq_some_iff.mp hc
    have ha : HostAllowed none none := fun expected he => by cases he
    have hr := (h (front ++ ['/', 'x']) none).1 ⟨some start, none, .roundRobin⟩ rfl ha
    have hb : BeginsWithSegments start.toList (front ++ ['/', 'x']) := by
      rw [hf] at hslash ⊢
      exact beginsWithSegments_below front hslash
    rcases (prefixAndHostMatch_iff ha _).mp (hr.mpr hb) with heq | hp
    · rw [hf] at heq
      simp at heq
    · -- the code asks for one more slash
      rw [hf] at hp
      simp at hp
  · intro ho path host
    have hs := beginsWithSegments_of_open hslash ho path
    constructor
    · intro route hst hh
      rw [CompiledRoute.matches, hst, Option.map_some, prefixAndHostMatch_iff hh, hs]
    · intro direct hst hh
      rw [DirectResponse.matches, hst, Option.map_some, prefixAndHostMatch_iff hh, hs]

/-- With the prefix `/api`, what is claimed is `/api/x` and not `/apiary`. -/
theorem matches_whole_segments_api :
    "/api".toList.head? = some '/' ∧ BeginsWithSegments "/api".toList "/api/x".toList ∧
      ¬ BeginsWithSegments "/api".toList "/apiary".toList := by
  have ha : HostAllowed none none := fun expected he => by cases he
  have hs : "/api".toList.head? = some '/' := by decide
  have h := (matches_whole_segments_iff hs).mpr (by decide)
  refine ⟨hs, ?_, ?_⟩
  · exact ((h "/api/x".toList none).1 ⟨_, none, .roundRobin⟩ rfl ha).mp (by decide)
  · intro hb
    have hm := ((h "/apiary".toList none).1 ⟨_, none, .roundRobin⟩ rfl ha).mpr hb
    exact absurd hm (by decide)

/-- A route for `/` does not claim `/x`, nor a direct response for `/api/` the path `/api/x`. -/
theorem closed_prefixes_miss_paths_below :
    BeginsWithSegments ['/'] "/x".toList ∧
      (⟨some "/", none, .roundRobin⟩ : CompiledRoute).matches "/x".toList none = false ∧
      BeginsWithSegments "/api/".toList "/api/x".toList ∧
      (⟨some "/api/", none, 200, "", none, none, false⟩ : DirectResponse).matches "/api/x".toList
        none = false :=
  ⟨beginsWithSegments_below [] (by decide), by decide,
    beginsWithSegments_below "/api".toList (by decide), by decide⟩

end LoadBalancer.Proxy
