import LoadBalancer.Core.Parts

/-!
# The flags that a reload carries over

Three flags of a backend are read and written by its id: an operator's drain, the verdict of the
last probe, and whether the first probe is still awaited.  Each is written by calls that name the
backend, in the state of that backend alone (`Indexed.part_modify`).  A pool knows a backend
when it has a state for its id, and lists it then (`Listing`).
-/

namespace LoadBalancer.Core

structure CarriedFlags where
  manuallyDrained : Bool
  activeHealthy : Bool
  awaitingFirstProbe : Bool
  deriving DecidableEq

def BackendState.carriedFlags (s : BackendState) : CarriedFlags :=
  ⟨s.manuallyDrained, s.activeHealthy, s.awaitingFirstProbe⟩

namespace BackendPool

variable {p : BackendPool} {id : BackendId}

/-! ## Known and listed backends -/

lemma isSome_backend_iff : (p.backend id).isSome = true ↔ id ∈ p.inner.states := by
  rw [backend, Option.isSome_map, AList.get_isSome_iff]

/-- A pool lists the ids it has states for. -/
structure Listing (p : BackendPool) : Prop where
  indexed : p.Indexed
  known : ∀ id ∈ p.inner.states, id ∈ p.inner.order

/-- The pools there are: built, and changed by writes to their states and by refreshes. -/
inductive Reached : BackendPool → Prop
  | built (backends : List Backend) (fraction : Option ℚ) :
      Reached (withMaxEjectedFraction backends fraction)
  | write {p p' : BackendPool} (h : Reached p) (hwrite : FlagWrite p p') : Reached p'
  | refresh {p : BackendPool} (h : Reached p) (backends : List Backend) :
      Reached (p.applyResolved backends)

lemma mem_order_build {m : Arena BackendState} {backends : List Backend} {refs : List StateRef}
    (h : id ∈ (PoolState.build m backends refs).states) :
    id ∈ (PoolState.build m backends refs).order := by
  rcases AList.mem_foldl_insert_iff.mp h with hm | hn
  · obtain ⟨x, hx, rfl⟩ := List.mem_map.mp hm
    exact (List.of_mem_zip hx).1
  · cases hn

lemma listing_withMaxEjectedFraction (backends : List Backend) (fraction : Option ℚ) :
    (withMaxEjectedFraction backends fraction).Listing :=
  ⟨indexed_withMaxEjectedFraction backends fraction, fun _ => mem_order_build⟩

lemma FlagWrite.listing {p' : BackendPool} (h : FlagWrite p p') (hp : p.Listing) : p'.Listing := by
  refine ⟨h.indexed hp.indexed, ?_⟩
  rw [h.inner_eq]
  exact hp.known

lemma Listing.applyResolved (hp : p.Listing) (backends : List Backend) :
    (p.applyResolved backends).Listing := by
  refine ⟨hp.indexed.applyResolved backends, ?_⟩
  unfold BackendPool.applyResolved
  split_ifs
  · exact hp.known
  · exact fun id => mem_order_build

lemma Reached.listing (h : p.Reached) : p.Listing := by
  induction h with
  | built backends fraction => exact listing_withMaxEjectedFraction backends fraction
  | write _ hw ih => exact hw.listing ih
  | refresh _ backends ih => exact ih.applyResolved backends

/-! ## Who writes the flags -/

def carriedFlags (p : BackendPool) (id : BackendId) : Option CarriedFlags :=
  (p.inner.states.get id).map fun r => (p.arena.read r).carriedFlags

lemma shownFlag_eq (p : BackendPool) (flag : CarriedFlags → Bool) (id : BackendId) :
    p.shownFlag (fun s => flag s.carriedFlags) id = (p.carriedFlags id).any flag := by
  rw [shownFlag, carriedFlags, Option.any_map]

lemma isManuallyDrained_eq (p : BackendPool) (id : BackendId) :
    p.isManuallyDrained id = (p.carriedFlags id).any CarriedFlags.manuallyDrained :=
  p.shownFlag_eq CarriedFlags.manuallyDrained id

lemma isActiveHealthy_eq (p : BackendPool) (id : BackendId) :
    p.isActiveHealthy id = (p.carriedFlags id).any CarriedFlags.activeHealthy :=
  p.shownFlag_eq CarriedFlags.activeHealthy id

lemma isAwaitingFirstProbe_eq (p : BackendPool) (id : BackendId) :
    p.isAwaitingFirstProbe id = (p.carriedFlags id).any CarriedFlags.awaitingFirstProbe :=
  p.shownFlag_eq CarriedFlags.awaitingFirstProbe id

lemma flagPart_carriedFlags : FlagPart BackendState.carriedFlags :=
  ⟨fun _ _ => rfl, fun _ _ _ => rfl⟩

lemma Indexed.carriedFlags_setManuallyDrained (hp : p.Indexed) (id' : BackendId) (drained : Bool)
    (nanos : ℕ) (id : BackendId) :
    (p.setManuallyDrained id' drained nanos).carriedFlags id
      = if id = id' then (p.carriedFlags id).map ({ · with manuallyDrained := drained })
        else p.carriedFlags id :=
  hp.part_setManuallyDrained flagPart_carriedFlags (fun _ => rfl) id' nanos id

lemma Indexed.carriedFlags_setActiveHealthy (hp : p.Indexed) (id' : BackendId) (healthy : Bool)
    (nanos : ℕ) (id : BackendId) :
    (p.setActiveHealthy id' healthy nanos).carriedFlags id
      = if id = id' then
          (p.carriedFlags id).map fun flags =>
            { flags with activeHealthy := healthy, awaitingFirstProbe := false }
        else p.carriedFlags id :=
  hp.part_setActiveHealthy flagPart_carriedFlags (fun _ => rfl) id' nanos id

lemma Indexed.carriedFlags_markAwaitingFirstProbe (hp : p.Indexed) (id' id : BackendId) :
    (p.markAwaitingFirstProbe id').carriedFlags id
      = if id = id' then (p.carriedFlags id).map ({ · with awaitingFirstProbe := true })
        else p.carriedFlags id :=
  hp.part_markAwaitingFirstProbe (g := BackendState.carriedFlags) (fun _ => rfl) id' id

lemma carriedFlags_withMaxEjectedFraction {backends : List Backend} {id : BackendId}
    (hid : id ∈ backends.map fun b => b.id) (fraction : Option ℚ) :
    (withMaxEjectedFraction backends fraction).carriedFlags id = some ⟨false, true, false⟩ := by
  have hl := (indexed_withMaxEjectedFraction backends fraction).listed id hid
  obtain ⟨r, hg⟩ := AList.exists_get_of_mem hl
  obtain ⟨b, -, hf⟩ := exists_fresh_of_get hg
  rw [carriedFlags, hg, Option.map_some, hf]
  rfl

end BackendPool

end LoadBalancer.Core
