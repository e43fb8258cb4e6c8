import LoadBalancer.Core.Pool

/-!
# Tables of what belongs to a backend

A `BackendMap` (`crates/lb-core/src/backend_map.rs`) holds one shared object for each backend id:
a circuit breaker, a gate, a set of counters.  Handles to the map see each other's changes, and an
object outlives its entry while a request holds on to it; an entry is a pointer into the map's
arena, and "the same instance" means the same pointer.

`reconcile` brings the map in line with a list of ids.  Entries of listed ids keep their
instance, missing ones are made, and every other entry is dropped — also one that came from
another list.
-/

namespace LoadBalancer.Core

open List

structure BackendMap (T : Type) where
  arena : Arena T
  inner : Table BackendId ℕ

namespace BackendMap

variable {T : Type}

def new [Inhabited T] : BackendMap T := ⟨.empty, ∅⟩

variable (m : BackendMap T)

def get (id : BackendId) : Option ℕ := m.inner.get id

def contains (id : BackendId) : Bool := (m.inner.get id).isSome

def find (id : BackendId) : Option T := (m.get id).map m.arena.read

def add (id : BackendId) (value : T) : BackendMap T where
  arena := (m.arena.alloc value).2
  inner := m.inner.insert id (m.arena.alloc value).1

/-- The map built from a list of entries, of which the last for an id counts. -/
def collect [Inhabited T] (entries : List (BackendId × T)) : BackendMap T :=
  entries.foldl (fun m e => m.add e.1 e.2) new

def addMissing (make : BackendId → T) (id : BackendId) : BackendMap T :=
  if m.contains id then m else m.add id (make id)

def reconcile (live : List BackendId) (make : BackendId → T) : BackendMap T :=
  -- nothing to do when the listed ids are those of the map
  if m.inner.size = live.dedup.length ∧ live.all m.contains = true then m
  else
    let next : BackendMap T := { m with inner := m.inner.retain fun id _ => id ∈ live }
    live.foldl (fun next id => next.addMissing make id) next

/-- A table for something that may not be configured. -/
def collectIf [Inhabited T] {σ : Type} (setting : Option σ) (ids : List BackendId)
    (make : σ → T) : BackendMap T :=
  match setting with
  | some x => collect (ids.map fun id => (id, make x))
  | none => new

def reconcileIf {σ : Type} (setting : Option σ) (live : List BackendId) (make : σ → T) :
    BackendMap T :=
  match setting with
  | some x => m.reconcile live fun _ => make x
  | none => m

variable {m} {id : BackendId}

lemma contains_iff : m.contains id = true ↔ id ∈ m.inner := AList.get_isSome_iff

lemma get_add (id id' : BackendId) (value : T) :
    (m.add id value).get id' = if id' = id then some m.arena.next else m.get id' :=
  m.inner.get_insert id id' _

lemma contains_add (id id' : BackendId) (value : T) :
    (m.add id value).contains id' = true ↔ id' = id ∨ m.contains id' = true := by
  change ((m.add id value).get id').isSome = true ↔ _
  rw [get_add]
  split_ifs with h
  · simp [h]
  · simp only [h, false_or]
    rfl

variable {r : ℕ} (entries : List (BackendId × T))

lemma contains_foldl_add (m : BackendMap T) :
    (entries.foldl (fun m e => m.add e.1 e.2) m).contains id = true ↔
      id ∈ entries.map (fun e => e.1) ∨ m.contains id = true := by
  induction entries generalizing m with
  | nil => simp
  | cons e entries ih =>
    rw [foldl_cons, ih, contains_add, map_cons, mem_cons]
    tauto

lemma not_contains_new [Inhabited T] : ¬ (new : BackendMap T).contains id = true := by
  simp [contains, new]

lemma contains_collect [Inhabited T] :
    (collect entries).contains id = true ↔ id ∈ entries.map fun e => e.1 := by
  rw [collect, contains_foldl_add]
  simp [not_contains_new]

lemma contains_collectIf [Inhabited T] {σ : Type} (setting : Option σ) (ids : List BackendId)
    (make : σ → T) :
    (collectIf setting ids make).contains id = true ↔ setting.isSome = true ∧ id ∈ ids := by
  cases setting with
  | none => simp [collectIf, not_contains_new]
  | some x => simp [collectIf, contains_collect]

lemma collect_concat [Inhabited T] (e : BackendId × T) :
    collect (entries ++ [e]) = (collect entries).add e.1 e.2 := by
  rw [collect, foldl_append]
  rfl

lemma get_lt_of_collect [Inhabited T] {entries : List (BackendId × T)}
    (h : (collect entries).get id = some r) : r < (collect entries).arena.next := by
  induction entries using List.reverseRecOn with
  | nil => cases h
  | append_singleton entries e ih =>
    rw [collect_concat] at h ⊢
    rw [get_add] at h
    split_ifs at h
    · cases h
      exact Nat.lt_succ_self _
    · exact (ih h).trans (Nat.lt_succ_self _)

lemma find_collect_concat [Inhabited T] (e : BackendId × T) (id : BackendId) :
    (collect (entries ++ [e])).find id
      = if id = e.1 then some e.2 else (collect entries).find id := by
  rw [collect_concat, find, get_add]
  split_ifs
  · exact congrArg some (Arena.read_alloc_self ..)
  · rw [find]
    cases hg : (collect entries).get id with
    | none => rfl
    | some r => exact congrArg some (Arena.read_alloc_of_lt _ (get_lt_of_collect hg) _)

lemma mem_of_find_collect [Inhabited T] {entries : List (BackendId × T)} {value : T}
    (h : (collect entries).find id = some value) : (id, value) ∈ entries := by
  induction entries using List.reverseRecOn with
  | nil => cases h
  | append_singleton entries e ih =>
    rw [find_collect_concat] at h
    split_ifs at h with hid
    · cases h
      simp [hid]
    · exact mem_append_left _ (ih h)

/-- Later entries take the place of earlier ones. -/
lemma find_collect_append [Inhabited T] (front back : List (BackendId × T)) (id : BackendId) :
    (collect (front ++ back)).find id = ((collect back).find id).or ((collect front).find id) := by
  induction back using List.reverseRecOn with
  | nil =>
    rw [append_nil]
    rfl
  | append_singleton back e ih =>
    rw [← append_assoc, find_collect_concat, find_collect_concat, ih]
    split_ifs <;> rfl

lemma find_collectIf [Inhabited T] {σ : Type} {setting : Option σ} {ids : List BackendId}
    {make : σ → T} {P : σ → T → Prop} (hma : ∀ x, P x (make x)) {value : T}
    (h : (collectIf setting ids make).find id = some value) : ∃ x ∈ setting, P x value := by
  cases setting with
  | none => cases h
  | some x =>
    obtain ⟨id', -, heq⟩ := mem_map.mp (mem_of_find_collect h)
    cases heq
    exact ⟨x, rfl, hma x⟩

lemma find_collect_of_forall [Inhabited T] {entries : List (BackendId × T)} {value : T}
    (hid : id ∈ entries.map fun e => e.1) (ha : ∀ e ∈ entries, e.1 = id → e.2 = value) :
    (collect entries).find id = some value := by
  induction entries using List.reverseRecOn with
  | nil => cases hid
  | append_singleton entries e ih =>
    rw [forall_mem_append] at ha
    rw [find_collect_concat]
    split_ifs with he
    · rw [ha.2 e mem_cons_self he.symm]
    · rw [map_append, mem_append] at hid
      exact ih (hid.resolve_right fun h => he (by simpa using h)) ha.1

lemma map_find_collect {U : Type} [Inhabited T] [Inhabited U] (f : T → U)
    (entries : List (BackendId × T)) (id : BackendId) :
    ((collect entries).find id).map f
      = (collect (entries.map fun e => (e.1, f e.2))).find id := by
  induction entries using List.reverseRecOn with
  | nil => rfl
  | append_singleton entries e ih =>
    rw [map_append, map_singleton, find_collect_concat, find_collect_concat]
    split_ifs
    · rfl
    · exact ih

/-- Maps that cannot be told apart by a part of their objects. -/
structure Alike {β : Type} (f : T → β) (m m' : BackendMap T) : Prop where
  inner_eq : m.inner = m'.inner
  next_eq : m.arena.next = m'.arena.next
  part_eq : ∀ r, f (m.arena.read r) = f (m'.arena.read r)

namespace Alike

variable {β : Type} {f : T → β} {m' : BackendMap T}

lemma find_eq (h : Alike f m m') (id : BackendId) :
    (m.find id).map f = (m'.find id).map f := by
  rw [find, find, BackendMap.get, BackendMap.get, h.inner_eq, Option.map_map, Option.map_map]
  exact congrArg (Option.map · _) (funext h.part_eq)

lemma add (h : Alike f m m') {value value' : T} (hv : f value = f value')
    (id : BackendId) : Alike f (m.add id value) (m'.add id value') where
  inner_eq := by
    rw [BackendMap.add, BackendMap.add, Arena.alloc_fst, Arena.alloc_fst, h.inner_eq, h.next_eq]
  next_eq := congrArg (· + 1) h.next_eq
  part_eq r := by
    by_cases hr : r = m.arena.next
    · have hr' : r = m'.arena.next := hr.trans h.next_eq
      have hre : (m.add id value).arena.read r = value := hr ▸ m.arena.read_alloc_self value
      have hre' : (m'.add id value').arena.read r = value' := hr' ▸ m'.arena.read_alloc_self value'
      rw [hre, hre', hv]
    · have hr' : r ≠ m'.arena.next := fun heq => hr (heq.trans h.next_eq.symm)
      have hre : (m.add id value).arena.read r = m.arena.read r := Function.update_of_ne hr ..
      have hre' : (m'.add id value').arena.read r = m'.arena.read r := Function.update_of_ne hr' ..
      rw [hre, hre', h.part_eq]

lemma collect [Inhabited T] {entries entries' : List (BackendId × T)}
    (h : entries.map (fun e => (e.1, f e.2)) = entries'.map fun e => (e.1, f e.2)) :
    Alike f (.collect entries) (.collect entries') := by
  suffices hf : ∀ m m' : BackendMap T, Alike f m m' →
      Alike f (entries.foldl (fun m e => m.add e.1 e.2) m)
        (entries'.foldl (fun m e => m.add e.1 e.2) m') from
    hf new new ⟨rfl, rfl, fun _ => rfl⟩
  induction entries generalizing entries' with
  | nil =>
    obtain rfl := map_eq_nil_iff.mp h.symm
    exact fun m m' hm => hm
  | cons e entries ih =>
    cases entries' with
    | nil => cases h
    | cons e' entries' =>
      obtain ⟨hh, ht⟩ := List.cons.inj h
      obtain ⟨hid, hp⟩ := Prod.mk.inj hh
      intro m m' hm
      have ha : Alike f (m.add e.1 e.2) (m'.add e'.1 e'.2) := hid ▸ hm.add hp e.1
      exact ih ht _ _ ha

end Alike

/-! ## Reconciling -/

variable {make : BackendId → T}

lemma contains_addMissing (id id' : BackendId) :
    (m.addMissing make id).contains id' = true ↔ id' = id ∨ m.contains id' = true := by
  rw [addMissing]
  split_ifs with h
  · constructor
    · exact Or.inr
    · rintro (rfl | h')
      · exact h
      · exact h'
  · exact contains_add id id' _

lemma get_addMissing (id : BackendId) {id' : BackendId} (h : m.get id' = some r) :
    (m.addMissing make id).get id' = some r := by
  rw [addMissing]
  split_ifs with hid
  · exact h
  · have hne : id' ≠ id := by
      rintro rfl
      exact hid (by rw [contains, ← get, h]; rfl)
    rw [get_add, if_neg hne, h]

lemma contains_foldl_addMissing (live : List BackendId) (m : BackendMap T) :
    (live.foldl (fun m id => m.addMissing make id) m).contains id = true ↔
      id ∈ live ∨ m.contains id = true := by
  induction live generalizing m with
  | nil => simp
  | cons id' live ih =>
    rw [foldl_cons, ih, contains_addMissing, mem_cons]
    tauto

lemma get_foldl_addMissing (live : List BackendId) {m : BackendMap T} (h : m.get id = some r) :
    (live.foldl (fun m id => m.addMissing make id) m).get id = some r := by
  induction live generalizing m with
  | nil => exact h
  | cons id' live ih => exact ih (get_addMissing id' h)

lemma contains_iff_of_unchanged {live : List BackendId} (hs : m.inner.size = live.dedup.length)
    (ha : live.all m.contains = true) : m.contains id = true ↔ id ∈ live := by
  have hsu : live.toFinset ⊆ m.inner.keys.toFinset := by
    intro id' hid'
    have hme := all_eq_true.mp ha id' (mem_toFinset.mp hid')
    exact mem_toFinset.mpr (AList.mem_keys.mp (contains_iff.mp hme))
  have hc : m.inner.keys.toFinset.card ≤ live.toFinset.card := by
    rw [toFinset_card_of_nodup m.inner.keys_nodup, ← AList.size_eq_length_keys, hs, card_toFinset]
  have heq := Finset.eq_of_subset_of_card_le hsu hc
  rw [contains_iff, AList.mem_keys, ← mem_toFinset, ← heq, mem_toFinset]

lemma contains_reconcile (live : List BackendId) :
    (m.reconcile live make).contains id = true ↔ id ∈ live := by
  rw [reconcile]
  split_ifs with h
  · exact contains_iff_of_unchanged h.1 h.2
  · have hk : BackendMap.contains { m with inner := m.inner.retain fun id _ => id ∈ live } id
        = true ↔ m.contains id = true ∧ id ∈ live := by
      rw [contains_iff, AList.mem_retain_key, ← contains_iff, decide_eq_true_eq]
    rw [contains_foldl_addMissing, hk]
    tauto

/-- **A listed id keeps its instance.** -/
lemma get_reconcile {live : List BackendId} (h : m.get id = some r) (hid : id ∈ live) :
    (m.reconcile live make).get id = some r := by
  rw [reconcile]
  split_ifs
  · exact h
  · refine get_foldl_addMissing live ?_
    exact (AList.get_retain_eq_some_iff _ _ _ _).mpr ⟨h, decide_eq_true hid⟩

/-- An id that a table has before and after keeps its instance. -/
def KeepsInstance (m m' : BackendMap T) : Prop :=
  ∀ id r, m.get id = some r → m'.contains id = true → m'.get id = some r

lemma KeepsInstance.refl (m : BackendMap T) : KeepsInstance m m := fun _ _ h _ => h

lemma keepsInstance_reconcile (m : BackendMap T) (live : List BackendId) (make : BackendId → T) :
    KeepsInstance m (m.reconcile live make) := by
  intro id r h ha
  exact get_reconcile h ((contains_reconcile live).mp ha)

section

variable {σ : Type} (setting : Option σ) (live : List BackendId) (value : σ → T)

lemma contains_reconcileIf : (m.reconcileIf setting live value).contains id = true ↔
    if setting.isSome then id ∈ live else m.contains id = true := by
  cases setting with
  | none => rfl
  | some x => exact contains_reconcile live

lemma keepsInstance_reconcileIf : KeepsInstance m (m.reconcileIf setting live value) := by
  cases setting with
  | none => exact .refl m
  | some x => exact keepsInstance_reconcile m live _

end

/-! ## What belongs to an id

Every id has an instance of its own, so a map is known by what it finds for each id. -/

def update (m : BackendMap T) (id : BackendId) (f : T → T) : BackendMap T :=
  match m.get id with
  | none => m
  | some r => { m with arena := m.arena.modify r f }

/-- Entries point into the arena, and no two to the same place. -/
structure Sound (m : BackendMap T) : Prop where
  lt : ∀ id r, m.get id = some r → r < m.arena.next
  own : ∀ id id' r, m.get id = some r → m.get id' = some r → id = id'

lemma Alike.sound {β : Type} {f : T → β} {m m' : BackendMap T} (h : Alike f m m')
    (hm : m.Sound) : m'.Sound := by
  refine ⟨fun id r hr => ?_, fun id id' r hr hr' => ?_⟩
  · rw [← h.next_eq]
    exact hm.lt id r (by rwa [get, h.inner_eq])
  · exact hm.own id id' r (by rwa [get, h.inner_eq]) (by rwa [get, h.inner_eq])

lemma contains_iff_find : m.contains id = true ↔ (m.find id).isSome = true := by
  rw [find, Option.isSome_map]
  rfl

lemma get_update (m : BackendMap T) (id : BackendId) (f : T → T) (id' : BackendId) :
    (m.update id f).get id' = m.get id' := by
  unfold update
  cases m.get id <;> rfl

lemma inner_update (m : BackendMap T) (id : BackendId) (f : T → T) :
    (m.update id f).inner = m.inner := by
  unfold update
  cases m.get id <;> rfl

namespace Sound

lemma new [Inhabited T] : (new : BackendMap T).Sound where
  lt _ _ h := by cases h
  own _ _ _ h := by cases h

variable (hm : m.Sound)

include hm

lemma add (id : BackendId) (value : T) : (m.add id value).Sound := by
  have hne : ∀ id', m.get id' ≠ some m.arena.next := fun id' h =>
    (hm.lt id' _ h).ne rfl
  refine ⟨fun id' r h => ?_, fun id₁ id₂ r h₁ h₂ => ?_⟩
  · rw [get_add] at h
    split_ifs at h
    · exact Option.some.inj h ▸ Nat.lt_succ_self _
    · exact (hm.lt id' r h).trans (Nat.lt_succ_self _)
  · rw [get_add] at h₁ h₂
    split_ifs at h₁ h₂ with h₁' h₂' h₂'
    · exact h₁'.trans h₂'.symm
    · exact absurd (h₂.trans h₁.symm) (hne id₂)
    · exact absurd (h₁.trans h₂.symm) (hne id₁)
    · exact hm.own id₁ id₂ r h₁ h₂

omit hm

lemma collect [Inhabited T] (entries : List (BackendId × T)) :
    (BackendMap.collect entries).Sound := by
  induction entries using List.reverseRecOn with
  | nil => exact new
  | append_singleton entries e ih =>
    rw [collect_concat]
    exact ih.add e.1 e.2

lemma collectIf [Inhabited T] {σ : Type} (setting : Option σ) (ids : List BackendId)
    (make : σ → T) : (BackendMap.collectIf setting ids make).Sound := by
  cases setting with
  | none => exact new
  | some x => exact collect _

include hm

lemma retain (keep : BackendId → ℕ → Bool) :
    Sound { m with inner := m.inner.retain keep } where
  lt id r h := hm.lt id r ((AList.get_retain_eq_some_iff ..).mp h).1
  own id id' r h h' := hm.own id id' r ((AList.get_retain_eq_some_iff ..).mp h).1
    ((AList.get_retain_eq_some_iff ..).mp h').1

lemma addMissing (make : BackendId → T) (id : BackendId) : (m.addMissing make id).Sound := by
  rw [BackendMap.addMissing]
  split_ifs
  · exact hm
  · exact hm.add id _

lemma reconcile (live : List BackendId) (make : BackendId → T) : (m.reconcile live make).Sound := by
  rw [BackendMap.reconcile]
  split_ifs
  · exact hm
  · exact List.foldlRecOn live _ (hm.retain _) fun _ hn id _ => hn.addMissing make id

lemma reconcileIf {σ : Type} (setting : Option σ) (live : List BackendId) (make : σ → T) :
    (m.reconcileIf setting live make).Sound := by
  cases setting with
  | none => exact hm
  | some x => exact hm.reconcile live _

lemma update (id : BackendId) (f : T → T) : (m.update id f).Sound := by
  have hn : (m.update id f).arena.next = m.arena.next := by
    unfold BackendMap.update
    cases m.get id <;> rfl
  refine ⟨fun id' r h => ?_, fun id₁ id₂ r h₁ h₂ => ?_⟩
  · rw [get_update] at h
    exact hn ▸ hm.lt id' r h
  · rw [get_update] at h₁ h₂
    exact hm.own id₁ id₂ r h₁ h₂

/-! ### What is found -/

lemma find_add (id : BackendId) (value : T) (id' : BackendId) :
    (m.add id value).find id' = if id' = id then some value else m.find id' := by
  rw [find, get_add]
  split_ifs
  · exact congrArg some (m.arena.read_alloc_self value)
  · cases hg : m.get id' with
    | none => rw [find, hg]; rfl
    | some r =>
      rw [find, hg]
      exact congrArg some (m.arena.read_alloc_of_lt (hm.lt id' r hg) value)

lemma find_update (id : BackendId) (f : T → T) (id' : BackendId) :
    (m.update id f).find id' = if id' = id then (m.find id').map f else m.find id' := by
  rw [find, get_update, find]
  unfold BackendMap.update
  cases hg : m.get id with
  | none =>
    split_ifs with hid
    · rw [hid, hg]
      rfl
    · rfl
  | some r =>
    cases hg' : m.get id' with
    | none => simp
    | some r' =>
      split_ifs with hid
      · obtain rfl : r' = r := Option.some.inj (hg'.symm.trans (hid ▸ hg))
        exact congrArg some (m.arena.read_modify_self r' f)
      · have hne : r' ≠ r := by
          rintro rfl
          exact hid (hm.own id' id r' hg' hg)
        exact congrArg some (m.arena.read_modify_of_ne hne f)

lemma find_addMissing (make : BackendId → T) (id id' : BackendId) :
    (m.addMissing make id).find id'
      = if id' = id then some ((m.find id').getD (make id)) else m.find id' := by
  rw [BackendMap.addMissing]
  by_cases hc : m.contains id = true
  · obtain ⟨value, hv⟩ := Option.isSome_iff_exists.mp (contains_iff_find.mp hc)
    rw [if_pos hc]
    split_ifs with hid
    · rw [hid, hv]
      rfl
    · rfl
  · have hn : m.find id = none := by
      rwa [contains_iff_find, Option.not_isSome_iff_eq_none] at hc
    rw [if_neg hc, hm.find_add]
    split_ifs with hid
    · rw [hid, hn]
      rfl
    · rfl

omit hm

lemma find_foldl_addMissing (make : BackendId → T) (id : BackendId) :
    ∀ (live : List BackendId) {m : BackendMap T}, m.Sound →
      (live.foldl (fun m id => m.addMissing make id) m).find id
        = if id ∈ live then some ((m.find id).getD (make id)) else m.find id
  | [], _, _ => rfl
  | id' :: live, m, hm => by
    rw [foldl_cons, find_foldl_addMissing make id live (hm.addMissing make id'), hm.find_addMissing]
    by_cases hid : id = id'
    · subst hid
      simp
    · simp [hid]

include hm

lemma find_reconcile (live : List BackendId) (make : BackendId → T) (id : BackendId) :
    (m.reconcile live make).find id
      = if id ∈ live then some ((m.find id).getD (make id)) else none := by
  rw [BackendMap.reconcile]
  split_ifs with hs hid hid
  · obtain ⟨value, hv⟩ := Option.isSome_iff_exists.mp
      (contains_iff_find.mp ((contains_iff_of_unchanged hs.1 hs.2).mpr hid))
    rw [hv]
    rfl
  · rwa [← contains_iff_of_unchanged hs.1 hs.2, contains_iff_find,
      Option.not_isSome_iff_eq_none] at hid
  all_goals
    have hk : BackendMap.find { m with inner := m.inner.retain fun id _ => id ∈ live } id
        = if id ∈ live then m.find id else none := by
      rw [find, find, BackendMap.get, BackendMap.get, AList.get_retain]
      cases m.inner.get id <;> simp [Option.filter, hid]
    rw [find_foldl_addMissing make id live (hm.retain _)]
    simp only [hk, hid, if_true, if_false]

lemma of_find_reconcileIf {σ : Type} {setting : Option σ} {live : List BackendId} {make : σ → T}
    {value : T} (h : (m.reconcileIf setting live make).find id = some value) :
    m.find id = some value ∨ ∃ x ∈ setting, make x = value := by
  cases setting with
  | none => exact .inl h
  | some x =>
    have hr := hm.find_reconcile live (fun _ => make x) id
    rw [BackendMap.reconcileIf, hr] at h
    split_ifs at h
    cases ho : m.find id with
    | none =>
      rw [ho] at h
      exact .inr ⟨x, rfl, Option.some.inj h⟩
    | some old =>
      rw [ho] at h
      exact .inl h

end Sound

end BackendMap

end LoadBalancer.Core
