import LoadBalancer.Lib.Interleaving

/-!
# Values kept under a version

A value is computed from a store in several reads and kept in a cache together with the version
that the store had before the first of them.  A reader that finds a value kept under the version it
has just read uses that value; any other computes one and replaces what is kept.  Writers change
the store in several steps and count the version up when they are done, modulo `m`.

A reader may be overtaken by writers, compute a value from a mixture of their changes, and keep
it.  Such a value is *dated*: it is kept under a version that is no longer the store's by the time
the writers are done.  So the invariant is about values whose date is the present, and it is only
claimed while no writer is in the middle of a change.
-/

namespace VersionedCache

open Interleaving

/-- How a value is computed from what is seen of a store, and when a kept value is used. -/
structure Scheme (τ ρ β : Type*) where
  version : τ → ℕ
  hit : β → ℕ → Bool
  start : ρ
  read : τ → ℕ → ρ → ρ ⊕ β

/-- The program points of writers, and of readers: before they read the version, the cache and the
store, before they replace what is kept, and when they use a value. -/
inductive Point (ω ρ β : Type*)
  | writer (w : ω)
  | enter
  | lookup (v : ℕ)
  | reading (v : ℕ) (r : ρ)
  | save (v : ℕ) (b : β)
  | use (b : β)

structure Shared (σ β : Type*) where
  store : σ
  cached : β

variable {σ τ ω ρ β : Type*}

inductive ThreadStep (S : Scheme τ ρ β) (view : σ → τ) (write : σ → ω → σ → Option ω → Prop) :
    Shared σ β → Point ω ρ β → Shared σ β → Option (Point ω ρ β) → Prop
  | write {c : Shared σ β} {w : ω} {s : σ} {w' : Option ω} : write c.store w s w' →
      ThreadStep S view write c (.writer w) { c with store := s } (w'.map .writer)
  | enter {c : Shared σ β} :
      ThreadStep S view write c .enter c (some (.lookup (S.version (view c.store))))
  | hit {c : Shared σ β} {v : ℕ} : S.hit c.cached v = true →
      ThreadStep S view write c (.lookup v) c (some (.use c.cached))
  | miss {c : Shared σ β} {v : ℕ} : S.hit c.cached v = false →
      ThreadStep S view write c (.lookup v) c (some (.reading v S.start))
  | read {c : Shared σ β} {v : ℕ} {r r' : ρ} : S.read (view c.store) v r = .inl r' →
      ThreadStep S view write c (.reading v r) c (some (.reading v r'))
  | done {c : Shared σ β} {v : ℕ} {r : ρ} {b : β} : S.read (view c.store) v r = .inr b →
      ThreadStep S view write c (.reading v r) c (some (.save v b))
  | save {c : Shared σ β} {v : ℕ} {b : β} :
      ThreadStep S view write c (.save v b) { c with cached := b } (some (.use b))
  | leave {c : Shared σ β} {b : β} : ThreadStep S view write c (.use b) c none

/-- Readers start with the version, and writers where they begin. -/
def Starts (begins : ω → Prop) : Point ω ρ β → Prop
  | .writer w => begins w
  | .enter => True
  | _ => False

/-- `build t v` is the value for version `v` computed from `t` alone, and `Reads t v r` says that
what has been read so far was read from `t`. -/
structure Scheme.Builds (S : Scheme τ ρ β) (Reads : τ → ℕ → ρ → Prop) (build : τ → ℕ → β) :
    Prop where
  start : ∀ t v, Reads t v S.start
  read : ∀ {t v r r'}, Reads t v r → S.read t v r = .inl r' → Reads t v r'
  done : ∀ {t v r b}, Reads t v r → S.read t v r = .inr b → b = build t v
  /-- Whatever it was computed from, a value is used for its own version only. -/
  label : ∀ {t v r b v'}, S.read t v r = .inr b → S.hit b v' = true → v' = v

/-- Writers count what they have done: `epoch` goes up once a writer is done with its changes, and
the version is the epoch modulo `m`. -/
structure Counted (version : τ → ℕ) (view : σ → τ) (write : σ → ω → σ → Option ω → Prop) (m : ℕ)
    (epoch : σ → ℕ) (changing : ω → Prop) : Prop where
  version : ∀ {s w s' w'}, write s w s' w' → version (view s) = epoch s % m →
    version (view s') = epoch s' % m
  step : ∀ {s w s' w'}, write s w s' w' → epoch s < epoch s' ∨ epoch s' = epoch s ∧
    ((∃ q ∈ w', changing q) ∨ (view s' = view s ∧ ¬ changing w))

section

variable (S : Scheme τ ρ β) (view : σ → τ) (epoch : σ → ℕ) (changing : ω → Prop) (m : ℕ)
  (Reads : τ → ℕ → ρ → Prop) (build : τ → ℕ → β)

/-- No writer is in the middle of a change. -/
def Settled (c : Config (Shared σ β) (Point ω ρ β)) : Prop :=
  ∀ j, ∀ p ∈ c.threads j, ∀ w, p = .writer w → ¬ changing w

/-- Something that was got for version `v` is right if the version is still the present one. -/
def Dated (c : Config (Shared σ β) (Point ω ρ β)) (v : ℕ) (P : τ → Prop) : Prop :=
  ∃ n ≤ epoch c.shared.store, v = n % m ∧
    (n = epoch c.shared.store → Settled changing c → P (view c.shared.store))

/-- What a thread knows at its program point. -/
def Knows (c : Config (Shared σ β) (Point ω ρ β)) : Point ω ρ β → Prop
  | .lookup v => Dated view epoch changing m c v fun _ => True
  | .reading v r => Dated view epoch changing m c v fun t => Reads t v r
  | .save v b => (∀ v', S.hit b v' = true → v' = v) ∧
    Dated view epoch changing m c v fun t => b = build t v
  | .writer _ | .enter | .use _ => True

structure Inv (c : Config (Shared σ β) (Point ω ρ β)) : Prop where
  version : S.version (view c.shared.store) = epoch c.shared.store % m
  cached : ∀ v, S.hit c.shared.cached v = true →
    Dated view epoch changing m c v fun t => c.shared.cached = build t v
  threads : ∀ j, ∀ p ∈ c.threads j, Knows S view epoch changing m Reads build c p

/-- Time passes: a change is counted, or there is none to be seen unless a writer is still at it. -/
def Passes (c c' : Config (Shared σ β) (Point ω ρ β)) : Prop :=
  epoch c.shared.store < epoch c'.shared.store ∨
    epoch c'.shared.store = epoch c.shared.store ∧ (Settled changing c' →
      Settled changing c ∧ view c'.shared.store = view c.shared.store)

end

section

variable {S : Scheme τ ρ β} {view : σ → τ} {write : σ → ω → σ → Option ω → Prop}
  {begins : ω → Prop} {epoch : σ → ℕ} {changing : ω → Prop} {m : ℕ} {Reads : τ → ℕ → ρ → Prop}
  {build : τ → ℕ → β} {c c' : Config (Shared σ β) (Point ω ρ β)} {i v : ℕ} {p : Point ω ρ β}
  {s' : Shared σ β} {p' : Option (Point ω ρ β)} {P Q : τ → Prop}

lemma Dated.passes (h : Dated view epoch changing m c v P)
    (hp : Passes view epoch changing c c') : Dated view epoch changing m c' v P := by
  obtain ⟨n, hn, hv, hP⟩ := h
  rcases hp with hlt | ⟨heq, hsa⟩
  · exact ⟨n, hn.trans hlt.le, hv, fun hno => absurd hno (by omega)⟩
  · refine ⟨n, hn.trans heq.ge, hv, fun hno hs => ?_⟩
    obtain ⟨hb, hvi⟩ := hsa hs
    rw [hvi]
    exact hP (hno.trans heq) hb

lemma Dated.imp (h : Dated view epoch changing m c v P)
    (him : P (view c.shared.store) → Q (view c.shared.store)) :
    Dated view epoch changing m c v Q := by
  obtain ⟨n, hn, hv, hP⟩ := h
  exact ⟨n, hn, hv, fun hno hs => him (hP hno hs)⟩

lemma Knows.passes (h : Knows S view epoch changing m Reads build c p)
    (hp : Passes view epoch changing c c') :
    Knows S view epoch changing m Reads build c' p := by
  cases p with
  | lookup v =>
    have h : Dated view epoch changing m c v fun _ => True := h
    exact h.passes hp
  | reading v r =>
    have h : Dated view epoch changing m c v fun t => Reads t v r := h
    exact h.passes hp
  | save v b => exact ⟨h.1, h.2.passes hp⟩
  | writer w | enter | use b => trivial

/-! ### Time passes -/

/-- A thread that is not in the middle of a change makes no difference to the others. -/
lemma settled_of_update {o : Option (Point ω ρ β)} (hi : ∀ q ∈ c.threads i, ∀ w, q = .writer w →
    ¬ changing w) (h : Settled changing ⟨s', Function.update c.threads i o⟩) :
    Settled changing c := by
  intro j q hq
  by_cases hj : j = i
  · subst hj
    exact hi q hq
  · exact h j q (mem_update_iff.mpr (Or.inr ⟨hj, hq⟩))

lemma passes_spawn (hi : c.threads i = none) (o : Option (Point ω ρ β)) :
    Passes view epoch changing c { c with threads := Function.update c.threads i o } := by
  refine Or.inr ⟨rfl, fun hs => ⟨settled_of_update (fun q hq => ?_) hs, rfl⟩⟩
  rw [hi] at hq
  cases hq

variable {e : Event (Point ω ρ β)} (hco : Counted S.version view write m epoch changing)
  (hbu : S.Builds Reads build) (hinv : Inv S view epoch changing m Reads build c)

include hco

lemma passes_step (hi : c.threads i = some p) (h : ThreadStep S view write c.shared p s' p') :
    Passes view epoch changing c ⟨s', Function.update c.threads i p'⟩ := by
  have hr : (∀ w, p ≠ .writer w) → s'.store = c.shared.store →
      Passes view epoch changing c ⟨s', Function.update c.threads i p'⟩ := by
    intro hp hst
    refine Or.inr ⟨congrArg epoch hst, fun hs =>
      ⟨settled_of_update (fun q hq w hw => ?_) hs, congrArg view hst⟩⟩
    obtain rfl := Option.mem_unique hi hq
    exact absurd hw (hp w)
  cases h with
  | write hwr =>
    refine (hco.step hwr).imp_right fun ⟨he, hk⟩ => ⟨he, fun hs => ?_⟩
    rcases hk with ⟨q, hq, hc⟩ | ⟨hv, hn⟩
    · refine absurd hc (hs i (.writer q) ?_ q rfl)
      exact mem_update_iff.mpr (Or.inl ⟨rfl, Option.mem_map_of_mem _ hq⟩)
    · refine ⟨settled_of_update (fun q hq w hw => ?_) hs, hv⟩
      obtain rfl := Option.mem_unique hi hq
      obtain rfl := Point.writer.inj hw
      exact hn
  | enter | hit _ | miss _ | read _ | done _ | save | leave =>
    exact hr (fun _ h => by cases h) rfl

/-! ### The invariant -/

omit hco

include hbu hinv

/-- What a thread knows after a step, at the moment of the step. -/
lemma Inv.knows_next (hi : c.threads i = some p) (h : ThreadStep S view write c.shared p s' p') :
    ∀ q ∈ p', Knows S view epoch changing m Reads build c q := by
  have hp := hinv.threads i p hi
  intro q hq
  cases h with
  | write _ =>
    obtain ⟨w, -, rfl⟩ := Option.mem_map.mp hq
    trivial
  | enter =>
    cases hq
    exact ⟨_, le_rfl, hinv.version, fun _ _ => trivial⟩
  | @miss v _ =>
    cases hq
    have hp : Dated view epoch changing m c v fun _ => True := hp
    have hn : Dated view epoch changing m c v fun t => Reads t v S.start :=
      hp.imp fun _ => hbu.start _ _
    exact hn
  | @read v r r' hre =>
    cases hq
    have hp : Dated view epoch changing m c v fun t => Reads t v r := hp
    have hn : Dated view epoch changing m c v fun t => Reads t v r' :=
      hp.imp fun hr => hbu.read hr hre
    exact hn
  | @done v r _ hd =>
    cases hq
    have hp : Dated view epoch changing m c v fun t => Reads t v r := hp
    exact ⟨fun v' => hbu.label hd, hp.imp fun hr => hbu.done hr hd⟩
  | hit | save =>
    cases hq
    trivial
  | leave => cases hq

include hco

lemma Inv.step (hi : c.threads i = some p) (h : ThreadStep S view write c.shared p s' p') :
    Inv S view epoch changing m Reads build ⟨s', Function.update c.threads i p'⟩ := by
  have hp := passes_step hco hi h
  refine ⟨?_, ?_, forall_update (fun q hq => (hinv.knows_next hbu hi h q hq).passes hp)
    fun j _ q hq => (hinv.threads j q hq).passes hp⟩
  · cases h with
    | write hw => exact hco.version hw hinv.version
    | enter | hit _ | miss _ | read _ | done _ | save | leave => exact hinv.version
  · intro v hh
    cases h with
    | save =>
      obtain ⟨hl, hd⟩ := hinv.threads i _ hi
      obtain rfl := hl v hh
      exact hd.passes hp
    | write _ | enter | hit _ | miss _ | read _ | done _ | leave =>
      exact (hinv.cached v hh).passes hp

lemma Inv.next (h : Step (Starts begins) (ThreadStep S view write) c e c') :
    Inv S view epoch changing m Reads build c' := by
  cases e with
  | spawn i p =>
    obtain ⟨hf, hs, rfl⟩ := h
    have hp : Passes view epoch changing c
        { c with threads := Function.update c.threads i (some p) } := passes_spawn hf (some p)
    refine ⟨hinv.version, fun v hh => (hinv.cached v hh).passes hp,
      forall_update (fun q hq => ?_) fun j _ q hq => (hinv.threads j q hq).passes hp⟩
    cases hq
    cases p with
    | writer w | enter => trivial
    | lookup | reading | save | use => exact hs.elim
  | step i =>
    obtain ⟨p, s', p', hi, hst, rfl⟩ := h
    exact hinv.step hco hbu hi hst

/-! ### Readers between two changes -/

def Quiet (c : Config (Shared σ β) (Point ω ρ β)) : Prop :=
  ∀ j, ∀ p ∈ c.threads j, ∀ w, p ≠ .writer w

def StartsReader : Event (Point ω ρ β) → Prop
  | .spawn _ p => ∀ w, p ≠ .writer w
  | .step _ => True

/-- What a reader that started after the last change has got. -/
def UpToDate (S : Scheme τ ρ β) (Reads : τ → ℕ → ρ → Prop) (build : τ → ℕ → β) (t : τ) :
    Point ω ρ β → Prop
  | .lookup v => v = S.version t
  | .reading v r => v = S.version t ∧ Reads t v r
  | .save v b => v = S.version t ∧ b = build t v
  | .use b => b = build t (S.version t)
  | .writer _ | .enter => True

omit hbu hco

/-- What is kept under the present version was computed from what is there. -/
lemma Inv.cached_of_hit (hq : Quiet c) (hr : epoch c.shared.store < m)
    (hh : S.hit c.shared.cached (S.version (view c.shared.store)) = true) :
    c.shared.cached = build (view c.shared.store) (S.version (view c.shared.store)) := by
  obtain ⟨n, hn, hv, hc⟩ := hinv.cached _ hh
  rw [hinv.version, Nat.mod_eq_of_lt hr, Nat.mod_eq_of_lt (hn.trans_lt hr)] at hv
  exact hc hv.symm fun j p hp w hw => absurd hw (hq j p hp w)

include hbu

lemma UpToDate.step (hqu : Quiet c) (hro : epoch c.shared.store < m)
    (hp : UpToDate S Reads build (view c.shared.store) p)
    (h : ThreadStep S view write c.shared p s' p') :
    ∀ q ∈ p', UpToDate S Reads build (view c.shared.store) q := by
  intro q hq
  cases h with
  | write _ =>
    obtain ⟨w, -, rfl⟩ := Option.mem_map.mp hq
    trivial
  | enter =>
    cases hq
    exact rfl
  | hit hh =>
    cases hq
    obtain rfl : _ = S.version (view c.shared.store) := hp
    exact hinv.cached_of_hit hqu hro hh
  | miss _ =>
    cases hq
    exact ⟨hp, hbu.start _ _⟩
  | read hr =>
    cases hq
    exact ⟨hp.1, hbu.read hp.2 hr⟩
  | done hd =>
    cases hq
    exact ⟨hp.1, hbu.done hp.2 hd⟩
  | save =>
    cases hq
    obtain ⟨rfl, hb⟩ := hp
    exact hb
  | leave => cases hq

/-- The state of a run without writers in which thread `i` is a reader that started in it. -/
structure Window (S : Scheme τ ρ β) (view : σ → τ) (epoch : σ → ℕ) (changing : ω → Prop) (m : ℕ)
    (Reads : τ → ℕ → ρ → Prop) (build : τ → ℕ → β) (s : σ) (i : ℕ)
    (c : Config (Shared σ β) (Point ω ρ β)) : Prop where
  inv : Inv S view epoch changing m Reads build c
  quiet : Quiet c
  store : c.shared.store = s
  upToDate : ∀ p ∈ c.threads i, UpToDate S Reads build (view s) p

omit hinv

include hco

lemma Window.next {s : σ} (hro : epoch s < m)
    (hw : Window S view epoch changing m Reads build s i c) (hr : StartsReader e)
    (h : Step (Starts begins) (ThreadStep S view write) c e c') :
    Window S view epoch changing m Reads build s i c' := by
  have hinv := hw.inv.next hco hbu h
  obtain rfl := hw.store
  cases e with
  | spawn j p =>
    obtain ⟨-, hst, rfl⟩ := h
    refine ⟨hinv, forall_update (fun q hq => ?_) fun k _ => hw.quiet k, rfl, fun q hq => ?_⟩
    · cases hq
      exact hr
    · obtain ⟨-, hq⟩ | ⟨-, hq⟩ := mem_update_iff.mp hq
      · cases hq
        cases p with
        | writer w | enter => trivial
        | lookup | reading | save | use => exact hst.elim
      · exact hw.upToDate q hq
  | step j =>
    obtain ⟨p, s', p', hj, hs, rfl⟩ := h
    have hp := hw.quiet j p hj
    have hn : s'.store = c.shared.store ∧ ∀ q ∈ p', ∀ w, q ≠ .writer w := by
      cases hs with
      | write _ => exact absurd rfl (hp _)
      | enter | hit _ | miss _ | read _ | done _ | save =>
        refine ⟨rfl, fun q hq w hw => ?_⟩
        cases hq
        cases hw
      | leave => exact ⟨rfl, fun q hq => by cases hq⟩
    refine ⟨hinv, forall_update hn.2 fun k _ => hw.quiet k, hn.1, fun q hq => ?_⟩
    obtain ⟨rfl, how⟩ | ⟨-, ho⟩ := mem_update_iff.mp hq
    · exact UpToDate.step hbu hw.inv hw.quiet hro (hw.upToDate p hj) hs q how
    · exact hw.upToDate q ho

/-- **Between two changes, readers use what is there.**  A reader that starts when there is no
writer uses, as long as none has started since, the value computed from the store alone, if there
have been fewer than `m` changes. -/
theorem use_eq_build {s₀ : Shared σ β} {before during : List (Event (Point ω ρ β))} {b : β}
    (hv : S.version (view s₀.store) = epoch s₀.store % m)
    (he : ∀ v, S.hit s₀.cached v = false)
    (hbe : Run (Step (Starts begins) (ThreadStep S view write)) (idle s₀) before c)
    (hq : Quiet c) (hf : c.threads i = none) (hro : epoch c.shared.store < m)
    (hd : Run (Step (Starts begins) (ThreadStep S view write)) c during c')
    (hr : ∀ e ∈ during, StartsReader e) (hu : c'.threads i = some (.use b)) :
    b = build (view c'.shared.store) (S.version (view c'.shared.store)) := by
  have hinv : Inv S view epoch changing m Reads build c := by
    refine hbe.invariant (fun _ _ _ h hI => hI.next hco hbu h) ⟨hv, ?_, ?_⟩
    · intro v hh
      exact absurd (hh.symm.trans (he v)) Bool.noConfusion
    · intro j p hp
      cases hp
  have hwi : Window S view epoch changing m Reads build c.shared.store i c := by
    refine ⟨hinv, hq, rfl, fun p hp => ?_⟩
    rw [hf] at hp
    cases hp
  have hen := (hd.with_events hr).invariant
    (I := Window S view epoch changing m Reads build c.shared.store i)
    (fun _ _ _ h hw => hw.next hco hbu hro h.1 h.2) hwi
  have hb := hen.upToDate _ hu
  rw [hen.store]
  exact hb

/-! ### Undisturbed threads -/

omit hbu hco

lemma alone_writer {s s₁ : σ} {w : ω} (h : Alone write s w s₁) (b : β) :
    Alone (ThreadStep S view write) ⟨s, b⟩ (.writer w) ⟨s₁, b⟩ := by
  have hs : ∀ {s s' : σ} {w : ω} {w' : Option ω}, write s w s' w' →
      ThreadStep S view write ⟨s, b⟩ (.writer w) ⟨s', b⟩ (w'.map .writer) :=
    fun h => .write (c := ⟨_, b⟩) h
  induction h with
  | last h => exact .last (hs h)
  | more h _ ih => exact .more (hs h) ih

end

end VersionedCache
