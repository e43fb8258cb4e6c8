import LoadBalancer.Core.IpAddr
import LoadBalancer.Lib.Interleaving
import LoadBalancer.Lib.Table

/-!
# Connection caps per address

`PerIpLimiter` of the listeners and `PeerConnLimiter` of the gossip port are one algorithm with two
caps.  `try_acquire` is one step under the lock of an entry.  The drop of a guard is two: the
decrement and, if that left zero, the removal of the entry if it is still zero.

The count of an address is kept by the ledger rule.  A zero in the map is a debt: the drop that left
it has its removal still to make, or an acquire has raised the count again.
-/

namespace LoadBalancer.Server

open LoadBalancer.Core Interleaving AList

inductive ConnPoint
  /-- Before `try_acquire`. -/
  | acquiring (ip : IpAddr)
  /-- With a guard; before the decrement of its drop. -/
  | guarded (ip : IpAddr)
  /-- The decrement left zero; before `remove_if`. -/
  | removing (ip : IpAddr)
  deriving DecidableEq

namespace ConnPoint

/-- One locked step, under the cap `limit`. -/
def next (limit : ℕ) (counts : Table IpAddr ℕ) : ConnPoint → Table IpAddr ℕ × Option ConnPoint
  | acquiring ip =>
    let entry := (counts.get ip).getD 0
    if limit ≤ entry then (counts.insert ip entry, none)
    else (counts.insert ip (entry + 1), some (guarded ip))
  | guarded ip =>
    match counts.get ip with
    | none => (counts, none)
    | some count =>
      (counts.insert ip (count - 1), if count - 1 = 0 then some (removing ip) else none)
  | removing ip => (if counts.get ip = some 0 then counts.erase ip else counts, none)

def starts : ConnPoint → Bool
  | acquiring _ => true
  | _ => false

def Step (limit : ℕ) : Config (Table IpAddr ℕ) ConnPoint → Event ConnPoint →
    Config (Table IpAddr ℕ) ConnPoint → Prop :=
  Interleaving.Step (fun p => p.starts = true) (stepOf (next limit))

end ConnPoint

/-- The cap that `PerIpLimiter::new` sets. -/
def PerIpLimiter.cap (maxConns : ℕ) : ℕ := max maxConns 1

def PerIpLimiter.Step (maxConns : ℕ) := ConnPoint.Step (PerIpLimiter.cap maxConns)

def maxConcurrentConnectionsPerPeer : ℕ := 4

def PeerConnLimiter.Step := ConnPoint.Step maxConcurrentConnectionsPerPeer

/-- The caps are exact: each count is the number of guards, up to the cap; an acquire that is
refused finds as many guards as the cap allows; and unless a drop is between its two steps, the map
has the addresses with a guard and no others. -/
structure CapExact (limit : ℕ) (c : Config (Table IpAddr ℕ) ConnPoint) : Prop where
  count_eq : ∀ ip, (c.shared.get ip).getD 0 = population (· = .guarded ip) c.threads
  count_le : ∀ ip, population (· = .guarded ip) c.threads ≤ limit
  of_refused : ∀ i ip, c.threads i = some (.acquiring ip) →
    (ConnPoint.next limit c.shared (.acquiring ip)).2 = none →
      population (· = .guarded ip) c.threads = limit
  mem_iff : (∀ i ip, c.threads i ≠ some (.removing ip)) →
    ∀ ip, ip ∈ c.shared ↔ ∃ i, c.threads i = some (.guarded ip)

section

variable {limit : ℕ} {events : List (Event ConnPoint)} {c : Config (Table IpAddr ℕ) ConnPoint}

open ConnPoint

/-- **One step** keeps the account of an address. -/
lemma count_step (ip : IpAddr) {s s' : Table IpAddr ℕ} {p : ConnPoint} {p' : Option ConnPoint}
    {rest : ℕ} (h : (s.get ip).getD 0 = rest + (if p = guarded ip then 1 else 0) ∧
      (s.get ip).getD 0 ≤ limit) (hs : stepOf (next limit) s p s' p') :
    (s'.get ip).getD 0 = rest + p'.elim 0 (fun q => if q = guarded ip then 1 else 0) ∧
      (s'.get ip).getD 0 ≤ limit := by
  rw [stepOf] at hs
  cases p with
  | acquiring ip' => grind [next, get_insert]
  | guarded ip' => grind [next, get_insert]
  | removing ip' => grind [next, get_erase]

lemma zero_step (hl : 0 < limit) {s s' : Table IpAddr ℕ} {p : ConnPoint}
    {p' : Option ConnPoint} (hs : stepOf (next limit) s p s' p') (ip : IpAddr)
    (h : s'.get ip = some 0) :
    (∃ q ∈ p', q = removing ip) ∨ s.get ip = some 0 ∧ p ≠ removing ip := by
  rw [stepOf] at hs
  cases p with
  | acquiring ip' => grind [next, get_insert]
  | guarded ip' => grind [next, get_insert]
  | removing ip' => grind [next, get_erase]

lemma capExact_of_run (hl : 0 < limit) (hru : Run (ConnPoint.Step limit) (idle ∅) events c) :
    CapExact limit c := by
  have hc : ∀ ip, (c.shared.get ip).getD 0 = population (· = guarded ip) c.threads ∧
      (c.shared.get ip).getD 0 ≤ limit ∧ (population (· = guarded ip) c.threads = 0 ↔
        ∀ i, ∀ p ∈ c.threads i, p ≠ guarded ip) := by
    intro ip
    obtain ⟨S, hS, heq, hle⟩ := ledger
      (J := fun s n => (s.get ip).getD 0 = n ∧ (s.get ip).getD 0 ≤ limit)
      ⟨rfl, Nat.zero_le _⟩ (fun p hp => by cases p <;> simp_all [starts])
      (fun _ _ _ _ _ => count_step ip) hru
    exact ⟨heq.trans (population_eq_held hS).symm, hle, population_eq_zero_iff hS⟩
  refine ⟨fun ip => (hc ip).1, fun ip => (hc ip).1 ▸ (hc ip).2.1, ?_, ?_⟩
  · intro i ip _ hn
    obtain ⟨heq, hle, -⟩ := hc ip
    rw [next] at hn
    grind
  · intro hr ip
    have hz : c.shared.get ip ≠ some 0 := by
      intro h
      obtain ⟨i, p, hp, rfl⟩ := debt_owed (J := fun _ => True) (I := fun _ => True) trivial
        (fun _ _ => trivial) (fun _ _ _ _ _ _ _ => ⟨trivial, fun _ _ => trivial⟩) hru
        (fun s ip => s.get ip = some 0) (fun p ip => p = removing ip) (fun _ h => by cases h)
        (fun _ _ _ _ _ _ hs => zero_step hl hs) ip h
      exact hr i ip hp
    have hg : (∃ i, c.threads i = some (guarded ip)) ↔ (c.shared.get ip).getD 0 ≠ 0 := by
      obtain ⟨heq, -, hn⟩ := hc ip
      rw [heq, Ne, hn]
      simp
    rw [hg, ← get_isSome_iff]
    cases hge : c.shared.get ip with
    | none => simp
    | some n => simpa [hge] using hz

end

/-- **The connection caps are exact** in every interleaving, in both limiters. -/
theorem connection_caps_exact {events : List (Event ConnPoint)}
    {c : Config (Table IpAddr ℕ) ConnPoint} :
    (∀ maxConns, Run (PerIpLimiter.Step maxConns) (idle ∅) events c →
      CapExact (PerIpLimiter.cap maxConns) c) ∧
    (Run PeerConnLimiter.Step (idle ∅) events c → CapExact maxConcurrentConnectionsPerPeer c) :=
  ⟨fun _ hr => capExact_of_run (lt_max_of_lt_right one_pos) hr,
    fun hr => capExact_of_run four_pos hr⟩

/-- A connection arrives between the two steps of a drop: its count is not removed. -/
theorem connection_caps_exact_rearrival :
    ∃ events c, Run (PerIpLimiter.Step 0) (idle ∅) events c ∧
      population (· = .guarded (.v4 7)) c.threads = 1 ∧ .v4 7 ∈ c.shared := by
  have he : ((exec ConnPoint.starts (fun _ _ => true) (ConnPoint.next 1) (idle ∅)
      [.spawn 0 (.acquiring (.v4 7)), .step 0, .spawn 1 (.acquiring (.v4 7)), .step 0, .step 1,
        .step 0]).any fun c => c.shared.get (.v4 7) = some 1) = true := by decide +kernel
  obtain ⟨c, hc, hco⟩ := (Option.any_eq_true _ _).mp he
  have hr : Run (PerIpLimiter.Step 0) (idle ∅) _ c :=
    run_of_scheduled (run_of_exec (fun _ h => h) (fun _ _ _ => trivial) hc)
  have hg := of_decide_eq_true hco
  refine ⟨_, c, hr, ?_, mem_of_get_eq_some hg⟩
  rw [← (connection_caps_exact.1 0 hr).count_eq, hg]
  rfl

end LoadBalancer.Server
